import Flowy.Wait.Record

/-! Directives that nodes return. Effects are wrapped around a base directive one by one, and the runner
unwraps them from the outside. -/
namespace Flowy

/-- `unset` is the zero kind. -/
inductive DirectiveKind
  | unset | completed | end | suspend | retry | effect | fail | handoff | wait | next
deriving DecidableEq, Repr

/-- A directive whose effect payloads are kept as values of `A`, the type `any`. -/
inductive Directive (A : Type)
  | mk (kind : DirectiveKind) (reason : Text) (maxAttempts : Int) (resumeAt : ExecutionPointer)
      (base : Option (Directive A)) (payload : Option A) (spec : Option DurableWaitSpec)

namespace Directive

variable {A : Type}

def kind : Directive A → DirectiveKind
  | .mk kind _ _ _ _ _ _ => kind

def reason : Directive A → Text
  | .mk _ reason _ _ _ _ _ => reason

def maxAttempts : Directive A → Int
  | .mk _ _ maxAttempts _ _ _ _ => maxAttempts

def resumeAt : Directive A → ExecutionPointer
  | .mk _ _ _ resumeAt _ _ _ => resumeAt

def waitSpec : Directive A → Option DurableWaitSpec
  | .mk _ _ _ _ _ _ spec => spec

def withKind (kind : DirectiveKind) : Directive A := .mk kind [] 0 [] none none none

def completed : Directive A := .withKind .completed
/-- `End()`. -/
def finish : Directive A := .withKind .end
def suspend (reason : Text) (resumeAt : ExecutionPointer) : Directive A :=
  .mk .suspend reason 0 resumeAt none none none
def await (spec : DurableWaitSpec) : Directive A := .mk .wait [] 0 [] none none (some spec)
def fail (reason : Text) : Directive A := .mk .fail reason 0 [] none none none
def handoff (reason : Text) (resumeAt : ExecutionPointer) : Directive A :=
  .mk .handoff reason 0 resumeAt none none none
def retry (maxAttempts : Int) : Directive A := .mk .retry [] maxAttempts [] none none none

def isCompleted (d : Directive A) : Bool := d.kind == .completed

end Directive

/-- How values of `E` become values of `A`, the type `any`, and how a type assertion gets them back. An
interface that is nil is the only value that does not come back, and an assertion that holds never gives it. -/
class AnyValue (A E : Type) where
  wrap : E → A
  assert : A → Option E
  isNil : E → Bool
  /-- `%T` of the zero value of `E`. -/
  typeName : Text
  assert_wrap : ∀ e, assert (wrap e) = if isNil e then none else some e
  isNil_of_assert : ∀ a e, assert a = some e → isNil e = false

section Effects

variable {A E : Type} [AnyValue A E]

/-- `Effect(base, payload)`. -/
def Directive.effect (base : Directive A) (payload : E) : Directive A :=
  .mk .effect [] 0 [] (some base) (some (AnyValue.wrap payload)) none

def withEffects (base : Directive A) (effects : List E) : Directive A := effects.foldl Directive.effect base

def effectTypeMismatch (A E : Type) [AnyValue A E] : Err :=
  ⟨ascii "flowy: effect type mismatch: expected " ++ AnyValue.typeName A E,[]⟩
def effectRequiresBase : Err := ⟨ascii "flowy: Effect requires base directive",[]⟩
def zeroDirective : Err := ⟨ascii "flowy: zero directive is not allowed",[]⟩

/-- The loop of `UnwrapDirective`; `effects` are the payloads passed so far, outermost first. -/
def unwrapLoop : Directive A → List E → Result (Directive A × List E)
  | .mk kind reason maxAttempts resumeAt base payload spec, effects =>
    if kind = .effect then
      match payload.bind AnyValue.assert with
      | none => .error (effectTypeMismatch A E)
      | some effect =>
        match base with
        | none => .error effectRequiresBase
        | some d => unwrapLoop d (effects ++ [effect])
    else if kind = .unset then .error zeroDirective
    else .ok (.mk kind reason maxAttempts resumeAt base payload spec,effects.reverse)

def unwrapDirective (d : Directive A) : Result (Directive A × List E) := unwrapLoop d []

theorem unwrapLoop_effect (d : Directive A) {e : E} (he : AnyValue.isNil A e = false) (effects : List E) :
    unwrapLoop (d.effect e) effects = unwrapLoop d (effects ++ [e]) := by
  simp [Directive.effect,unwrapLoop,AnyValue.assert_wrap,he]

theorem unwrapLoop_plain {d : Directive A} (heffect : d.kind ≠ .effect) (hset : d.kind ≠ .unset)
    (effects : List E) : unwrapLoop d effects = .ok (d,effects.reverse) := by
  cases d with
  | mk kind reason maxAttempts resumeAt base payload spec =>
    simp only [Directive.kind] at heffect hset
    simp only [unwrapLoop,if_neg heffect,if_neg hset]

theorem unwrapLoop_append (d : Directive A) (passed effects : List E) :
    unwrapLoop d (passed ++ effects) =
      (unwrapLoop d effects).map fun r => (r.1,r.2 ++ passed.reverse) := by
  induction d, effects using unwrapLoop.induct with
  | case1 reason maxAttempts resumeAt base payload spec effects hnone => simp [unwrapLoop,hnone,Except.map]
  | case2 reason maxAttempts resumeAt payload spec effects effect hsome =>
    simp [unwrapLoop,hsome,Except.map]
  | case3 reason maxAttempts resumeAt payload spec effects d effect hsome ih =>
    simp only [unwrapLoop,if_true,hsome,List.append_assoc]
    exact ih
  | case4 reason maxAttempts resumeAt base payload spec effects heffect =>
    simp [unwrapLoop,Except.map]
  | case5 kind reason maxAttempts resumeAt base payload spec effects heffect hset =>
    simp [unwrapLoop,heffect,hset,Except.map]

theorem unwrapLoop_withEffects (d : Directive A) (ys effects : List E)
    (hys : ∀ y ∈ ys, AnyValue.isNil A y = false) :
    unwrapLoop (withEffects d ys) effects = unwrapLoop d (effects ++ ys.reverse) := by
  induction ys generalizing d with
  | nil => simp [withEffects]
  | cons y ys ih =>
    have hy := hys y List.mem_cons_self
    have htail := ih (d.effect y) fun y' hy' => hys y' (List.mem_cons_of_mem _ hy')
    calc unwrapLoop (withEffects d (y :: ys)) effects
        = unwrapLoop (d.effect y) (effects ++ ys.reverse) := htail
      _ = unwrapLoop d (effects ++ ys.reverse ++ [y]) := unwrapLoop_effect d hy _
      _ = unwrapLoop d (effects ++ (y :: ys).reverse) := by rw [List.append_assoc,List.reverse_cons]

theorem unwrapDirective_withEffects {d base : Directive A} {xs ys : List E}
    (h : unwrapDirective d = .ok (base,xs)) (hys : ∀ y ∈ ys, AnyValue.isNil A y = false) :
    unwrapDirective (withEffects d ys) = .ok (base,xs ++ ys) := by
  have hloop := unwrapLoop_append d ys.reverse ([] : List E)
  rw [List.append_nil] at hloop
  rw [unwrapDirective] at h ⊢
  rw [unwrapLoop_withEffects d ys [] hys,List.nil_append,hloop,h]
  simp [Except.map]

/-- Any nesting of `Effect` and `WithEffects` around `base`, with the effects from the inside out. -/
inductive Wraps (base : Directive A) : Directive A → List E → Prop
  | plain : Wraps base base []
  | effect {d : Directive A} {xs : List E} {e : E} (inner : Wraps base d xs)
      (present : AnyValue.isNil A e = false) : Wraps base (d.effect e) (xs ++ [e])
  | withEffects {d : Directive A} {xs ys : List E} (inner : Wraps base d xs)
      (present : ∀ y ∈ ys, AnyValue.isNil A y = false) : Wraps base (withEffects d ys) (xs ++ ys)

theorem Wraps.unwrapDirective {base d : Directive A} {xs : List E} (h : Wraps base d xs)
    (heffect : base.kind ≠ .effect) (hset : base.kind ≠ .unset) :
    unwrapDirective d = .ok (base,xs) := by
  induction h with
  | plain => exact unwrapLoop_plain heffect hset []
  | effect inner present ih =>
    have hone := unwrapDirective_withEffects ih (List.forall_mem_singleton.mpr present)
    exact hone
  | withEffects inner present ih => exact unwrapDirective_withEffects ih present

structure FaithfulEffects (A E : Type) [AnyValue A E] : Prop where
  appends : ∀ (d base : Directive A) (xs ys : List E), Flowy.unwrapDirective d = .ok (base,xs) →
    (∀ y ∈ ys, AnyValue.isNil A y = false) → Flowy.unwrapDirective (withEffects d ys) = .ok (base,xs ++ ys)
  nested : ∀ base : Directive A, base.kind ≠ .effect → base.kind ≠ .unset →
    ∀ (d : Directive A) (xs : List E), Wraps base d xs → Flowy.unwrapDirective d = .ok (base,xs)

theorem effects_unwrap_in_order (A E : Type) [AnyValue A E] : FaithfulEffects A E where
  appends _ _ _ _ h hys := unwrapDirective_withEffects h hys
  nested _ heffect hset _ _ h := h.unwrapDirective heffect hset

end Effects

section Example

@[reducible] def AnyValue.numbers : AnyValue Nat Nat where
  wrap := id
  assert := some
  isNil _ := false
  typeName := ascii "uint"
  assert_wrap _ := rfl
  isNil_of_assert _ _ _ := rfl

attribute [local instance] AnyValue.numbers

example : (unwrapDirective (withEffects ((Directive.retry 2 : Directive Nat).effect 1) [2,3])).toOption.map
    (fun r => (r.1.kind,r.2)) = some (.retry,[1,2,3]) := by decide

end Example
end Flowy
