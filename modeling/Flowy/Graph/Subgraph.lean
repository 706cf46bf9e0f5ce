import Flowy.Graph.Capture

/-! A graph as a node of another graph. Every invocation of the node runs the inner graph on storage of its
own, which is gone when the node returns; a slot in the state of the parent keeps where the inner run stands
and how many of its effects the parent has got. -/
namespace Flowy

def inlineSlotContract : Text := ascii "flowy.inline-slot.v1"

/-- The cursor of an inner run, as the parent's state keeps it. -/
structure SubgraphSlot (S E : Type) where
  contract : Text
  executionPointer : ExecutionPointer
  revision : Nat
  state : S
  runMeta : RunMetadata
  effects : List E
  /-- How many effects were published at a parent boundary. -/
  exportedEffects : Int

/-- The arguments of `SubgraphNodeWithSlot`. `host` is what an inner run finds in the context of the node;
`durable` tells whether that context belongs to a durable execution. -/
structure Subgraph (W A P S E : Type) where
  sub : Graph W A S
  mapIn : P → S
  loadSlot : P → SubgraphSlot S E × Bool
  storeSlot : P → SubgraphSlot S E → P
  mapOut : P → S → P
  host : Host W
  durable : Bool

section Node

variable {W A P S E : Type}

def SubgraphSlot.zero [Inhabited S] : SubgraphSlot S E :=
  ⟨[],[],0,default,(zeroSnapshot : ThreadSnapshot S E).runMeta,[],0⟩

/-- No options: an inner run does not inherit those of the parent. -/
def Invocation.inline : Invocation W S := ⟨none,none,none,none,∅,∅,none,false,.hardFail⟩

def subgraphThreadID (ctx : NodeContext) : Text :=
  (if ctx.threadID = [] then ascii "__subgraph_parent__" else ctx.threadID) ++ ascii "::" ++
    if ctx.nodeName = [] then ascii "subgraph" else ctx.nodeName

namespace Subgraph

variable (n : Subgraph W A P S E)

/-- `sub.NewRunner(cp)`, without a lease manager and with no session yet. -/
def runner : Runner W A S E where
  graph := n.sub
  checkpointer := some captureCheckpointer
  interceptors := []
  handoffOutbox := none
  handoffStaleAfter := defaultHandoffStaleAfter
  host := { n.host with
    acquireLease := fun _ w => (none,w)
    releaseLease := fun _ w => (none,w)
    running := fun _ w => (false,w) }

def occupied (parent : P) : Bool := (n.loadSlot parent).2 && (n.loadSlot parent).1.executionPointer != []

/-- A slot whose effect cursor is not valid is refused. -/
def validSlot (slot : SubgraphSlot S E) : Bool :=
  !(slot.contract != inlineSlotContract || slot.exportedEffects < 0 ||
    (slot.effects.length : Int) < slot.exportedEffects)

section Calls

variable [Quoting] [AnyValue A E] [Inhabited S]

def resumeSlot (slot : SubgraphSlot S E) (threadID : Text) (env : Env W S E) :
    Result (Option (Segment W A S E × Env W S E)) :=
  match captureCheckpointer.save 0 ⟨⟨threadID,slot.executionPointer,slot.state,slot.runMeta,slot.effects⟩,0⟩
      env with
  | (.error err,_) => .error err
  | (.ok revision,env) => .ok (n.runner.resume .inline none ⟨threadID,revision⟩ env)

/-- The inner run of one invocation, with the number of effects exported before. -/
def enter (threadID : Text) (parent : P) (env : Env W S E) :
    Result (Int × Option (Segment W A S E × Env W S E)) :=
  if n.occupied parent then
    let slot := (n.loadSlot parent).1
    if validSlot slot then (n.resumeSlot slot threadID env).map fun out => (slot.exportedEffects,out)
    else fail .invalidSnapshot
  else .ok (0,n.runner.start .inline none threadID (n.mapIn parent) env)

omit [Quoting] [AnyValue A E] in
/-- What the parent's state keeps of a run that ended with `status`. -/
def keepSlot (threadID : Text) (parent : P) (status : RunStatus) (env : Env W S E) : Result P :=
  match status with
  | .suspended | .handoff | .contextCanceled =>
    (captureCheckpointer.load threadID env).1.map fun snap => n.storeSlot parent
      ⟨inlineSlotContract,snap.executionPointer,snap.revision,snap.state,snap.runMeta,snap.effects,
        snap.effects.length⟩
  | .completed => .ok (n.storeSlot parent .zero)
  -- the last confirmed slot is retained for explicit recovery
  | .failed | .transferred => .ok parent

omit [Quoting] [Inhabited S] in
def outcome (result : ThreadResult S E) (newEffects : List E) : Directive A :=
  match result.status with
  | .suspended => withEffects (.suspend result.reason []) newEffects
  -- the parent's own cancellation boundary persists the mapped inner continuation
  | .contextCanceled | .completed => withEffects .completed newEffects
  | .handoff => withEffects (.handoff result.reason []) newEffects
  | .failed =>
    withEffects (.fail (if result.reason = [] then ascii "subgraph failed" else result.reason)) newEffects
  | .transferred => .fail (ascii "subgraph failed")

omit [Quoting] in
def leave (threadID : Text) (parent : P) (exported : Int) (segment : Segment W A S E) (env : Env W S E) :
    Result (P × Directive A) :=
  match segment.result, segment.err with
  | none, err => .error (err.getD (.of .invalidSnapshot))
  | some result, err =>
    match err.filter fun _ => result.status != .contextCanceled with
    | some err => .error err
    | none =>
      if (result.effects.length : Int) < exported then fail .invalidSnapshot
      else (n.keepSlot threadID (n.mapOut parent result.state) result.status env).map fun parent =>
        (parent,outcome result (result.effects.drop exported.toNat))

/-- `SubgraphNodeWithSlot`. An error answers for the directive that comes with it; the world of a refused
seed is the one before. -/
def nodeWithSlot : Node W A P := fun ctx parent w =>
  if n.durable then (⟨fail .executionCapability,ctx.budgets⟩,w)
  else match n.enter (subgraphThreadID ctx) parent ⟨w,fun _ => [],[]⟩ with
    | .error err => (⟨.error err,ctx.budgets⟩,w)
    -- the inner run always returns
    | .ok (_,none) => (⟨fail .invalidSnapshot,ctx.budgets⟩,w)
    | .ok (exported,some (segment,env)) =>
      (⟨n.leave (subgraphThreadID ctx) parent exported segment env,ctx.budgets⟩,env.world)

end Calls
end Subgraph

/-- `StatelessSubgraphNode`: no inner cursor survives. -/
def statelessSubgraph [Inhabited S] (sub : Graph W A S) (mapIn : P → S) (mapOut : P → S → P) (host : Host W)
    (durable : Bool) : Subgraph W A P S E :=
  ⟨sub,mapIn,fun _ => (.zero,false),fun parent _ => parent,mapOut,host,durable⟩

def Graph.asStatelessNode [Inhabited S] (g : Graph W A S) (host : Host W) (durable : Bool) : Subgraph W A S S E :=
  statelessSubgraph g id (fun _ updated => updated) host durable

end Node

/-! What the invocations of a node export. -/
section Exports

variable {W A P S E : Type}

namespace Subgraph

/-- The state of the parent returns the slot that was stored in it. -/
structure LawfulSlot (n : Subgraph W A P S E) : Prop where
  loaded : ∀ parent slot, n.loadSlot (n.storeSlot parent slot) = (slot,true)

variable (n : Subgraph W A P S E) {parent parent' : P} {ctx : NodeContext} {w w' : W}
  {budgets : GoMap Text Int} {d : Directive A} {result : ThreadResult S E}

theorem runner_reliable : n.runner.Reliable Invocation.inline := ⟨rfl,rfl,rfl,rfl⟩

def standing (parent : P) : List E := if n.occupied parent then (n.loadSlot parent).1.effects else []

section Invocations

variable [Quoting] [AnyValue A E] [Inhabited S]

def innerResult (ctx : NodeContext) (parent : P) (w : W) : Option (ThreadResult S E) :=
  match n.enter (subgraphThreadID ctx) parent ⟨w,fun _ => [],[]⟩ with
  | .ok (_,some (segment,_)) => segment.result
  | .ok (_,none) | .error _ => none

theorem resumeSlot_eq (slot : SubgraphSlot S E) (threadID : Text) (w : W) :
    n.resumeSlot slot threadID ⟨w,fun _ => [],[]⟩ =
      .ok (n.runner.resume .inline none ⟨threadID,1⟩ (Env.append ⟨w,fun _ => [],[]⟩
        ⟨⟨threadID,slot.executionPointer,slot.state,slot.runMeta,slot.effects⟩,1⟩)) := by
  rw [resumeSlot,captureCheckpointer_save]
  rfl

variable {n}

theorem enter_concluded {exempt : Text → Bool} (hg : n.sub.WellRouted exempt) {threadID : Text} {exported : Int}
    {segment : Segment W A S E} {env' : Env W S E}
    (h : n.enter threadID parent ⟨w,fun _ => [],[]⟩ = .ok (exported,some (segment,env')))
    (hresult : segment.result = some result) :
    Concluded threadID ((result,segment.err),env') ∧ AddsEffects A (n.standing parent) result.effects ∧
      exported = if n.occupied parent then (n.loadSlot parent).1.exportedEffects else 0 := by
  unfold enter at h
  unfold standing
  split at h
  · next hslot =>
    rw [if_pos hslot,if_pos hslot]
    dsimp only at h
    split at h
    · rw [resumeSlot_eq] at h
      obtain ⟨hexported,hcall⟩ := Prod.ext_iff.mp (Except.ok.inj h)
      obtain ⟨hconcluded,hadds⟩ := n.runner_reliable.resume hg
        (by rw [Env.append_thread]; exact List.getLast?_concat) hcall hresult
      exact ⟨hconcluded,hadds,hexported.symm⟩
    · cases h
  · next hslot =>
    rw [if_neg hslot,if_neg hslot]
    obtain ⟨hexported,hcall⟩ := Prod.ext_iff.mp (Except.ok.inj h)
    obtain ⟨hconcluded,hadds⟩ := n.runner_reliable.start hg rfl hcall hresult
    exact ⟨hconcluded,hadds,hexported.symm⟩

inductive Kept (n : Subgraph W A P S E) (parent : P) (result : ThreadResult S E) (parent' : P) : Prop
  | emptied (status : result.status = .completed) (kept : parent' = n.storeSlot parent .zero)
  | standing (status : result.status.pauses = true) (slot : SubgraphSlot S E)
      (kept : parent' = n.storeSlot parent slot) (contract : slot.contract = inlineSlotContract)
      (pointer : slot.executionPointer ≠ []) (effects : slot.effects = result.effects)
      (exported : slot.exportedEffects = slot.effects.length)

structure Answered (n : Subgraph W A P S E) (ctx : NodeContext) (parent : P) (w : W) (parent' : P) (d : Directive A)
    (result : ThreadResult S E) : Prop where
  inner : n.innerResult ctx parent w = some result
  adds : AddsEffects A (n.standing parent) result.effects
  directive : ∃ exported : Int,
    (exported = if n.occupied parent then (n.loadSlot parent).1.exportedEffects else 0) ∧
      d = outcome result (result.effects.drop exported.toNat)
  kept : n.Kept (n.mapOut parent result.state) result parent'

omit [Quoting] [AnyValue A E] in
theorem keepSlot_kept {threadID : Text} {env : Env W S E} {err : Option Err}
    (hconcluded : Concluded threadID ((result,err),env)) (hnone : result.status = .failed → err = none)
    (h : n.keepSlot threadID parent result.status env = .ok parent') : n.Kept parent result parent' := by
  cases hconcluded with
  | failed status => exact absurd (hnone status) (Option.some_ne_none _)
  | completed status =>
    rw [status] at h
    cases h
    exact .emptied status rfl
  | @paused _ _ _ head status stored pointer effects =>
    have hload := captureCheckpointer_load stored
    have hkept : n.storeSlot parent ⟨inlineSlotContract,head.executionPointer,head.revision,head.state,
        head.runMeta,head.effects,head.effects.length⟩ = parent' := by
      unfold keepSlot at h
      rw [hload] at h
      cases hstatus : result.status with
      | suspended | handoff | contextCanceled =>
        rw [hstatus] at h
        exact Except.ok.inj h
      | completed | transferred | failed =>
        rw [hstatus] at status
        cases status
    exact .standing status _ hkept.symm rfl pointer effects rfl

theorem nodeWithSlot_answered {exempt : Text → Bool} (hg : n.sub.WellRouted exempt)
    (h : n.nodeWithSlot ctx parent w = (⟨.ok (parent',d),budgets⟩,w')) :
    ∃ result, n.Answered ctx parent w parent' d result := by
  unfold nodeWithSlot at h
  split at h
  · cases h
  · cases henter : n.enter (subgraphThreadID ctx) parent ⟨w,fun _ => [],[]⟩ with
    | error err =>
      rw [henter] at h
      cases h
    | ok out =>
      obtain ⟨exported,call⟩ := out
      rw [henter] at h
      cases call with
      | none => cases h
      | some call =>
        obtain ⟨segment,env'⟩ := call
        have hleave : n.leave (subgraphThreadID ctx) parent exported segment env' = .ok (parent',d) :=
          congrArg (fun out => out.1.answer) h
        have hinner : n.innerResult ctx parent w = segment.result := by rw [innerResult,henter]
        unfold leave at hleave
        cases hresult : segment.result with
        | none =>
          rw [hresult] at hleave
          cases hleave
        | some result =>
          rw [hresult] at hleave
          dsimp only at hleave
          obtain ⟨hconcluded,hadds,hexported⟩ := enter_concluded hg henter hresult
          split at hleave
          · cases hleave
          · next hfilter =>
            split at hleave
            · cases hleave
            · cases hkeep : n.keepSlot (subgraphThreadID ctx) (n.mapOut parent result.state) result.status env' with
              | error err =>
                rw [hkeep] at hleave
                cases hleave
              | ok kept =>
                rw [hkeep] at hleave
                cases hleave
                refine ⟨result,hinner.trans hresult,hadds,⟨exported,hexported,rfl⟩,
                  keepSlot_kept hconcluded (fun hfailed => ?_) hkeep⟩
                rw [hfailed] at hfilter
                exact Option.eq_none_iff_forall_ne_some.mpr (by simpa using hfilter)

omit [Quoting] in
theorem unwrap_outcome (hkept : n.Kept parent result parent') {more : List E}
    (hmore : ∀ e ∈ more, ∃ a : A, AnyValue.assert a = some e) :
    ∃ base : Directive A, unwrapDirective (outcome result more) = .ok (base,more) ∧ base.kind ≠ .fail := by
  have hpresent : ∀ e ∈ more, AnyValue.isNil A e = false := by
    intro e he
    obtain ⟨a,ha⟩ := hmore e he
    exact AnyValue.isNil_of_assert a e ha
  have hwrap : ∀ (base : Directive A) (kind : DirectiveKind), base.kind = kind →
      kind ≠ .effect ∧ kind ≠ .unset ∧ kind ≠ .fail →
      ∃ base' : Directive A, unwrapDirective (withEffects base more) = .ok (base',more) ∧ base'.kind ≠ .fail := by
    rintro base kind rfl ⟨heffect,hset,hfail⟩
    exact ⟨base,unwrapDirective_withEffects (unwrapLoop_plain heffect hset []) hpresent,hfail⟩
  have hstatus : result.status = .completed ∨ result.status.pauses = true := by
    cases hkept with
    | emptied status kept => exact .inl status
    | standing status slot kept contract pointer effects exported => exact .inr status
  cases hcase : result.status with
  | suspended =>
    simp only [outcome,hcase]
    exact hwrap _ .suspend rfl (by decide)
  | contextCanceled | completed =>
    simp only [outcome,hcase]
    exact hwrap _ .completed rfl (by decide)
  | handoff =>
    simp only [outcome,hcase]
    exact hwrap _ .handoff rfl (by decide)
  | failed | transferred =>
    rw [hcase] at hstatus
    simp [RunStatus.pauses] at hstatus

theorem statelessSubgraph_exports {sub : Graph W A S} {mapIn : P → S} {mapOut : P → S → P} {host : Host W}
    {durable : Bool} {exempt : Text → Bool} (hg : sub.WellRouted exempt)
    (h : (statelessSubgraph sub mapIn mapOut host durable : Subgraph W A P S E).nodeWithSlot ctx parent w =
      (⟨.ok (parent',d),budgets⟩,w')) :
    ∃ result : ThreadResult S E, d = outcome result result.effects ∧ parent' = mapOut parent result.state := by
  obtain ⟨result,-,-,⟨exported,hexported,hd⟩,hkept⟩ := nodeWithSlot_answered hg h
  refine ⟨result,?_,?_⟩
  · have hzero : exported = 0 := hexported
    rw [hd,hzero]
    rfl
  · cases hkept with
    | emptied status kept => exact kept
    | standing status slot kept contract pointer effects exported => exact kept

/-- The invocations of one inner run so far: `es` are the effects their directives carried, and `parent` is
the state the last of them returned. Between two invocations the host keeps the slot. -/
inductive Pending (n : Subgraph W A P S E) : P → List E → Prop
  | fresh {parent : P} (empty : n.occupied parent = false) : Pending n parent []
  | paused {parent next parent' : P} {es more : List E} {ctx : NodeContext} {w w' : W} {d base : Directive A}
      {budgets : GoMap Text Int} (before : Pending n parent es) (same : n.loadSlot next = n.loadSlot parent)
      (invoked : n.nodeWithSlot ctx next w = (⟨.ok (parent',d),budgets⟩,w'))
      (carried : unwrapDirective d = .ok (base,more)) (occupied : n.occupied parent' = true) :
      Pending n parent' (es ++ more)

structure Counted (n : Subgraph W A P S E) (parent : P) (es : List E) : Prop where
  effects : n.standing parent = es
  exported : n.occupied parent = true → (n.loadSlot parent).1.exportedEffects = es.length

/-- What the next invocation does, if it answers: its directive carries the effects that are new, and the
slot is empty once the inner run is completed. -/
structure ExportsNew (n : Subgraph W A P S E) (es : List E) (parent' : P) (d : Directive A)
    (result : ThreadResult S E) : Prop where
  carried : ∃ (base : Directive A) (more : List E), unwrapDirective d = .ok (base,more) ∧
    base.kind ≠ .fail ∧ es ++ more = result.effects
  left : result.status = .completed ∧ n.loadSlot parent' = (.zero,true) ∨
    result.status.pauses = true ∧ n.occupied parent' = true ∧ n.Counted parent' result.effects

omit [Quoting] [AnyValue A E] [Inhabited S] in
theorem LawfulSlot.occupied_store (h : n.LawfulSlot) (parent : P) (slot : SubgraphSlot S E) :
    n.occupied (n.storeSlot parent slot) = (slot.executionPointer != []) := by
  simp [occupied,h.loaded]

omit [Quoting] [AnyValue A E] in
theorem Kept.left (hlawful : n.LawfulSlot) (h : n.Kept parent result parent') :
    result.status = .completed ∧ n.loadSlot parent' = (.zero,true) ∨
      result.status.pauses = true ∧ n.occupied parent' = true ∧ n.Counted parent' result.effects := by
  cases h with
  | emptied status kept =>
    subst kept
    exact .inl ⟨status,hlawful.loaded parent _⟩
  | standing status slot kept contract pointer effects exported =>
    subst kept
    have hoccupied : n.occupied (n.storeSlot parent slot) = true := by
      rw [hlawful.occupied_store]
      exact bne_iff_ne.mpr pointer
    refine .inr ⟨status,hoccupied,?_,fun _ => ?_⟩
    · rw [Subgraph.standing,if_pos hoccupied,hlawful.loaded]
      exact effects
    · rw [hlawful.loaded,← effects]
      exact exported

theorem Counted.exports {exempt : Text → Bool} (hg : n.sub.WellRouted exempt) (hlawful : n.LawfulSlot)
    {es : List E} (hcounted : n.Counted parent es) (h : n.nodeWithSlot ctx parent w = (⟨.ok (parent',d),budgets⟩,w')) :
    ∃ result, n.innerResult ctx parent w = some result ∧ n.ExportsNew es parent' d result := by
  obtain ⟨result,hinner,hadds,⟨exported,hexported,hd⟩,hkept⟩ := nodeWithSlot_answered hg h
  obtain ⟨more,heffects,hmore⟩ := hadds
  rw [hcounted.effects] at heffects
  have hlength : exported.toNat = es.length := by
    split at hexported
    · next hoccupied =>
      rw [hexported,hcounted.exported hoccupied]
      rfl
    · next hempty =>
      have hnil := hcounted.effects
      rw [standing,if_neg hempty] at hnil
      rw [hexported,← hnil]
      rfl
  rw [hlength,heffects,List.drop_left] at hd
  obtain ⟨base,hunwrap,hkind⟩ := unwrap_outcome hkept hmore
  refine ⟨result,hinner,⟨base,more,?_,hkind,heffects.symm⟩,hkept.left hlawful⟩
  rw [hd]
  exact hunwrap

/-- Every inner effect reaches the parent exactly once, however often the inner run pauses. -/
theorem subgraph_exports_once {b : GraphBuilder W A S} {opts : List BuildOption}
    (hcompile : b.compile opts = .ok n.sub) (hlawful : n.LawfulSlot) {es : List E}
    (h : n.Pending parent es) :
    n.Counted parent es ∧ ∀ next ctx w parent' d budgets w', n.loadSlot next = n.loadSlot parent →
      n.nodeWithSlot ctx next w = (⟨.ok (parent',d),budgets⟩,w') →
        ∃ result, n.innerResult ctx next w = some result ∧ n.ExportsNew es parent' d result := by
  have hg := GraphBuilder.compile_wellRouted hcompile
  have hsame : ∀ {next parent : P} {es : List E}, n.loadSlot next = n.loadSlot parent → n.Counted parent es →
      n.Counted next es := by
    intro next parent es hload hcounted
    have hoccupied : n.occupied next = n.occupied parent := by simp only [occupied,hload]
    refine ⟨?_,fun h => ?_⟩
    · rw [← hcounted.effects,standing,standing,hoccupied,hload]
    · rw [hload]
      exact hcounted.exported (hoccupied ▸ h)
  have hcounted : n.Counted parent es := by
    induction h with
    | fresh empty => exact ⟨by rw [standing,empty]; rfl,fun h => by rw [empty] at h; cases h⟩
    | paused before same invoked carried occupied ih =>
      obtain ⟨result,-,hexports⟩ := (hsame same ih).exports hg hlawful invoked
      obtain ⟨base,more,hunwrap,-,heffects⟩ := hexports.carried
      rw [carried] at hunwrap
      cases hunwrap
      rw [heffects]
      obtain ⟨-,hempty⟩ | ⟨-,-,hcounted⟩ := hexports.left
      · simp [Subgraph.occupied,hempty,SubgraphSlot.zero] at occupied
      · exact hcounted
  exact ⟨hcounted,fun next ctx w parent' d budgets w' hload hcall =>
    (hsame hload hcounted).exports hg hlawful hcall⟩

end Invocations
end Subgraph
end Exports

section Example

attribute [local instance] Quoting.plain AnyValue.numbers

def twoPartBuilder : GraphBuilder Unit Nat Nat :=
  (newGraph (some fun _ update => update)).calls
    [.addNode [110] (some fun ctx state w => (⟨.ok (if state = 0
        then (1,(Directive.suspend [] []).effect 1) else (2,Directive.finish.effect 2)),ctx.budgets⟩,w)),
      .addEdge [110] endNode,.setEntryPoint [110]]

def twoPart : Subgraph Unit Nat (SubgraphSlot Nat Nat × Bool) Nat Nat :=
  ⟨twoPartBuilder.buildGraph (applyBuildOptions []),fun _ => 0,id,fun _ slot => (slot,true),fun parent _ => parent,
    refusedHandoff.host,false⟩

def exportsOf (out : NodeReturn Nat (SubgraphSlot Nat Nat × Bool) × Unit) : Option (Bool × List Nat) :=
  out.1.answer.toOption.bind fun answer => ((unwrapDirective answer.2).toOption : Option (_ × List Nat)).map
    fun unwrapped => (twoPart.occupied answer.1,unwrapped.2)

def firstPart : NodeReturn Nat (SubgraphSlot Nat Nat × Bool) × Unit :=
  twoPart.nodeWithSlot ⟨[116],[115],∅⟩ (.zero,false) ()

theorem twoPart_compiles : twoPartBuilder.compile [] = .ok twoPart.sub := by
  have hclean : twoPartBuilder.collectCompileErrors = [] := by decide +kernel
  rw [GraphBuilder.compile,hclean]
  rfl

theorem pending_of_exports {out : NodeReturn Nat (SubgraphSlot Nat Nat × Bool) × Unit} {es : List Nat}
    (hcall : twoPart.nodeWithSlot ⟨[116],[115],∅⟩ (.zero,false) () = out) (hout : exportsOf out = some (true,es)) :
    ∃ parent, twoPart.Pending parent es := by
  obtain ⟨⟨⟨answer,budgets⟩,w⟩,rfl⟩ : ∃ out', out' = out := ⟨out,rfl⟩
  cases answer with
  | error err => cases hout
  | ok answer =>
    obtain ⟨⟨base,more⟩,hunwrap,heq⟩ := Option.map_eq_some_iff.mp hout
    cases hdirective : (unwrapDirective answer.2 : Result (_ × List Nat)) with
    | error err =>
      rw [hdirective] at hunwrap
      cases hunwrap
    | ok unwrapped =>
      rw [hdirective] at hunwrap
      cases hunwrap
      obtain ⟨hoccupied,rfl⟩ := Prod.ext_iff.mp heq
      exact ⟨answer.1,.paused (.fresh (by decide)) rfl hcall hdirective hoccupied⟩

theorem twoPart_exports_rest : ∃ parent, twoPart.Pending parent [1] ∧ twoPart.Counted parent [1] ∧
    ∀ next ctx w parent' d budgets w', twoPart.loadSlot next = twoPart.loadSlot parent →
      twoPart.nodeWithSlot ctx next w = (⟨.ok (parent',d),budgets⟩,w') →
        ∃ result, twoPart.innerResult ctx next w = some result ∧ twoPart.ExportsNew [1] parent' d result := by
  obtain ⟨parent,hpending⟩ := pending_of_exports rfl (by decide +kernel : exportsOf firstPart = some (true,[1]))
  exact ⟨parent,hpending,Subgraph.subgraph_exports_once twoPart_compiles ⟨fun _ _ => rfl⟩ hpending⟩

-- the second part carries the other effect and empties the slot
example : firstPart.1.answer.toOption.bind (fun answer =>
    exportsOf (twoPart.nodeWithSlot ⟨[116],[115],∅⟩ answer.1 ())) = some (false,[2]) := by decide +kernel

end Example
end Flowy
