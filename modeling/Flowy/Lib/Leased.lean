import Mathlib.Logic.Function.Basic
import Mathlib.Data.List.Basic
import Mathlib.Algebra.GroupWithZero.Nat

/-! Histories written under leases. Each name has a fence that counts acquisitions, at most one
lease, a head revision, and the payloads kept so far. Clocks are arbitrary: a step compares its own
reading with a stored expiry. -/
namespace Flowy.Leased

variable {I O T P : Type*}

structure Lease (O T : Type*) where
  owner : O
  incarnation : Nat
  expiry : T

@[ext] structure State (I O T P : Type*) where
  fence : I → Nat
  lease : I → Option (Lease O T)
  head : I → Nat
  history : I → Nat → Option P

def State.initial : State I O T P := ⟨fun _ => 0,fun _ => none,fun _ => 0,fun _ _ => none⟩

/-- `refused` is any operation without effect. -/
inductive Event (I O : Type*)
  | acquired (id : I) (owner : O) (incarnation : Nat)
  | renewed (id : I) (owner : O) (incarnation : Nat)
  | released (id : I) (owner : O) (incarnation : Nat)
  | committed (id : I) (owner : O) (incarnation : Nat)
  | transferred (id : I) (owner : O) (incarnation : Nat) (target : I)
  | retained (id : I)
  | refused

def Event.writer : Event I O → Option (I × O × Nat)
  | .renewed id o n | .committed id o n | .transferred id o n _ => some (id,o,n)
  | .acquired _ _ _ | .released _ _ _ | .retained _ | .refused => none

variable [DecidableEq I]

def setHistory (h : I → Nat → Option P) (id : I) (r : Nat) (p : P) : I → Nat → Option P :=
  Function.update h id (Function.update (h id) r (some p))

/-- `now` is the reading a step compares with. -/
inductive Step [LT T] (now : T) (s : State I O T P) : Event I O → State I O T P → Prop
  | acquire (id : I) (o : O) (expiry : T) (free : ∀ l, s.lease id = some l → ¬ now < l.expiry) :
      Step now s (.acquired id o (s.fence id + 1)) { s with
        fence := Function.update s.fence id (s.fence id + 1)
        lease := Function.update s.lease id (some ⟨o,s.fence id + 1,expiry⟩) }
  | renew (id : I) (l : Lease O T) (expiry : T) (held : s.lease id = some l)
      (live : now < l.expiry) :
      Step now s (.renewed id l.owner l.incarnation) { s with
        lease := Function.update s.lease id (some { l with expiry := expiry }) }
  | release (id : I) (o : O) (n : Nat)
      (own : ∀ l, s.lease id = some l → l.owner = o ∧ l.incarnation = n) :
      Step now s (.released id o n) { s with lease := Function.update s.lease id none }
  | commit (id : I) (l : Lease O T) (p : P) (held : s.lease id = some l)
      (live : now < l.expiry) :
      Step now s (.committed id l.owner l.incarnation) { s with
        head := Function.update s.head id (s.head id + 1)
        history := setHistory s.history id (s.head id + 1) p }
  | transfer (id target : I) (l : Lease O T) (p q : P) (held : s.lease id = some l)
      (live : now < l.expiry) (apart : target ≠ id) (unused : s.head target = 0) :
      Step now s (.transferred id l.owner l.incarnation target) { s with
        head := Function.update (Function.update s.head id (s.head id + 1)) target 1
        history := setHistory (setHistory s.history id (s.head id + 1) p) target 1 q }
  | retain (id : I) (keep : Nat → Bool) :
      Step now s (.retained id) { s with
        history := Function.update s.history id fun r => if keep r then s.history id r else none }
  | refuse : Step now s .refused s

inductive Run [LT T] : List (Event I O) → State I O T P → Prop
  | init : Run [] State.initial
  | step {tr : List (Event I O)} {now : T} {s s' : State I O T P} {e : Event I O} :
      Run tr s → Step now s e s' → Run (tr ++ [e]) s'

def Event.passes (id : I) (h : Option (O × Nat)) : Event I O → Option (O × Nat)
  | .acquired id' o n => if id' = id then some (o,n) else h
  | .released id' _ _ => if id' = id then none else h
  | .renewed _ _ _ | .committed _ _ _ | .transferred _ _ _ _ | .retained _ | .refused => h

def Event.grants (id : I) : Event I O → List Nat
  | .acquired id' _ n => if id' = id then [n] else []
  | .renewed _ _ _ | .released _ _ _ | .committed _ _ _ | .transferred _ _ _ _ | .retained _
  | .refused => []

def Event.writesTo (id : I) : Event I O → Nat
  | .committed id' _ _ => if id' = id then 1 else 0
  | .transferred id' _ _ target => if id' = id ∨ target = id then 1 else 0
  | .acquired _ _ _ | .renewed _ _ _ | .released _ _ _ | .retained _ | .refused => 0

def holder (tr : List (Event I O)) (id : I) : Option (O × Nat) := tr.foldl (Event.passes id) none

def granted (tr : List (Event I O)) (id : I) : List Nat := tr.flatMap (Event.grants id)

def writes (tr : List (Event I O)) (id : I) : Nat := (tr.map (Event.writesTo id)).sum

structure Traced (tr : List (Event I O)) (s : State I O T P) : Prop where
  /-- The lease is the latest acquisition that was not released. -/
  lease : ∀ id, (s.lease id).map (fun l => (l.owner,l.incarnation)) = holder tr id
  current : ∀ id l, s.lease id = some l → l.incarnation = s.fence id
  granted : ∀ id, granted tr id = List.range' 1 (s.fence id)
  stored : ∀ id r p, s.history id r = some p → 0 < r ∧ r ≤ s.head id
  head : ∀ id, s.head id = writes tr id

section Steps

variable [LT T] {tr : List (Event I O)} {now : T} {s s' : State I O T P} {e : Event I O}

theorem Step.lease_names (h : Step now s e s') (id : I) :
    (s'.lease id).map (fun l => (l.owner,l.incarnation)) =
      e.passes id ((s.lease id).map fun l => (l.owner,l.incarnation)) := by
  cases h with
  | acquire id' =>
    by_cases hid : id' = id
    · subst hid
      simp [Event.passes]
    · simp [Event.passes,hid,Function.update_of_ne (Ne.symm hid)]
  | release id' =>
    by_cases hid : id' = id
    · subst hid
      simp [Event.passes]
    · simp [Event.passes,hid,Function.update_of_ne (Ne.symm hid)]
  | renew id' l expiry held live =>
    by_cases hid : id = id'
    · subst hid
      simp [Event.passes,held]
    · simp [Event.passes,Function.update_of_ne hid]
  | commit | transfer | retain | refuse => rfl

theorem Step.fence_eq (h : Step now s e s') (id : I) :
    s'.fence id = s.fence id + (e.grants id).length := by
  cases h with
  | acquire id' =>
    by_cases hid : id' = id
    · subst hid
      simp [Event.grants]
    · simp [Event.grants,hid,Function.update_of_ne (Ne.symm hid)]
  | renew | release | commit | transfer | retain | refuse => rfl

theorem Step.current (h : Step now s e s') (hc : ∀ id l, s.lease id = some l → l.incarnation = s.fence id)
    (id : I) (l : Lease O T) (hl : s'.lease id = some l) : l.incarnation = s'.fence id := by
  cases h with
  | acquire id' =>
    by_cases hid : id = id'
    · subst hid
      simp only [Function.update_self,Option.some.injEq] at hl ⊢
      rw [← hl]
    · simp only [Function.update_of_ne hid] at hl ⊢
      exact hc id l hl
  | renew id' l' expiry held live =>
    by_cases hid : id = id'
    · subst hid
      simp only [Function.update_self,Option.some.injEq] at hl
      rw [← hl]
      exact hc id l' held
    · simp only [Function.update_of_ne hid] at hl
      exact hc id l hl
  | release id' =>
    by_cases hid : id = id'
    · subst hid
      simp at hl
    · simp only [Function.update_of_ne hid] at hl
      exact hc id l hl
  | commit | transfer | retain | refuse => exact hc id l hl

theorem Step.head_eq (h : Step now s e s') (id : I) :
    s'.head id = s.head id + e.writesTo id := by
  cases h with
  | commit id' =>
    by_cases hid : id' = id
    · subst hid
      simp [Event.writesTo]
    · simp [Event.writesTo,hid,Function.update_of_ne (Ne.symm hid)]
  | transfer id' target l p q held live apart unused =>
    by_cases ht : target = id
    · subst ht
      simp [Event.writesTo,unused]
    · by_cases hid : id' = id
      · subst hid
        simp [Event.writesTo,Function.update_of_ne (Ne.symm ht)]
      · simp [Event.writesTo,ht,hid,Function.update_of_ne (Ne.symm ht),Function.update_of_ne (Ne.symm hid)]
  | acquire | renew | release | retain | refuse => rfl

theorem setHistory_eq_some {h : I → Nat → Option P} {id id' : I} {r r' : Nat} {p p' : P}
    (hs : setHistory h id r p id' r' = some p') :
    (id' = id ∧ r' = r ∧ p' = p) ∨ (h id' r' = some p') := by
  unfold setHistory at hs
  by_cases hid : id' = id
  · subst hid
    rw [Function.update_self] at hs
    by_cases hr : r' = r
    · subst hr
      rw [Function.update_self] at hs
      exact .inl ⟨rfl,rfl,(Option.some.inj hs).symm⟩
    · rw [Function.update_of_ne hr] at hs
      exact .inr hs
  · rw [Function.update_of_ne hid] at hs
    exact .inr hs

theorem setHistory_of_ne {h : I → Nat → Option P} {id id' : I} {r r' : Nat} (p : P)
    (hne : id' = id → r' ≠ r) : setHistory h id r p id' r' = h id' r' := by
  unfold setHistory
  by_cases hid : id' = id
  · subst hid
    rw [Function.update_self,Function.update_of_ne (hne rfl)]
  · rw [Function.update_of_ne hid]

theorem Step.stored (h : Step now s e s')
    (hs : ∀ id r p, s.history id r = some p → 0 < r ∧ r ≤ s.head id) (id : I) (r : Nat) (p : P)
    (hp : s'.history id r = some p) : 0 < r ∧ r ≤ s'.head id := by
  have hle : s.head id ≤ s'.head id := by
    rw [h.head_eq id]
    exact Nat.le_add_right _ _
  have hold : s.history id r = some p → 0 < r ∧ r ≤ s'.head id := fun hp =>
    ⟨(hs id r p hp).1,Nat.le_trans (hs id r p hp).2 hle⟩
  cases h with
  | commit id' l q held live =>
    rcases setHistory_eq_some hp with ⟨rfl,rfl,-⟩ | hp
    · simp
    · exact hold hp
  | transfer id' target l q q' held live apart unused =>
    rcases setHistory_eq_some hp with ⟨rfl,rfl,-⟩ | hp
    · simp
    · rcases setHistory_eq_some hp with ⟨rfl,rfl,-⟩ | hp
      · simp [Function.update_of_ne (Ne.symm apart)]
      · exact hold hp
  | retain id' keep =>
    by_cases hid : id = id'
    · subst hid
      simp only [Function.update_self] at hp
      split at hp
      · exact hs id r p hp
      · cases hp
    · simp only [Function.update_of_ne hid] at hp
      exact hs id r p hp
  | acquire | renew | release | refuse => exact hold hp

theorem Step.grants_eq (h : Step now s e s') (id : I) :
    e.grants id = List.range' (1 + s.fence id) (s'.fence id - s.fence id) := by
  rw [h.fence_eq id,Nat.add_sub_cancel_left]
  cases h with
  | acquire id' =>
    by_cases hid : id' = id
    · subst hid
      simp [Event.grants,Nat.add_comm]
    · simp [Event.grants,hid]
  | renew | release | commit | transfer | retain | refuse => rfl

theorem Traced.step (ht : Traced tr s) (h : Step now s e s') : Traced (tr ++ [e]) s' := by
  refine ⟨?_,h.current ht.current,?_,h.stored ht.stored,?_⟩
  · intro id
    rw [h.lease_names id,ht.lease id]
    simp [holder]
  · intro id
    have hle : s.fence id ≤ s'.fence id := by
      rw [h.fence_eq id]
      exact Nat.le_add_right _ _
    have hprev : tr.flatMap (Event.grants id) = List.range' 1 (s.fence id) := ht.granted id
    simp only [Leased.granted,List.flatMap_append,List.flatMap_cons,List.flatMap_nil,List.append_nil,hprev,
      h.grants_eq id]
    rw [List.range'_append_1,Nat.add_sub_cancel' hle]
  · intro id
    rw [h.head_eq id,ht.head id]
    simp [writes]

theorem Run.traced (h : Run tr s) : Traced tr s := by
  induction h with
  | init => exact ⟨fun _ => rfl,by simp [State.initial],fun _ => rfl,by simp [State.initial],fun _ => rfl⟩
  | step _ hst ih => exact ih.step hst

/-- No step writes below a head: a revision already reached keeps its payload, or loses it when
its name is retained. -/
theorem Step.history (h : Step now s e s') {id : I} {r : Nat} (hr : 0 < r ∧ r ≤ s.head id) :
    s'.history id r = s.history id r ∨ (s'.history id r = none ∧ e = .retained id) := by
  cases h with
  | commit id' l q held live =>
    refine .inl (setHistory_of_ne q fun heq => ?_)
    subst heq
    omega
  | transfer id' target l q q' held live apart unused =>
    refine .inl ((setHistory_of_ne q' fun heq => ?_).trans (setHistory_of_ne q fun heq => ?_))
    · subst heq
      omega
    · subst heq
      omega
  | retain id' keep =>
    by_cases hid : id = id'
    · subst hid
      by_cases hk : keep r
      · exact .inl (by simp [hk])
      · exact .inr ⟨by simp [hk],rfl⟩
    · exact .inl (congrFun (Function.update_of_ne hid _ _) r)
  | acquire | renew | release | refuse => exact .inl rfl

theorem Step.writer_holds (ht : Traced tr s) (h : Step now s e s') {id : I} {o : O} {n : Nat}
    (hw : e.writer = some (id,o,n)) :
    holder tr id = some (o,n) ∧ n = s.fence id ∧
      ∃ l, s.lease id = some l ∧ l.owner = o ∧ l.incarnation = n ∧ now < l.expiry := by
  have hheld : ∀ l : Lease O T, s.lease id = some l → now < l.expiry → l.owner = o →
      l.incarnation = n → holder tr id = some (o,n) ∧ n = s.fence id ∧
        ∃ l, s.lease id = some l ∧ l.owner = o ∧ l.incarnation = n ∧ now < l.expiry := by
    intro l hl hlive ho hn
    have hnames := ht.lease id
    rw [hl,Option.map_some,ho,hn] at hnames
    exact ⟨hnames.symm,hn ▸ ht.current id l hl,l,hl,ho,hn,hlive⟩
  cases h with
  | renew id' l expiry held live =>
    cases hw
    exact hheld l held live rfl rfl
  | commit id' l p held live =>
    cases hw
    exact hheld l held live rfl rfl
  | transfer id' target l p q held live apart unused =>
    cases hw
    exact hheld l held live rfl rfl
  | acquire | release | retain | refuse => cases hw

theorem Step.refused (h : Step now s .refused s') : s' = s := by
  cases h
  rfl

theorem Step.release_stale (ht : Traced tr s) {id : I} {o : O} {n : Nat}
    (h : Step now s (.released id o n) s') (hn : n ≠ s.fence id) : s' = s := by
  cases h with
  | release _ _ _ own =>
    have hnone : s.lease id = none := by
      cases hl : s.lease id with
      | none => rfl
      | some l =>
        have hcur := ht.current id l hl
        exact absurd ((own l hl).2.symm.trans hcur) hn
    exact State.ext rfl (by rw [← hnone,Function.update_eq_self]) rfl rfl

end Steps
end Flowy.Leased
