import Flowy.Child.AtMostOnce

/-! The committed history of a child group: records only get newer, settled ones stay, and an
operation on one child leaves its siblings alone. -/
namespace Flowy

open Fencing

theorem forall₂_trans {α : Type} {R : α → α → Prop} (ht : ∀ a b c, R a b → R b c → R a c) {xs ys zs : List α}
    (h : List.Forall₂ R xs ys) (h' : List.Forall₂ R ys zs) : List.Forall₂ R xs zs := by
  induction h generalizing zs with
  | nil => exact h'
  | cons hr hrs ih =>
    cases h' with
    | cons hr' hrs' => exact .cons (ht _ _ _ hr hr') (ih hrs')

theorem ChildAdvance.trans {c c' c'' : ChildRecord} (h : ChildAdvance c c') (h' : ChildAdvance c' c'') :
    ChildAdvance c c'' := by
  refine ⟨h'.spec.trans h.spec,h'.executionID.trans h.executionID,fun hl => h.launchable (h'.launchable hl),
    fun hr => (h'.running hr).elim h.running fun hl => .inr (h.launchable hl),?_,fun hs => ?_,
    fun ha => h'.asked (h.asked ha)⟩
  · rcases h.newer with rfl | hlt
    · exact h'.newer
    · rcases h'.newer with rfl | hlt'
      · exact .inr hlt
      · exact .inr (hlt.trans hlt')
  · obtain rfl := h.frozen hs
    exact h'.frozen hs

theorem GroupAdvance.trans {g g' g'' : ChildGroupRecord} (h : GroupAdvance g g') (h' : GroupAdvance g' g'') :
    GroupAdvance g g'' := by
  refine ⟨h'.parentID.trans h.parentID,h'.node.trans h.node,h'.activation.trans h.activation,
    h'.plan.trans h.plan,h'.capacity.trans h.capacity,
    forall₂_trans (R := ChildAdvance) (fun _ _ _ h1 h2 => h1.trans h2) h.children h'.children,
    fun hg => h'.requested (h.requested hg),fun r hr => h'.request r (h.request r hr),fun hg => ?_,
    fun id r hr => h'.returns id r (h.returns id r hr)⟩
  refine forall₂_trans (fun c c' c'' h1 h2 hs => ?_) (h.halted hg) (h'.halted (h.requested hg))
  have h2' := h2 hs
  exact h2'.trans (h1 (h2' ▸ hs))

def KeepsGroups {J W : Type} (e e' : ExecutionEnvelope J ChildGroups W) : Prop :=
  ∀ identity g, e.children.get? identity = some g →
    ∃ g', e'.children.get? identity = some g' ∧ GroupAdvance g g'

section Runs

variable {J W : Type} [Sha256] {clock : Time → Bool}

theorem childGroups_keep {s : State (ExecutionEnvelope J ChildGroups W) Launches (Ticket Text)}
    (h : Reachable (childProtocol J W clock) s) {k n : Nat} {e e' : ExecutionEnvelope J ChildGroups W}
    (hle : k ≤ n) (hk : s.log[k]? = some e) (hn : s.log[n]? = some e') : KeepsGroups e e' := by
  rcases Nat.lt_or_ge k n with hlt | hge
  · refine (childRule.reachable h).linked.trans (T := KeepsGroups) (fun _ _ hR => hR.advance) ?_ hk hn hlt
    intro e e' e'' h1 h2 identity g hg
    obtain ⟨g',hg',hadv⟩ := h1 identity g hg
    obtain ⟨g'',hg'',hadv'⟩ := h2 identity g' hg'
    exact ⟨g'',hg'',hadv.trans hadv'⟩
  · obtain rfl : k = n := by omega
    rw [hk] at hn
    cases hn
    exact fun identity g hg => ⟨g,hg,.refl g⟩

theorem ChildOperation.frame {i : Nat} {e t : ExecutionEnvelope J ChildGroups W} {identity id : Text}
    {a : EditScope} (hs : SoundGroups e) (h : ChildOperation clock i e identity a t)
    (ha : a = .child id ∨ a = .launch id) {identity' : Text} {g : ChildGroupRecord}
    (hg : e.children.get? identity' = some g) :
    ∃ g', t.children.get? identity' = some g' ∧ List.Forall₂ (fun c c' =>
      (identity' = identity → c.spec.id ≠ id) → c' = c) g.children g'.children := by
  cases h.commit with
  | plan g plan available hnone hbound hplan hledger hm => simp at ha
  | edit identity g0 g' a hg0 hedit hm =>
    rw [hs.get?_putGroup]
    split
    · rename_i heq
      subst heq
      rw [hg] at hg0
      cases hg0
      have hsound := hs _ g hg
      refine ⟨_,rfl,?_⟩
      rw [ChildGroupRecord.reread,List.forall₂_map_right_iff]
      refine ((List.forall₂_and_left _ _).mpr ⟨fun c hc => reread_of_group hsound.reread hc,
        hedit.frame hsound.distinct ha⟩).imp fun c c' hc hne => ?_
      rw [hc.2 (hne rfl)]
      exact hc.1
    · exact ⟨g,hg,List.forall₂_same.mpr fun _ _ _ => rfl⟩

end Runs

section Example

attribute [local instance] Sha256.hex

end Example
end Flowy
