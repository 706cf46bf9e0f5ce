import Flowy.Child.Protocol

/-! What one session keeps: every launch loop either still sees the launchable children as they are,
or has lost its turn. Loops never wait for one another, so this is all that bounds how many
children run. -/
namespace Flowy

open Fencing
open scoped List

variable {J W : Type}

section Groups

variable [Sha256]

structure SoundGroup (identity : Text) (g : ChildGroupRecord) : Prop where
  address : identity = g.identity
  texts : validRuntimeText [g.parentID,g.node,g.plan.key] = true
  children : ∀ c ∈ g.children, validRuntimeText [c.spec.id] = true ∧
    c.executionID = childExecutionIdentity g.parentID g.node g.activation g.plan.key c.spec.id
  distinct : (g.children.map fun c => c.spec.id).Nodup
  reread : g.reread = g
  bounded : (runningChildren g : Int) ≤ g.plan.maxConcurrency

def SoundGroups (e : ExecutionEnvelope J ChildGroups W) : Prop :=
  ∀ identity g, e.children.get? identity = some g → SoundGroup identity g

omit [Sha256] in
theorem reread_reread_group (g : ChildGroupRecord) : g.reread.reread = g.reread := by
  simp only [ChildGroupRecord.reread,List.map_map]
  congr 1
  refine List.map_congr_left fun c _ => ?_
  simp [ChildRecord.reread,Utf8.coerce_of_valid (Utf8.valid_coerce c.error)]

omit [Sha256] in
theorem reread_of_group {g : ChildGroupRecord} (h : g.reread = g) {c : ChildRecord} (hc : c ∈ g.children) :
    c.reread = c := by
  have hmap : g.children.map ChildRecord.reread = g.children.map id := by
    rw [List.map_id]
    exact congrArg ChildGroupRecord.children h
  exact List.map_inj_left.mp hmap c hc

omit [Sha256] in
theorem ChildAdvance.reread {c c' : ChildRecord} (hr : c.reread = c) (h : ChildAdvance c c') :
    ChildAdvance c c'.reread := by
  have hsame : c' = c → c'.reread = c := fun heq => heq ▸ hr
  exact ⟨h.spec,h.executionID,h.launchable,h.running,h.newer.imp hsame id,fun hs => hsame (h.frozen hs),
    h.asked⟩

omit [Sha256] in
theorem GroupAdvance.reread {g g' : ChildGroupRecord} (hr : g.reread = g) (h : GroupAdvance g g') :
    GroupAdvance g g'.reread := by
  have hmem : ∀ c ∈ g.children, c.reread = c := fun c hc => reread_of_group hr hc
  refine { h with children := ?_, halted := fun hg => ?_ }
  · rw [ChildGroupRecord.reread,List.forall₂_map_right_iff]
    exact ((List.forall₂_and_left _ _).mpr ⟨hmem,h.children⟩).imp fun c c' hc => hc.2.reread hc.1
  · rw [ChildGroupRecord.reread,List.forall₂_map_right_iff]
    exact h.halted hg

theorem SoundGroup.advance {identity : Text} {g g' : ChildGroupRecord} (hg : SoundGroup identity g)
    (h : GroupAdvance g g') (hb : (runningChildren g' : Int) ≤ g.plan.maxConcurrency) :
    SoundGroup identity g'.reread := by
  have hr := h.reread hg.reread
  refine ⟨hg.address.trans hr.identity.symm,?_,?_,?_,reread_reread_group g',?_⟩
  · rw [hr.parentID,hr.node,hr.plan]
    exact hg.texts
  · intro c' hc'
    obtain ⟨c,hc,hadv⟩ := forall₂_mem_right hr.children hc'
    obtain ⟨htext,hid⟩ := hg.children c hc
    rw [hadv.spec,hadv.executionID,hr.parentID,hr.node,hr.activation,hr.plan]
    exact ⟨htext,hid⟩
  · rw [hr.ids]
    exact hg.distinct
  · rw [runningChildren_reread,hr.plan]
    exact hb

theorem SoundGroup.of_plan {g : ChildGroupRecord} {specs : List ChildSpec} (h : PlannedGroup g specs) :
    SoundGroup g.identity g.reread := by
  have hreread : g.reread = g := by
    rw [ChildGroupRecord.reread]
    congr 1
    rw [h.children,List.map_map]
    rfl
  have hrun : runningChildren g = 0 := by
    rw [runningChildren,h.children,List.countP_map]
    exact List.countP_eq_zero.mpr fun s _ => by simp [planChild]
  rw [hreread]
  refine ⟨rfl,h.texts,?_,?_,hreread,?_⟩
  · intro c hc
    rw [h.children] at hc
    obtain ⟨s,hs,rfl⟩ := List.mem_map.mp hc
    exact ⟨(h.ok.ids s hs).2.1,rfl⟩
  · rw [h.children,List.map_map]
    exact h.ok.distinct
  · rw [hrun]
    exact_mod_cast h.limit.le

theorem SoundGroups.mapValues {e : ExecutionEnvelope J ChildGroups W} (h : SoundGroups e) :
    e.children.mapValues ChildGroupRecord.reread = e.children :=
  GoMap.mapValues_eq_self fun identity g hg => (h identity g hg).reread

theorem SoundGroups.get?_putGroup {e : ExecutionEnvelope J ChildGroups W} (h : SoundGroups e)
    (identity identity' : Text) (g : ChildGroupRecord) :
    (e.putGroup identity g).children.get? identity' =
      if identity' = identity then some g.reread else e.children.get? identity' := by
  rw [Flowy.get?_putGroup]
  split
  · rfl
  · rw [← GoMap.get?_mapValues,h.mapValues]

theorem SoundGroups.put {e : ExecutionEnvelope J ChildGroups W} (h : SoundGroups e) {identity : Text}
    {g : ChildGroupRecord} (hg : SoundGroup identity g.reread) : SoundGroups (e.putGroup identity g) := by
  intro identity' g' hg'
  rw [h.get?_putGroup] at hg'
  split at hg'
  · rename_i heq
    cases hg'
    rwa [heq]
  · exact h identity' g' hg'

/-- How one committed envelope follows another: the runtime edits one group, or keeps them all. -/
inductive ChildStep (clock : Time → Bool) (e e' : ExecutionEnvelope J ChildGroups W) : Prop
  | commit (i : Nat) (identity : Text) (a : EditScope) (t : ExecutionEnvelope J ChildGroups W) (hi : 0 < i)
      (h : ChildOperation clock i e identity a t) (he : e' = { t with revision := e.revision + 1 })
  | keep (t : ExecutionEnvelope J ChildGroups W) (h : keepsChildGroups e t = true)
      (he : e' = { t with revision := e.revision + 1 })

structure GroupsLink (clock : Time → Bool) (e e' : ExecutionEnvelope J ChildGroups W) : Prop where
  step : ChildStep clock e e'
  sound : SoundGroups e'
  advance : ∀ identity g, e.children.get? identity = some g →
    ∃ g', e'.children.get? identity = some g' ∧ GroupAdvance g g'

def ChildLink (clock : Time → Bool) : Option (ExecutionEnvelope J ChildGroups W) →
    ExecutionEnvelope J ChildGroups W → Prop
  | none, e' => e'.revision = 1 ∧ createsNoGroups e' = true
  | some e, e' => GroupsLink clock e e'

def QuietCommit (e e' : ExecutionEnvelope J ChildGroups W) : Prop :=
  ∀ identity g, e.children.get? identity = some g →
    ∃ g', e'.children.get? identity = some g' ∧ LaunchQuiet g g'

variable {clock : Time → Bool} {i : Nat} {a : EditScope}
  {e e' : ExecutionEnvelope J ChildGroups W} {identity : Text} {g g' : ChildGroupRecord}

theorem SoundGroups.rel_put {Q : ChildGroupRecord → ChildGroupRecord → Prop} (h : SoundGroups e)
    (hrefl : ∀ g, Q g g) (hg : e.children.get? identity = some g) (hQ : Q g g'.reread) :
    ∀ identity' g0, e.children.get? identity' = some g0 →
      ∃ g1, (e.putGroup identity g').children.get? identity' = some g1 ∧ Q g0 g1 := by
  intro identity' g0 hg0
  rw [h.get?_putGroup]
  split
  · rename_i heq
    subst heq
    rw [hg] at hg0
    cases hg0
    exact ⟨_,rfl,hQ⟩
  · exact ⟨g0,hg0,hrefl g0⟩

theorem SoundGroups.advance_put (h : SoundGroups e) (hg : e.children.get? identity = some g)
    (hadv : GroupAdvance g g') (hb : (runningChildren g' : Int) ≤ g.plan.maxConcurrency) :
    SoundGroups (e.putGroup identity g') ∧ ∀ identity' g0, e.children.get? identity' = some g0 →
      ∃ g1, (e.putGroup identity g').children.get? identity' = some g1 ∧ GroupAdvance g0 g1 :=
  ⟨h.put ((h identity g hg).advance hadv hb),
    h.rel_put GroupAdvance.refl hg (hadv.reread (h identity g hg).reread)⟩

theorem SoundGroups.quiet_put (h : SoundGroups e) (hg : e.children.get? identity = some g)
    (hq : LaunchQuiet g g') : QuietCommit e (e.putGroup identity g') :=
  h.rel_put LaunchQuiet.refl hg hq.reread

omit [Sha256] in
theorem QuietCommit.stamp (h : QuietCommit e e') (n : Nat) : QuietCommit e { e' with revision := n } := h

theorem ChildOperation.link_of_sound (hi : 0 < i) (h : ChildOperation clock i e identity a e')
    (hs : SoundGroups e' ∧ ∀ identity g, e.children.get? identity = some g →
      ∃ g', e'.children.get? identity = some g' ∧ GroupAdvance g g') :
    GroupsLink clock e { e' with revision := e.revision + 1 } :=
  ⟨.commit i identity a e' hi h rfl,hs.1,hs.2⟩

theorem GroupCommit.rel {Q : ChildGroupRecord → ChildGroupRecord → Prop} (hs : SoundGroups e)
    (hrefl : ∀ g, Q g g) (h : GroupCommit clock i e identity a e')
    (hedit : ∀ g g', e.children.get? identity = some g → GroupEdit clock i e g a g' → Q g g'.reread) :
    ∀ identity' g0, e.children.get? identity' = some g0 →
      ∃ g1, e'.children.get? identity' = some g1 ∧ Q g0 g1 := by
  cases h with
  | edit identity g g' a hg h hm => exact hs.rel_put hrefl hg (hedit g g' hg h)
  | plan g plan available hnone hbound hplan hledger hm =>
    intro identity' g0 hg0
    refine ⟨g0,?_,hrefl g0⟩
    rw [hs.get?_putGroup,if_neg]
    · exact hg0
    · rintro rfl
      rw [hnone] at hg0
      cases hg0

theorem ChildOperation.advance (hs : SoundGroups e) (h : ChildOperation clock i e identity a e') :
    ∀ identity g, e.children.get? identity = some g →
      ∃ g', e'.children.get? identity = some g' ∧ GroupAdvance g g' :=
  h.commit.rel hs GroupAdvance.refl fun _ _ hg hedit =>
    (hedit.advance (hs _ _ hg).distinct).reread (hs _ _ hg).reread

theorem ChildOperation.quiet (hs : SoundGroups e) (h : ChildOperation clock i e identity a e')
    (ha : ∀ id, a ≠ .launch id) : QuietCommit e e' :=
  h.commit.rel hs LaunchQuiet.refl fun _ _ hg hedit => (hedit.quiet (hs _ _ hg).distinct ha).1.reread

theorem ChildOperation.link (hi : 0 < i) (hs : SoundGroups e) (h : ChildOperation clock i e identity a e')
    (ha : ∀ id, a ≠ .launch id) : GroupsLink clock e { e' with revision := e.revision + 1 } := by
  refine h.link_of_sound hi ⟨?_,h.advance hs⟩
  cases h.commit with
  | edit identity g g' a hg hedit hm =>
    have hd := (hs _ g hg).distinct
    have hb : (runningChildren g' : Int) ≤ g.plan.maxConcurrency :=
      le_trans (by exact_mod_cast (hedit.quiet hd ha).2) (hs _ g hg).bounded
    exact (hs.advance_put hg (hedit.advance hd) hb).1
  | plan g plan available hnone hbound hplan hledger hm =>
    obtain ⟨-,specs,hspecs⟩ := planChildGroup_eq_ok hplan
    exact hs.put (SoundGroup.of_plan hspecs)

theorem keepsChildGroups_children (h : keepsChildGroups e e' = true) : e'.children = e.children := by
  simp only [keepsChildGroups,Bool.and_eq_true,decide_eq_true_eq] at h
  exact h.1.1

end Groups
end Flowy
