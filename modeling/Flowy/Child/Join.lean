import Flowy.Child.History
import Flowy.Child.PlanOrder

/-! `joinChildren` as it interleaves with the other commits of its session: the first section reads
the group, the merge runs without the mutex, and the second section publishes its result. -/
namespace Flowy

open Fencing
open scoped List

section Sections

variable [Sha256] {J W : Type}

structure JoinRead where
  revision : Nat
  groups : ChildGroups
  expected : ChildGroupRecord
  group : ChildGroupRecord

/-- The first section: the stored result of a merged group, or what the merge is called with. -/
def openJoin (envelope : ExecutionEnvelope J ChildGroups W) (expected : ChildGroupRecord) :
    Result (Bytes ⊕ JoinRead) := do
  require (validChildGroupText expected) .childInvalid
  let groups ← (executionChildGroups envelope).mapError (.join (.of .childRevision))
  let group ← assertedChildGroup envelope groups expected
  if group.mergedIDs.length = group.children.length then .ok (.inl group.mergedResult)
  else
    require (group.children.all settledChild) .childrenUnresolved
    .ok (.inr ⟨envelope.revision,groups,expected,group⟩)

/-- The second section, on the envelope that is cached by then. -/
def publishJoin (envelope : ExecutionEnvelope J ChildGroups W) (read : JoinRead) (result : Bytes) :
    Result (ExecutionEnvelope J ChildGroups W) := do
  require (envelope.revision == read.revision) .childMergeConflict
  persistChildGroups envelope (read.groups.set read.expected.identity { read.group with
    mergedIDs := read.group.children.map fun child => child.spec.id, mergedResult := result })

theorem joinChildren_sections (e : ExecutionEnvelope J ChildGroups W) (expected : ChildGroupRecord)
    (merge : List ChildRecord → Result Bytes) : joinChildren e expected merge = (do
      match ← openJoin e expected with
      | .inl result => .ok (result,none)
      | .inr read =>
        let result ← (merge read.group.children).mapError (.join (.of .childMergeConflict))
        let target ← publishJoin e read result
        .ok (result,some target)) := by
  unfold joinChildren openJoin
  cases require (validChildGroupText expected) .childInvalid with
  | error err => rfl
  | ok =>
    cases (executionChildGroups e).mapError (Err.join (.of .childRevision)) with
    | error err => rfl
    | ok groups =>
      simp only [bind,Except.bind]
      cases assertedChildGroup e groups expected with
      | error err => rfl
      | ok group =>
        simp only
        split
        · rfl
        · cases require (group.children.all settledChild) .childrenUnresolved with
          | error err => rfl
          | ok => simp [publishJoin,require,bind,Except.bind]

structure ReadsJoin (e : ExecutionEnvelope J ChildGroups W) (read : JoinRead) : Prop where
  revision : read.revision = e.revision
  groups : read.groups = e.children
  group : e.children.get? read.expected.identity = some read.group
  asserted : childGroupEncoding read.group = childGroupEncoding read.expected
  unmerged : read.group.unmerged = true
  settled : ∀ c ∈ read.group.children, settledChild c = true
  admitted : AdmittedGroups e

theorem openJoin_group {e : ExecutionEnvelope J ChildGroups W} {expected : ChildGroupRecord}
    {answer : Bytes ⊕ JoinRead} (h : openJoin e expected = .ok answer) :
    AdmittedGroups e ∧ ∃ g, e.children.get? expected.identity = some g ∧
      childGroupEncoding g = childGroupEncoding expected ∧
      ((g.unmerged = false ∧ answer = .inl g.mergedResult) ∨
        (g.unmerged = true ∧ (∀ c ∈ g.children, settledChild c = true) ∧
          answer = .inr ⟨e.revision,e.children,expected,g⟩)) := by
  simp only [openJoin,bind_eq_ok,mapError_eq_ok] at h
  obtain ⟨-,-,groups,hgroups,g,hg,h⟩ := h
  obtain ⟨rfl,hadm⟩ := executionChildGroups_eq_ok hgroups
  refine ⟨hadm,g,(assertedChildGroup_eq_ok hg).1,?_,?_⟩
  · unfold assertedChildGroup at hg
    split at hg
    · cases hg
    · simp only [bind_eq_ok,require_eq_ok,exists_const,Bool.and_eq_true,beq_iff_eq] at hg
      obtain ⟨⟨-,henc⟩,hg⟩ := hg
      cases hg
      exact henc
  · split at h
    · rename_i hlen
      cases h
      exact .inl ⟨by simpa [ChildGroupRecord.unmerged] using hlen,rfl⟩
    · rename_i hlen
      simp only [bind_eq_ok,require_eq_ok,exists_const] at h
      obtain ⟨hs,h⟩ := h
      cases h
      exact .inr ⟨by simpa [ChildGroupRecord.unmerged] using hlen,List.all_eq_true.mp hs,rfl⟩

theorem openJoin_reads {e : ExecutionEnvelope J ChildGroups W} {expected : ChildGroupRecord}
    {read : JoinRead} (h : openJoin e expected = .ok (.inr read)) :
    read.expected = expected ∧ ReadsJoin e read := by
  obtain ⟨hadm,g,hg,henc,⟨-,heq⟩ | ⟨hm,hs,heq⟩⟩ := openJoin_group h
  · cases heq
  · cases heq
    exact ⟨rfl,rfl,rfl,hg,henc,hm,hs,hadm⟩

theorem openJoin_replays {e : ExecutionEnvelope J ChildGroups W} {expected : ChildGroupRecord}
    {result : Bytes} (h : openJoin e expected = .ok (.inl result)) :
    AdmittedGroups e ∧ ∃ g, e.children.get? expected.identity = some g ∧ g.unmerged = false ∧
      g.mergedResult = result := by
  obtain ⟨hadm,g,hg,-,⟨hm,heq⟩ | ⟨-,-,heq⟩⟩ := openJoin_group h
  · cases heq
    exact ⟨hadm,g,hg,hm,rfl⟩
  · cases heq

theorem publishJoin_operation {clock : Time → Bool} {i : Nat} {e t : ExecutionEnvelope J ChildGroups W}
    {read : JoinRead} {result : Bytes} (hread : openJoin e read.expected = .ok (.inr read))
    (h : publishJoin e read result = .ok t) :
    ChildOperation clock i e read.expected.identity .group t := by
  refine .join read.expected (fun _ => .ok result) result t ?_
  rw [joinChildren_sections,hread]
  simp only [bind,Except.bind,Except.mapError,h]

theorem publishJoin_eq_ok {e t : ExecutionEnvelope J ChildGroups W} {read : JoinRead} {result : Bytes}
    (h : publishJoin e read result = .ok t) : e.revision = read.revision := by
  simp only [publishJoin,bind_eq_ok,require_eq_ok,beq_iff_eq,exists_const] at h
  exact h.1

theorem publishJoin_target {e t : ExecutionEnvelope J ChildGroups W} {read : JoinRead} {result : Bytes}
    (hread : ReadsJoin e read) (h : publishJoin e read result = .ok t) :
    t = e.putGroup read.expected.identity { read.group with
      mergedIDs := read.group.children.map fun c => c.spec.id, mergedResult := result } := by
  simp only [publishJoin,bind_eq_ok,require_eq_ok,exists_const,hread.groups] at h
  exact (persistChildGroups_eq_ok.mp h.2).2

end Sections

section Merged

variable [Sha256] {J W : Type} {clock : Time → Bool} {i : Nat} {e t : ExecutionEnvelope J ChildGroups W}
  {g g' : ChildGroupRecord} {a : EditScope} {identity : Text}

structure JoinOk (g : ChildGroupRecord) : Prop where
  ids : g.mergedIDs ≠ [] → g.mergedIDs = g.children.map fun c => c.spec.id
  settled : g.mergedIDs ≠ [] → ∀ c ∈ g.children, settledChild c = true

structure SameJoin (g g' : ChildGroupRecord) : Prop where
  ids : g'.mergedIDs = g.mergedIDs
  result : g'.mergedResult = g.mergedResult
  children : g'.children = g.children

omit [Sha256] in
theorem SameJoin.refl (g : ChildGroupRecord) : SameJoin g g := ⟨rfl,rfl,rfl⟩

omit [Sha256] in
theorem SameJoin.trans {g'' : ChildGroupRecord} (h : SameJoin g g') (h' : SameJoin g' g'') : SameJoin g g'' :=
  ⟨h'.ids.trans h.ids,h'.result.trans h.result,h'.children.trans h.children⟩

omit [Sha256] in
theorem JoinOk.of_unmerged (h : g.mergedIDs = []) : JoinOk g := ⟨fun hne => absurd h hne,fun hne => absurd h hne⟩

omit [Sha256] in
theorem JoinOk.reread (h : JoinOk g) : JoinOk g.reread := by
  refine ⟨fun hne => ?_,fun hne c' hc' => ?_⟩
  · have hids : g.mergedIDs = _ := h.ids hne
    simp only [ChildGroupRecord.reread,List.map_map]
    exact hids
  · obtain ⟨c,hc,rfl⟩ := List.mem_map.mp hc'
    exact h.settled hne c hc

theorem GroupEdit.merged_cases (h : GroupEdit clock i e g a g') :
    (g'.mergedIDs = g.mergedIDs ∧ g'.mergedResult = g.mergedResult) ∨
      (a = .group ∧ g.unmerged = true ∧ (∀ c ∈ g.children, settledChild c = true) ∧
        g'.mergedIDs = g.children.map (fun c => c.spec.id) ∧ g'.children = g.children) := by
  cases h with
  | join result hm hs => exact .inr ⟨rfl,hm,hs,rfl,rfl⟩
  | queue | start | recover | finish | cancel | credit | decide => exact .inl ⟨rfl,rfl⟩

theorem GroupEdit.same (h : GroupEdit clock i e g a g') (hok : JoinOk g) (hne : g.mergedIDs ≠ []) :
    SameJoin g g' := by
  have hsettled := hok.settled hne
  have hopen : ∀ c ∈ g.children, c.state = .planned ∨ c.state = .queued ∨ c.state = .running → False := by
    intro c hc hs
    have := hsettled c hc
    rcases hs with hs | hs | hs <;> simp [settledChild,hs] at this
  cases h with
  | queue c hc hg hs => exact (hopen c hc (.inl hs)).elim
  | start c hc hg hs => exact (hopen c hc (.inr (.inl hs))).elim
  | recover children hr hall =>
    obtain ⟨c,hc,hs⟩ := hr
    exact (hopen c hc (.inr (.inr hs))).elim
  | finish c hc result hs => exact (hopen c hc (.inr (.inr hs))).elim
  | join result hm hs =>
    rw [ChildGroupRecord.unmerged,hok.ids hne] at hm
    simp at hm
  | cancel request now children hnow hcheck hm => exact absurd hm hne
  | credit => exact ⟨rfl,rfl,rfl⟩
  | decide c c' hc hm => exact absurd hm hne

theorem GroupEdit.joinOk (h : GroupEdit clock i e g a g') (hok : JoinOk g) : JoinOk g' := by
  rcases h.merged_cases with ⟨hids,-⟩ | ⟨-,-,hs,hids,hchildren⟩
  · by_cases hne : g.mergedIDs = []
    · exact .of_unmerged (hids.trans hne)
    · have hsame := h.same hok hne
      refine ⟨fun _ => ?_,fun _ => ?_⟩
      · rw [hsame.ids,hsame.children]
        exact hok.ids hne
      · rw [hsame.children]
        exact hok.settled hne
  · refine ⟨fun _ => ?_,fun _ => ?_⟩
    · rw [hids,hchildren]
    · rw [hchildren]
      exact hs

def JoinsOk (e : ExecutionEnvelope J ChildGroups W) : Prop :=
  ∀ identity g, e.children.get? identity = some g → JoinOk g

theorem JoinsOk.put (hs : SoundGroups e) (h : JoinsOk e) (hg : JoinOk g) : JoinsOk (e.putGroup identity g) := by
  intro identity' g' hg'
  rw [hs.get?_putGroup] at hg'
  split at hg'
  · cases hg'
    exact hg.reread
  · exact h identity' g' hg'

theorem ChildStep.joinsOk {e' : ExecutionEnvelope J ChildGroups W} (hs : SoundGroups e) (h : JoinsOk e)
    (hstep : ChildStep clock e e') : JoinsOk e' := by
  cases hstep with
  | keep t hk he =>
    rw [he]
    intro identity g hg
    exact h identity g (keepsChildGroups_children hk ▸ hg)
  | commit i identity a t hi hop he =>
    rw [he]
    change JoinsOk t
    cases hop.commit with
    | edit identity g g' a hg hedit hm => exact h.put hs (hedit.joinOk (h identity g hg))
    | plan g plan available hnone hbound hplan hledger hm =>
      obtain ⟨-,specs,hspecs⟩ := planChildGroup_eq_ok hplan
      exact h.put hs (.of_unmerged hspecs.unjoined.1)

theorem ChildStep.sameJoin {e' : ExecutionEnvelope J ChildGroups W} (hs : SoundGroups e) (h : JoinsOk e)
    (hstep : ChildStep clock e e') (hg : e.children.get? identity = some g) (hne : g.mergedIDs ≠ []) :
    ∃ g', e'.children.get? identity = some g' ∧ SameJoin g g' := by
  cases hstep with
  | keep t hk he =>
    rw [he]
    exact ⟨g,(keepsChildGroups_children hk ▸ hg :),.refl g⟩
  | commit i identity' a t hi hop he =>
    rw [he]
    change ∃ g', t.children.get? identity = some g' ∧ SameJoin g g'
    have hrel := hop.commit.rel (Q := fun g g' => JoinOk g → g.mergedIDs ≠ [] → SameJoin g g') hs
      (fun g _ _ => .refl g) fun g g' hg hedit hok hne => by
        obtain ⟨hids,hresult,hchildren⟩ := hedit.same hok hne
        refine ⟨hids,hresult,?_⟩
        have hr := congrArg ChildGroupRecord.children (hs _ g hg).reread
        simp only [ChildGroupRecord.reread,hchildren] at hr ⊢
        exact hr
    obtain ⟨g',hg',hsame⟩ := hrel identity g hg
    exact ⟨g',hg',hsame (h identity g hg) hne⟩

def MergesNothing (e t : ExecutionEnvelope J ChildGroups W) : Prop :=
  ∀ identity g', t.children.get? identity = some g' → g'.mergedIDs ≠ [] →
    ∃ g, e.children.get? identity = some g ∧ g.mergedIDs ≠ []

theorem MergesNothing.put (hs : SoundGroups e) (h : g'.mergedIDs ≠ [] →
    ∃ g, e.children.get? identity = some g ∧ g.mergedIDs ≠ []) : MergesNothing e (e.putGroup identity g') := by
  intro identity' g0 hg0 hne
  rw [hs.get?_putGroup] at hg0
  split at hg0
  · rename_i heq
    cases hg0
    exact heq ▸ h hne
  · exact ⟨g0,hg0,hne⟩

theorem ChildOperation.mergesNothing (hs : SoundGroups e) (h : ChildOperation clock i e identity a t)
    (ha : a ≠ .group) : MergesNothing e t := by
  cases h.commit with
  | plan => exact absurd rfl ha
  | edit identity g g' a hg hedit hm =>
    refine .put hs fun hne => ⟨g,hg,?_⟩
    rcases hedit.merged_cases with ⟨hids,-⟩ | ⟨hgroup,-⟩
    · exact hids ▸ hne
    · exact absurd hgroup ha

theorem prepareChildren_mergesNothing (hs : SoundGroups e) {plan : ChildGroupPlan} {available : Counters}
    (h : prepareChildren e plan available = .ok (g,some t)) : MergesNothing e t := by
  have hp := prepareChildren_plans h
  obtain ⟨-,specs,hspecs⟩ := planChildGroup_eq_ok hp.planned
  rw [hp.target]
  exact .put hs fun hne => absurd hspecs.unjoined.1 hne

theorem recoverChildLaunches_mergesNothing (hs : SoundGroups e) {r : RecoveredGroup J W}
    (h : recoverChildLaunches i e identity = .ok r) (ht : r.target = some t) : MergesNothing e t := by
  obtain ⟨-,htarget,-⟩ := recoverChildLaunches_eq_ok (fun _ => true) h
  rw [(htarget t ht).2]
  refine .put hs fun hne => ?_
  have hids : r.group.mergedIDs = ((e.children.get? identity).getD .zero).mergedIDs := by
    simp only [recoverChildLaunches,bind_eq_ok] at h
    obtain ⟨groups,hgroups,children,-,h⟩ := h
    obtain ⟨rfl,-⟩ := executionChildGroups_eq_ok hgroups
    split at h
    · simp only [bind_eq_ok] at h
      obtain ⟨target,-,h⟩ := h
      cases h
      rfl
    · cases h
      rfl
  cases hg : e.children.get? identity with
  | none =>
    rw [hids,hg] at hne
    exact absurd rfl hne
  | some g =>
    rw [hids,hg] at hne
    exact ⟨g,rfl,hne⟩

theorem requestChildCancellation_mergesNothing (hs : SoundGroups e) {expected : ChildGroupRecord}
    {request : ChildCancelRequest} {now : Time}
    (h : requestChildCancellation i e expected request now = .ok (g,some t)) : MergesNothing e t := by
  obtain ⟨-,-,-,group,children,-,hmerged,-,-,rfl,-,rfl⟩ := requestChildCancellation_some_iff.mp h
  exact .put hs fun hne => absurd hmerged hne

end Merged
end Flowy
