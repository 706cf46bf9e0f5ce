import Flowy.Child.Admission
import Flowy.Child.Commit

/-! Re-admission. Most sections commit without running the group validator first; this is why the
next reader accepts what they wrote. -/
namespace Flowy

open Json Reserve
open scoped List

section Children

variable [Sha256] {g : ChildGroupRecord} {r : Nat} {c : ChildRecord}

theorem ChildOk.of_undecided (hw : c.waitResolution = none) (ho : c.outcomeResolution = none)
    (hc : c.cancelConfirmation = none) (htext : validRuntimeText [c.waitID] = true)
    (hstate : validateChildStateMachine c = true)
    (hasked : g.cancelRequested = true → launchable c = false ∧
      (settledChild c = true ∨ c.cancelRequested = true))
    (hunasked : g.cancelRequested = false → c.cancelRequested = false ∧ c.cancelConfirmed = false) :
    ChildOk g r c := by
  refine ⟨(validateChildRecordState_of_undecided hw ho hc).mpr ⟨htext,hstate⟩,
    by simp [validChildOutcomeGroupProvenance,ho],?_,?_,hasked,hunasked⟩
  · rw [hc]
    rintro d ⟨⟩
  · rw [hw]
    rintro d ⟨⟩

theorem queueChild_ok (h : ChildOk g r c) (hg : g.cancelRequested = false) (hs : c.state = .planned) :
    ChildOk g r (queueChild c) := by
  obtain ⟨hw,ho,hc,-⟩ := undecided_of_open h.valid (by simp [settledChild,hs])
  obtain ⟨htext,hstate⟩ := (validateChildRecordState_of_undecided hw ho hc).mp h.valid
  refine .of_undecided hw ho hc htext ?_ (fun hg' => by rw [hg] at hg'; cases hg') h.unasked
  simp only [validateChildStateMachine,hs,Bool.and_eq_true] at hstate
  simp [validateChildStateMachine,queueChild,hstate,h.unasked hg]

theorem startChild_ok {i : Nat} (hi : 0 < i) (h : ChildOk g r c) (hg : g.cancelRequested = false)
    (hs : c.state = .queued) : ChildOk g r (startChild i c) := by
  obtain ⟨hw,ho,hc,-⟩ := undecided_of_open h.valid (by simp [settledChild,hs])
  obtain ⟨htext,hstate⟩ := (validateChildRecordState_of_undecided hw ho hc).mp h.valid
  refine .of_undecided hw ho hc htext ?_ (fun hg' => by rw [hg] at hg'; cases hg') h.unasked
  simp only [validateChildStateMachine,hs,Bool.and_eq_true,decide_eq_true_eq] at hstate
  simp [validateChildStateMachine,startChild,hstate,hi,h.unasked hg]

theorem recoverChild_ok {i : Nat} {c' : ChildRecord} (h : ChildOk g r c) (hr : recoverChild i c = .ok c') :
    ChildOk g r c' := by
  rcases recoverChild_eq_ok hr with ⟨-,rfl⟩ | ⟨hs,-,rfl⟩
  · exact h
  · have hopen : settledChild c = false := by simp [settledChild,hs]
    obtain ⟨hw,ho,hc,hconf⟩ := undecided_of_open h.valid hopen
    obtain ⟨htext,hstate⟩ := (validateChildRecordState_of_undecided hw ho hc).mp h.valid
    refine .of_undecided hw ho hc htext ?_ (fun hg => ⟨rfl,.inr ?_⟩) h.unasked
    · simp only [validateChildStateMachine,hs,Bool.and_eq_true,decide_eq_true_eq] at hstate
      simp only [validateChildStateMachine,hstate,hconf,Bool.and_eq_true,decide_eq_true_eq,Bool.false_and,
        Bool.not_false,and_true,true_and]
      omega
    · have hasked := (h.asked hg).2
      rwa [hopen,Bool.false_eq_true,false_or] at hasked

theorem requestChildCancel_ok {q : ChildCancelRequestRecord} {children : List ChildRecord} {c' : ChildRecord}
    (h : ChildOk g r c) (hnone : g.cancelRequest = none) (hr : requestChildCancel c = .ok c') :
    ChildOk { g with cancelRequested := true, cancelRequest := some q, children := children } r c' := by
  -- nothing was confirmed before there was a request
  have hc : c.cancelConfirmation = none := by
    cases hd : c.cancelConfirmation with
    | none => rfl
    | some d =>
      obtain ⟨-,q',hq',-⟩ := h.confirmation d hd
      rw [hnone] at hq'
      cases hq'
  rcases requestChildCancel_eq_ok hr with ⟨hs,rfl⟩ | ⟨hs,hl,rfl⟩ | ⟨hs,hl,rfl⟩
  · refine ⟨h.valid,h.outcome,?_,h.wait,fun _ => ⟨(not_launchable_of_settled hs).1,.inl hs⟩,
      (fun hg => by cases hg)⟩
    rw [hc]
    rintro d ⟨⟩
  · obtain ⟨hw,ho,-,-⟩ := undecided_of_open h.valid hs
    obtain ⟨htext,-⟩ := (validateChildRecordState_of_undecided hw ho hc).mp h.valid
    refine .of_undecided hw ho hc htext ?_ (fun _ => ⟨rfl,.inl rfl⟩) (fun hg => by cases hg)
    simp [validateChildStateMachine]
  · obtain ⟨hw,ho,-,hconf⟩ := undecided_of_open h.valid hs
    obtain ⟨htext,hstate⟩ := (validateChildRecordState_of_undecided hw ho hc).mp h.valid
    refine .of_undecided hw ho hc htext ?_ (fun _ => ⟨hl,.inr rfl⟩) (fun hg => by cases hg)
    simp only [validateChildStateMachine,hconf,Bool.false_and,Bool.not_false,Bool.true_and] at hstate ⊢
    -- the bounds on the revision only ask for more
    cases hcase : c.state with
    | unset | planned | queued | completed | failed | canceled => simp_all [settledChild,launchable]
    | running | waiting | unknown =>
      simp only [hcase,Bool.and_eq_true,decide_eq_true_eq] at hstate ⊢
      simp only [hstate,and_true]
      omega

theorem settleChild_ok {result : ChildResult} (h : ChildOk g r c) (hs : c.state = .running)
    (hr : validChildResultState result.state = true)
    (hv : validateChildRecordState (settleChild c result) = true) : ChildOk g r (settleChild c result) := by
  have hopen : settledChild c = false := by simp [settledChild,hs]
  obtain ⟨hw,ho,hc,hconf⟩ := undecided_of_open h.valid hopen
  obtain ⟨htext,hstate⟩ := (validateChildRecordState_of_undecided (c := settleChild c result) hw ho hc).mp hv
  refine .of_undecided hw ho hc htext hstate (fun hg => ⟨(not_launchable_of_result hr).1,.inr ?_⟩) fun hg => ?_
  · have hasked := (h.asked hg).2
    rwa [hopen,Bool.false_eq_true,false_or] at hasked
  · have hask := (h.unasked hg).1
    exact ⟨hask,by simp [settleChild,hconf,hask]⟩

variable {J W : Type} {clock : Time → Bool} {i : Nat} {e : ExecutionEnvelope J ChildGroups W}
  {c' : ChildRecord}

theorem ChildDecided.ok (h : ChildOk g e.revision c)
    (hrequested : ∀ q, g.cancelRequest = some q → q.sourceRevision < e.revision)
    (hrequest : g.cancelRequested = g.cancelRequest.isSome)
    (hd : ChildDecided clock i e g c c') (hv : validateChildRecordState c' = true) :
    ChildOk g (e.revision + 1) c' := by
  obtain ⟨hopen,hset⟩ := hd.settles
  have hunsettled : settledChild c = false := by
    simp only [unresolvedCancelableChild,Bool.or_eq_true,beq_iff_eq] at hopen
    rcases hopen with (hs | hs) | hs <;> simp [settledChild,hs]
  obtain ⟨hw,ho,hc,hconf⟩ := undecided_of_open h.valid hunsettled
  have hasked : g.cancelRequested = true → launchable c' = false ∧
      (settledChild c' = true ∨ c'.cancelRequested = true) := fun _ =>
    ⟨(not_launchable_of_settled hset).1,.inl hset⟩
  cases hd with
  | confirm d now hnow hcheck hreq hrev hask hopen =>
    obtain ⟨q,hq,hid⟩ := hreq
    refine ⟨hv,?_,?_,?_,hasked,fun hg => ?_⟩
    · simp [validChildOutcomeGroupProvenance,confirmChildCancel,ho]
    · rintro d' ⟨⟩
      exact ⟨Nat.lt_succ_self _,q,hq,hid.symm,hrequested q hq⟩
    · simp only [confirmChildCancel,hw]
      rintro d' ⟨⟩
    · rw [hrequest,hq] at hg
      cases hg
  | wait res now hnow hcheck hrev hs hwait =>
    refine ⟨hv,?_,?_,?_,hasked,h.unasked⟩
    · simp [validChildOutcomeGroupProvenance,resolveWaitingChild,ho]
    · simp only [resolveWaitingChild,hc]
      rintro d' ⟨⟩
    · rintro d' ⟨⟩
      exact Nat.lt_succ_self _
  | outcome res now hnow hcheck hgroup hchild hnew hs =>
    refine ⟨hv,?_,?_,?_,hasked,h.unasked⟩
    · -- the stored address and result are those of the request itself
      obtain ⟨h1,h2,h3,h4⟩ := hgroup
      obtain ⟨h5,h6,h7⟩ := hchild
      have hwaitID : res.result.waitID = [] := by
        simp only [validChildOutcomeRequest,Bool.and_eq_true,Bool.not_eq_true',Bool.or_eq_false_iff,
          bne_eq_false_iff_eq] at hcheck
        exact hcheck.1.2.1.2
      have hsame : (⟨g.node,g.activation,g.plan.key,g.plan.label,c.spec.id,c.executionID,c.revision,
          res.decisionID,res.reason,res.evidence,⟨res.result.state,res.result.payload,res.result.error,[]⟩⟩ :
          ChildOutcomeResolution) = res := by
        rw [← h1,← h2,← h3,← h4,← h5,← h6,← h7,← hwaitID]
      simp only [validChildOutcomeGroupProvenance,resolveUnknownChild,Option.all_some,hsame,hcheck,
        Bool.and_true,decide_eq_true_eq,beq_self_eq_true]
      exact Nat.lt_succ_self _
    · simp only [resolveUnknownChild,hc]
      rintro d' ⟨⟩
    · simp only [resolveUnknownChild,hw]
      rintro d' ⟨⟩

end Children

section Groups

variable [Sha256] {g g' : ChildGroupRecord} {r : Nat}

omit [Sha256] in
theorem find?_settled {xs ys : List ChildRecord} (h : List.Forall₂ ChildAdvance xs ys) {id : Text}
    {c : ChildRecord} (hc : xs.find? (fun c => c.spec.id == id) = some c) (hs : settledChild c = true) :
    ys.find? (fun c => c.spec.id == id) = some c := by
  induction h with
  | nil => exact hc
  | cons hx _ ih =>
    rename_i x y xs ys
    rw [List.find?_cons] at hc ⊢
    rw [hx.spec]
    split at hc
    · cases hc
      rw [hx.frozen hs]
    · exact ih hc

omit [Sha256] in
theorem validReturn.advance {id : Text} {b : ChildBudgetReturnRecord} (ha : GroupAdvance g g')
    (h : validReturn g id b) : validReturn g' id b := by
  obtain ⟨c,hc,hrev,htexts,returned,hret,heq⟩ := h
  exact ⟨c,find?_settled ha.children hc (computeChildBudgetReturn_eq_ok hret).settled,hrev,htexts,returned,hret,heq⟩

omit [Sha256] in
/-- A joined group has only settled children, so nothing of it moves. -/
theorem validChildJoin_advance (ha : GroupAdvance g g') (hm : g'.mergedIDs = g.mergedIDs)
    (hr : g'.mergedResult = g.mergedResult) (h : validChildJoin g = true) : validChildJoin g' = true := by
  simp only [validChildJoin,hm,hr] at h ⊢
  split
  · rename_i hnil
    rwa [if_pos hnil] at h
  · rename_i hne
    rw [if_neg hne] at h
    simp only [Bool.and_eq_true] at h
    have hsame : g'.children = g.children := by
      have hall := ha.children
      have hset := List.all_eq_true.mp h.2
      generalize g.children = xs at hall hset
      generalize g'.children = ys at hall
      induction hall with
      | nil => rfl
      | cons hx _ ih =>
        rw [hx.frozen (hset _ List.mem_cons_self),ih fun c hc => hset c (List.mem_cons_of_mem _ hc)]
    rw [hsame]
    simp only [Bool.and_eq_true]
    exact h

theorem GroupOk.advance (h : GroupOk g r) (ha : GroupAdvance g g') (hq : g'.cancelRequest = g.cancelRequest)
    (hg : g'.cancelRequested = g.cancelRequested) (hm : g'.mergedIDs = g.mergedIDs)
    (hr : g'.mergedResult = g.mergedResult) (hb : g'.budgetReturns = g.budgetReturns)
    (hc : ∀ c ∈ g'.children, ChildOk g' r c) : GroupOk g' r := by
  refine ⟨hc,by rw [hg,hq]; exact h.request,by rw [hq]; exact h.requested,validChildJoin_advance ha hm hr h.join,?_⟩
  rw [hb]
  exact fun id b hid => ⟨(h.returns id b hid).1.advance ha,(h.returns id b hid).2⟩

theorem GroupOk.setChild {c c' : ChildRecord} (hd : (g.children.map fun c => c.spec.id).Nodup)
    (h : GroupOk g r) (ha : GroupAdvance g (g.setChild c')) (hc : c ∈ g.children)
    (hs : c'.spec.id = c.spec.id) (hok : ChildOk g r c') : GroupOk (g.setChild c') r := by
  have hall : List.Forall₂ (fun _ c' => ChildOk g r c') g.children (g.setChild c').children :=
    forall₂_setChild hd hc hs (fun x hx _ => h.children x hx) hok
  refine h.advance ha rfl rfl rfl rfl rfl fun x hx => ?_
  obtain ⟨-,-,hok⟩ := forall₂_mem_right hall hx
  exact { hok with }

variable {J W : Type} {clock : Time → Bool} {i : Nat} {e : ExecutionEnvelope J ChildGroups W} {a : EditScope}

theorem GroupEdit.ok (hi : 0 < i) (hrev : 0 < e.revision) (hclock : ∀ t, clock t = true → t.isZero = false)
    (hd : (g.children.map fun c => c.spec.id).Nodup) (h : GroupOk g e.revision)
    (hedit : GroupEdit clock i e g a g') : GroupOk g' (e.revision + 1) := by
  have ha := hedit.advance hd
  have h' := h.mono (Nat.le_succ e.revision)
  cases hedit with
  | queue c hc hg hs => exact h'.setChild hd ha hc rfl (queueChild_ok (h'.children c hc) hg hs)
  | start c hc hg hs => exact h'.setChild hd ha hc rfl (startChild_ok hi (h'.children c hc) hg hs)
  | recover children hr hall =>
    refine h'.advance ha rfl rfl rfl rfl rfl fun c' hc' => ?_
    obtain ⟨c,hc,hrec⟩ := forall₂_mem_right hall hc'
    have hok := recoverChild_ok (h'.children c hc) hrec
    exact { hok with }
  | finish c hc result hs hinc hr hv =>
    exact h'.setChild hd ha hc rfl (settleChild_ok (h'.children c hc) hs hr hv)
  | join result hm hs =>
    refine ⟨fun c hc => { h'.children c hc with },h'.request,h'.requested,?_,fun id b hb =>
      ⟨(h'.returns id b hb).1.advance ha,(h'.returns id b hb).2⟩⟩
    -- an unmerged group has a child
    have hne : g.children.map (fun c => c.spec.id) ≠ [] := by
      intro hnil
      rw [List.map_eq_nil_iff] at hnil
      have hj := h.join
      simp only [ChildGroupRecord.unmerged,hnil,List.length_nil,bne_iff_ne,ne_eq,List.length_eq_zero_iff] at hm
      simp [validChildJoin,hm,hnil] at hj
    simp only [validChildJoin,if_neg hne,beq_self_eq_true,Bool.true_and]
    exact List.all_eq_true.mpr hs
  | cancel request now children hnow hcheck hm hnone hall =>
    have hjoin := validChildJoin_advance ha rfl rfl h'.join
    refine ⟨fun c' hc' => ?_,rfl,?_,hjoin,fun id b hb => ⟨(h'.returns id b hb).1.advance ha,(h'.returns id b hb).2⟩⟩
    · obtain ⟨c,hc,hreq⟩ := forall₂_mem_right hall hc'
      exact requestChildCancel_ok (h'.children c hc) hnone hreq
    · rintro q ⟨⟩
      simp only [ChildCancelRequest.check,require_eq_ok,Bool.and_eq_true] at hcheck
      obtain ⟨⟨hid,htext⟩,hreason⟩ := hcheck
      refine ⟨?_,Nat.lt_succ_self _⟩
      simp only [validCancelRequest,hid,htext,hreason,hclock now hnow,Bool.and_eq_true,bne_iff_ne,ne_eq,
        Bool.not_false,Bool.and_true,Bool.true_and]
      omega
  | credit claim c returned now hnow hcheck hnone hc hcrev hret =>
    refine ⟨fun c hc => { h'.children c hc with },h'.request,h'.requested,h'.join,fun id b hb => ?_⟩
    rw [GoMap.get?_set] at hb
    split at hb
    · rename_i heq
      cases hb
      refine ⟨⟨c,heq ▸ hc,hcrev,?_,returned,hret,GoMap.equal_iff.mpr fun _ => rfl⟩,Nat.lt_succ_self _⟩
      simp only [ChildBudgetReturn.check,require_eq_ok,Bool.and_eq_true,validRuntimeText_cons] at hcheck
      obtain ⟨⟨⟨⟨⟨hid,hrv⟩,hdec⟩,hreason⟩,htext⟩,hev⟩ := hcheck
      simp only [hdec,hreason,hev,hclock now hnow,validRuntimeText_cons,htext.2.1,htext.2.2.1,htext.2.2.2.1,
        htext.2.2.2.2,Bool.and_eq_true,bne_iff_ne,ne_eq,Bool.not_false,Bool.and_true,Bool.true_and]
      omega
    · exact ⟨(h'.returns id b hb).1.advance ha,(h'.returns id b hb).2⟩
  | decide c c' hc hm hdec hv =>
    exact h'.setChild hd ha hc (congrArg ChildSpec.id hdec.advance.spec)
      (hdec.ok (h.children c hc) (fun q hq => (h.requested q hq).2) h.request hv)

end Groups

section Ledger

variable {g : ChildGroupRecord}

theorem groupCharges_congr {g g' : ChildGroupRecord} (ha : GroupAdvance g g')
    (hb : g'.budgetReturns = g.budgetReturns) : groupCharges g' = groupCharges g := by
  have hall := ha.children
  simp only [groupCharges]
  generalize g.children = xs at hall
  generalize g'.children = ys at hall
  induction hall with
  | nil => rfl
  | cons hc _ ih =>
    rw [List.flatMap_cons,List.flatMap_cons,ih]
    simp only [childCharges,outstandingUnits,hb,hc.spec]

theorem groupCharges_credit {c : ChildRecord} {claim : ChildBudgetReturn} {returned : Counters}
    (record : ChildBudgetReturnRecord) (hd : (g.children.map fun c => c.spec.id).Nodup)
    (hnone : g.budgetReturns.get? claim.childID = none) (hc : childForBudgetReturn g claim.childID = some c)
    (hret : Returned c claim.used returned) (hrecord : record.returned = returned) :
    List.Forall₂ (fun x y => y.1 = x.1 ∧ (0 ≤ x.2.toInt → 0 ≤ y.2.toInt ∧ y.2.toInt ≤ x.2.toInt))
      (groupCharges g)
      (groupCharges { g with budgetReturns := g.budgetReturns.set claim.childID record }) := by
  have hid : c.spec.id = claim.childID := by simpa using List.find?_some hc
  have hmem : c ∈ g.children := List.mem_of_find?_eq_some hc
  have hchild : ∀ x ∈ g.children, List.Forall₂ (fun x y => y.1 = x.1 ∧
      (0 ≤ x.2.toInt → 0 ≤ y.2.toInt ∧ y.2.toInt ≤ x.2.toInt)) (childCharges g x)
      (childCharges { g with budgetReturns := g.budgetReturns.set claim.childID record } x) := by
    intro x hx
    rw [childCharges,childCharges,List.forall₂_map_left_iff,List.forall₂_map_right_iff,List.forall₂_same]
    intro entry hentry
    refine ⟨rfl,fun hnonneg => ?_⟩
    by_cases hxid : x.spec.id = claim.childID
    · have hxc : x = c := List.inj_on_of_nodup_map hd hx hmem (hxid.trans hid.symm)
      subst hxc
      have hallocated : x.spec.allocation.get? entry.1 = some entry.2 := (GoMap.mem_entries_iff _ _ _).mp hentry
      obtain ⟨-,-,hsome⟩ := hret.accounted _ _ hallocated
      obtain ⟨units,hunits⟩ := Option.isSome_iff_exists.mp hsome
      obtain ⟨h0,allocated,hall,hle⟩ := hret.within _ _ hunits
      rw [hallocated] at hall
      cases hall
      have hback := hret.rest entry.1
      rw [hallocated,hunits] at hback
      simp only [outstandingUnits,hxid,hnone,GoMap.get?_set_self,hrecord,hback,Option.bind_some,
        Option.bind_none,Option.map_some,Option.getD_some,Option.getD_none,Int64.sub_zero] at hnonneg ⊢
      have hleft := toInt_sub_of_le h0 hle
      rw [toInt_sub_of_le (by omega) (by omega),hleft]
      omega
    · simp only [outstandingUnits,GoMap.get?_set_of_ne _ _ hxid] at hnonneg ⊢
      exact ⟨hnonneg,le_refl _⟩
  simp only [groupCharges]
  generalize g.children = xs at hchild
  induction xs with
  | nil => exact .nil
  | cons x xs ih =>
    rw [List.flatMap_cons,List.flatMap_cons]
    exact List.rel_append (hchild x List.mem_cons_self) (ih fun y hy => hchild y (List.mem_cons_of_mem _ hy))

end Ledger

section Envelopes

variable [Sha256] {J W : Type} {clock : Time → Bool} {i : Nat} {e t : ExecutionEnvelope J ChildGroups W}
  {g g' : ChildGroupRecord} {a : EditScope} {identity : Text}

theorem GroupEdit.charges (hd : (g.children.map fun c => c.spec.id).Nodup)
    (hedit : GroupEdit clock i e g a g') (hnonneg : ∀ x ∈ groupCharges g, 0 ≤ x.2.toInt) :
    List.Forall₂ (fun x y => y.1 = x.1 ∧ 0 ≤ y.2.toInt ∧ y.2.toInt ≤ x.2.toInt)
      (groupCharges g) (groupCharges g') := by
  have ha := hedit.advance hd
  have hsame : g'.budgetReturns = g.budgetReturns → List.Forall₂ (fun x y => y.1 = x.1 ∧
      0 ≤ y.2.toInt ∧ y.2.toInt ≤ x.2.toInt) (groupCharges g) (groupCharges g') := by
    intro hb
    rw [groupCharges_congr ha hb]
    exact List.forall₂_same.mpr fun x hx => ⟨rfl,hnonneg x hx,le_refl _⟩
  cases hedit with
  | credit claim c returned now hnow hcheck hnone hc hrev hret =>
    have hall := groupCharges_credit ⟨claim.childRevision,claim.decisionID,claim.reason,claim.evidence,
      claim.used,returned,e.revision,i,now⟩ hd hnone hc (computeChildBudgetReturn_eq_ok hret) rfl
    exact ((List.forall₂_and_left _ _).mpr ⟨hnonneg,hall⟩).imp fun x y h => ⟨h.2.1,h.2.2 h.1⟩
  | queue | start | recover | finish | join | cancel | decide => exact hsame rfl

def groupDecisionIDs (g : ChildGroupRecord) : List Text :=
  g.children.filterMap fun child => child.outcomeResolution.map fun d => d.decisionID

omit [Sha256] in
theorem groupDecisionIDs_reread (g : ChildGroupRecord) : groupDecisionIDs g.reread = groupDecisionIDs g := by
  rw [groupDecisionIDs,groupDecisionIDs,ChildGroupRecord.reread,List.filterMap_map]
  rfl

omit [Sha256] in
theorem groupDecisionIDs_congr {xs ys : List ChildRecord}
    (h : List.Forall₂ (fun c c' : ChildRecord => c'.outcomeResolution = c.outcomeResolution) xs ys) :
    (ys.filterMap fun child => child.outcomeResolution.map fun d => d.decisionID) =
      xs.filterMap fun child => child.outcomeResolution.map fun d => d.decisionID := by
  induction h with
  | nil => rfl
  | cons hc _ ih => rw [List.filterMap_cons,List.filterMap_cons,hc,ih]

structure EditsOutcome (i : Nat) (e : ExecutionEnvelope J ChildGroups W) (g g' : ChildGroupRecord)
    (c : ChildRecord) (r : ChildOutcomeResolution) (now : Time) : Prop where
  mem : c ∈ g.children
  unsettled : settledChild c = false
  check : validChildOutcomeRequest r = true
  header : r.node = g.node ∧ r.activation = g.activation ∧ r.groupKey = g.plan.key ∧
    r.groupLabel = g.plan.label
  child : r.childID = c.spec.id ∧ r.executionID = c.executionID ∧ r.childRevision = c.revision
  fresh : r.decisionID ∉ childOutcomeDecisionIDs e.children
  target : g' = g.setChild (resolveUnknownChild r (childOutcomeRequestDigest r) e.revision i now c)

theorem GroupEdit.outcomes (hd : (g.children.map fun c => c.spec.id).Nodup)
    (hedit : GroupEdit clock i e g a g') :
    List.Forall₂ (fun c c' => c'.outcomeResolution = c.outcomeResolution) g.children g'.children ∨
      ∃ c r now, EditsOutcome i e g g' c r now := by
  have hset : ∀ {c c' : ChildRecord}, c ∈ g.children → c'.spec = c.spec →
      c'.outcomeResolution = c.outcomeResolution →
      List.Forall₂ (fun c c' => c'.outcomeResolution = c.outcomeResolution) g.children
        (g.setChild c').children :=
    fun hc hspec ho => forall₂_setChild hd hc (congrArg ChildSpec.id hspec) (fun _ _ _ => rfl) ho
  cases hedit with
  | queue c hc hg hs => exact .inl (hset hc rfl rfl)
  | start c hc hg hs => exact .inl (hset hc rfl rfl)
  | finish c hc result hs hi hr hv => exact .inl (hset hc rfl rfl)
  | join | credit => exact .inl (List.forall₂_same.mpr fun _ _ => rfl)
  | recover children hr hall =>
    refine .inl (hall.imp fun c c' hc => ?_)
    rcases recoverChild_eq_ok hc with ⟨-,rfl⟩ | ⟨-,-,rfl⟩ <;> rfl
  | cancel request now children hnow hcheck hm hnone hall =>
    refine .inl (hall.imp fun c c' hc => ?_)
    rcases requestChildCancel_eq_ok hc with ⟨-,rfl⟩ | ⟨-,-,rfl⟩ | ⟨-,-,rfl⟩ <;> rfl
  | decide c c' hc hm hdec hv =>
    cases hdec with
    | confirm => exact .inl (hset hc rfl rfl)
    | wait => exact .inl (hset hc rfl rfl)
    | outcome r now hnow hcheck hgroup hchild hnew hs =>
      refine .inr ⟨c,r,now,hc,?_,hcheck,hgroup,hchild,hnew,rfl⟩
      rcases hs with hs | ⟨hs,-⟩ <;> simp [settledChild,hs]

theorem GroupEdit.decisionIDs (hd : (g.children.map fun c => c.spec.id).Nodup)
    (h : ∀ c ∈ g.children, settledChild c = false → c.outcomeResolution = none)
    (hedit : GroupEdit clock i e g a g') : groupDecisionIDs g' = groupDecisionIDs g ∨
      ∃ id, id ∉ childOutcomeDecisionIDs e.children ∧ groupDecisionIDs g' ~ id :: groupDecisionIDs g := by
  rcases hedit.outcomes hd with hsame | ⟨c,r,now,hout⟩
  · exact .inl (groupDecisionIDs_congr hsame)
  · refine .inr ⟨r.decisionID,hout.fresh,?_⟩
    obtain ⟨pre,post,hsplit,hput⟩ := setChild_split hd hout.mem (show
      (resolveUnknownChild r (childOutcomeRequestDigest r) e.revision i now c).spec.id = _ from rfl)
    rw [hout.target,groupDecisionIDs,hput,groupDecisionIDs,hsplit]
    simp only [List.filterMap_append,List.filterMap_cons,h c hout.mem hout.unsettled,Option.map_none,
      resolveUnknownChild,Option.map_some]
    exact List.perm_middle

omit [Sha256] in
theorem childOutcomeDecisionIDs_mapValues (groups : ChildGroups) :
    childOutcomeDecisionIDs (groups.mapValues ChildGroupRecord.reread) = childOutcomeDecisionIDs groups := by
  rw [childOutcomeDecisionIDs,GoMap.values_mapValues,List.flatMap_map]
  exact congrArg (groups.values.flatMap ·) (funext groupDecisionIDs_reread)

theorem GroupEdit.decisions_nodup (hd : (g.children.map fun c => c.spec.id).Nodup)
    (hg : e.children.get? identity = some g)
    (h : ∀ c ∈ g.children, settledChild c = false → c.outcomeResolution = none)
    (hedit : GroupEdit clock i e g a g') (hids : (childOutcomeDecisionIDs e.children).Nodup) :
    (childOutcomeDecisionIDs (e.children.set identity g')).Nodup := by
  obtain ⟨rest,hbefore,hafter⟩ := GoMap.values_set_perm hg g'
  have hold : childOutcomeDecisionIDs e.children ~ groupDecisionIDs g ++ rest.flatMap groupDecisionIDs :=
    hbefore.flatMap_right groupDecisionIDs
  have hnew : childOutcomeDecisionIDs (e.children.set identity g') ~
      groupDecisionIDs g' ++ rest.flatMap groupDecisionIDs := hafter.flatMap_right groupDecisionIDs
  rw [hnew.nodup_iff]
  rcases hedit.decisionIDs hd h with hsame | ⟨id,hfresh,hperm⟩
  · rw [hsame]
    exact hold.nodup_iff.mp hids
  · rw [(hperm.append_right _).nodup_iff,List.cons_append,List.nodup_cons]
    exact ⟨fun hmem => hfresh (hold.mem_iff.mpr hmem),hold.nodup_iff.mp hids⟩

theorem GroupEdit.unmerged (hd : (g.children.map fun c => c.spec.id).Nodup)
    (hedit : GroupEdit clock i e g a g') (h : g'.unmerged = true) : g.unmerged = true := by
  have hlen := (hedit.advance hd).children.length_eq
  cases hedit with
  | join result hm hs => exact hm
  | queue | start | recover | finish | cancel | credit | decide =>
    simp only [ChildGroupRecord.unmerged] at h ⊢
    rwa [hlen]

theorem PlannedGroup.groupOk {specs : List ChildSpec} (h : PlannedGroup g specs) (r : Nat) : GroupOk g r := by
  refine ⟨fun c hc => ?_,by rw [h.unasked.1,h.unasked.2]; rfl,?_,?_,?_⟩
  · rw [h.children] at hc
    obtain ⟨s,-,rfl⟩ := List.mem_map.mp hc
    exact .of_undecided rfl rfl rfl rfl rfl (fun hg => by rw [h.unasked.1] at hg; cases hg) fun _ => ⟨rfl,rfl⟩
  · rw [h.unasked.2]
    rintro q ⟨⟩
  · simp [validChildJoin,h.unjoined]
  · rw [h.unreturned]
    rintro id b ⟨⟩

theorem PlannedGroup.decisionIDs {specs : List ChildSpec} (h : PlannedGroup g specs) :
    groupDecisionIDs g = [] := by
  rw [groupDecisionIDs,h.children,List.filterMap_map]
  exact List.filterMap_eq_nil_iff.mpr fun _ _ => rfl

theorem PlannedGroup.decisions_nodup {specs : List ChildSpec} (h : PlannedGroup g specs)
    (hnone : e.children.get? identity = none) (hids : (childOutcomeDecisionIDs e.children).Nodup) :
    (childOutcomeDecisionIDs (e.children.set identity g)).Nodup := by
  rw [childOutcomeDecisionIDs,GoMap.values_set_new hnone,List.flatMap_cons]
  change (groupDecisionIDs g ++ childOutcomeDecisionIDs e.children).Nodup
  rw [h.decisionIDs]
  exact hids

theorem AdmittedGroups.later (h : AdmittedGroups e) (hg : e.children.get? identity = some g)
    (ht : t.executionID = e.executionID) (ha : e.activation ≤ t.activation) (hr : e.revision ≤ t.revision) :
    admittedChildGroup t identity g = true := by
  obtain ⟨⟨hid,hparent,hpos,hle⟩,hf,hok⟩ := admittedChildGroup_iff.mp (h.admitted identity g hg)
  exact admittedChildGroup_iff.mpr ⟨⟨hid,hparent.trans ht.symm,hpos,hle.trans ha⟩,hf,hok.mono hr⟩

theorem admittedChildGroup_reread (h : admittedChildGroup e identity g = true) :
    admittedChildGroup e identity g.reread = true := by
  obtain ⟨hheader,hf,hok⟩ := admittedChildGroup_iff.mp h
  exact admittedChildGroup_iff.mpr ⟨hheader,hf.reread,hok.reread⟩

theorem AdmittedGroups.put (h : AdmittedGroups e)
    (hids : (childOutcomeDecisionIDs (e.children.set identity g')).Nodup)
    (hadm : admittedChildGroup { e with revision := e.revision + 1 } identity g' = true)
    (hsame : ∀ g, e.children.get? identity = some g → g'.plan.key = g.plan.key ∧ g'.activation = g.activation)
    (hcur : g'.unmerged = true → currentChildGroup e g' = true)
    (hledger : LedgerOk (e.children.set identity g').values) :
    AdmittedGroups { e.putGroup identity g' with revision := e.revision + 1 } := by
  -- the stored groups: the new one, and the others as they are read back
  have hcases : ∀ identity' g0, (e.putGroup identity g').children.get? identity' = some g0 →
      (identity' = identity ∧ g0 = g'.reread) ∨
        ∃ g1, e.children.get? identity' = some g1 ∧ g0 = g1.reread := by
    intro identity' g0 hg0
    rw [get?_putGroup] at hg0
    split at hg0
    · rename_i heq
      cases hg0
      exact .inl ⟨heq,rfl⟩
    · obtain ⟨g1,hg1,rfl⟩ := Option.map_eq_some_iff.mp hg0
      exact .inr ⟨g1,hg1,rfl⟩
  have hunmerged : ∀ g : ChildGroupRecord, g.reread.unmerged = g.unmerged := fun g => by
    simp [ChildGroupRecord.unmerged,ChildGroupRecord.reread]
  refine ⟨?_,?_,?_,?_,?_⟩
  · change (childOutcomeDecisionIDs ((e.children.set identity g').mapValues ChildGroupRecord.reread)).Nodup
    rwa [childOutcomeDecisionIDs_mapValues]
  · intro identity' g0 hg0
    rcases hcases identity' g0 hg0 with ⟨rfl,rfl⟩ | ⟨g1,hg1,rfl⟩
    · exact admittedChildGroup_reread hadm
    · exact admittedChildGroup_reread (h.later hg1 rfl (Nat.le_refl _) (Nat.le_succ _))
  · intro key identity' href
    obtain ⟨g0,hg0,hkey,hact⟩ := h.references key identity' href
    change ∃ group, (e.putGroup identity g').children.get? identity' = some group ∧ _
    rw [get?_putGroup]
    split
    · rename_i heq
      subst heq
      obtain ⟨hk,ha⟩ := hsame g0 hg0
      exact ⟨_,rfl,hkey.trans hk.symm,ha.trans hact⟩
    · exact ⟨g0.reread,by rw [hg0]; rfl,hkey,hact⟩
  · intro identity' g0 hg0 hun
    rcases hcases identity' g0 hg0 with ⟨rfl,rfl⟩ | ⟨g1,hg1,rfl⟩
    · rw [hunmerged] at hun
      exact hcur hun
    · rw [hunmerged] at hun
      exact h.current identity' g1 hg1 hun
  · refine validateChildCapacityLedger_iff.mpr ?_
    change LedgerOk ((e.children.set identity g').mapValues ChildGroupRecord.reread).values
    rw [GoMap.values_mapValues]
    exact hledger.reread

theorem GroupEdit.ledger (hd : (g.children.map fun c => c.spec.id).Nodup)
    (hg : e.children.get? identity = some g) (h : LedgerOk e.children.values)
    (hedit : GroupEdit clock i e g a g') : LedgerOk (e.children.set identity g').values := by
  obtain ⟨rest,hbefore,hafter⟩ := GoMap.values_set_perm hg g'
  have hledger := h.perm hbefore
  have hadv := hedit.advance hd
  refine (hledger.replace hadv.activation hadv.capacity (hedit.charges hd fun x hx => ?_)).perm hafter.symm
  refine (hledger.fits g List.mem_cons_self).nonneg x ?_
  rw [activationCharges_cons,if_pos rfl]
  exact List.mem_append_left _ hx

theorem GroupEdit.admitted (hi : 0 < i) (hrev : 0 < e.revision)
    (hclock : ∀ t, clock t = true → t.isZero = false) (h : AdmittedGroups e)
    (hg : e.children.get? identity = some g) (hedit : GroupEdit clock i e g a g') :
    AdmittedGroups { e.putGroup identity g' with revision := e.revision + 1 } := by
  obtain ⟨⟨hid,hparent,hpos,hle⟩,hf,hok⟩ := admittedChildGroup_iff.mp (h.admitted identity g hg)
  have hd := hf.distinct
  have hadv := hedit.advance hd
  have hkey : g'.plan.key = g.plan.key := congrArg ChildGroupPlan.key hadv.plan
  have hopen : ∀ c ∈ g.children, settledChild c = false → c.outcomeResolution = none :=
    fun c hc hs => (undecided_of_open (hok.children c hc).valid hs).2.1
  refine h.put (hedit.decisions_nodup hd hg hopen h.decisions) ?_ ?_ ?_ ?_
  · refine admittedChildGroup_iff.mpr ⟨⟨hid.trans hadv.identity.symm,hadv.parentID.trans hparent,?_,?_⟩,
      hf.advance hadv,hedit.ok hi hrev hclock hd hok⟩
    · exact hadv.activation.trans_ne hpos
    · exact hadv.activation.trans_le hle
  · intro g0 hg0
    rw [hg] at hg0
    cases hg0
    exact ⟨hkey,hadv.activation⟩
  · intro hun
    have hcur := h.current identity g hg (hedit.unmerged hd hun)
    simp only [currentChildGroup,Bool.and_eq_true,beq_iff_eq] at hcur ⊢
    rw [hadv.parentID,hadv.activation,hkey,hadv.identity]
    exact hcur
  · exact hedit.ledger hd hg (validateChildCapacityLedger_iff.mp h.ledger)

theorem GroupCommit.admitted (hi : 0 < i) (hrev : 0 < e.revision)
    (hclock : ∀ t, clock t = true → t.isZero = false) (h : AdmittedGroups e)
    (hc : GroupCommit clock i e identity a t) : AdmittedGroups { t with revision := e.revision + 1 } := by
  cases hc with
  | edit identity g g' a hg hedit hm => exact hedit.admitted hi hrev hclock h hg
  | plan g plan available hnone hbound hplan hledger hm =>
    obtain ⟨⟨h1,-,h3,-,-⟩,specs,hspecs⟩ := planChildGroup_eq_ok hplan
    refine h.put (hspecs.decisions_nodup hnone h.decisions) ?_
      (fun g0 hg0 => by rw [hnone] at hg0; cases hg0) (fun _ => ?_)
      (validateChildCapacityLedger_iff.mp hledger)
    · exact admittedChildGroup_iff.mpr ⟨⟨rfl,h1,hspecs.positive,h3.le⟩,hspecs.follows,hspecs.groupOk _⟩
    · simp only [currentChildGroup,Bool.and_eq_true,beq_iff_eq]
      exact ⟨⟨h1,h3⟩,hbound⟩

end Envelopes
end Flowy
