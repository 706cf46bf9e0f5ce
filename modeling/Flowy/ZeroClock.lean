import Flowy.Activity.Readmit
import Flowy.Readmission
import Flowy.DecisionCalls

/-! The zero time in a decision. Every validator of a stored decision rejects it; the operations
that write decisions check it in some places and not in others. -/
namespace Flowy

/-- The calls that record the time of a decision, with all they are given but the clock. -/
inductive DecisionOperation (T E : Type)
  | resolveActivity (session : HostSession) (runner : WaitRunner) (sample : Option Nat)
      (token : ResumeToken) (resolution : ActivityResolution)
  | cancelChildren (node : Option NodeSession) (expected : ChildGroupRecord)
      (request : ChildCancelRequest) (notify : Option (ChildCancelNotice → Result Unit))
  | returnChildBudget (node : Option NodeSession) (expected : ChildGroupRecord)
      (claim : ChildBudgetReturn)
  | confirmChildCancellation (session : HostSession) (runner : WaitRunner) (token : ResumeToken)
      (decision : ChildCancelConfirmation)
  | resolveChildWait (session : HostSession) (runner : WaitRunner) (token : ResumeToken)
      (resolution : ChildWaitResolution)
  | resolveChildOutcome (session : HostSession) (runner : WaitRunner) (token : ResumeToken)
      (resolution : ChildOutcomeResolution)
  | deliverWait (session : HostSession) (runner : WaitRunner) (codecs : Codecs T E)
      (executionID : Text) (delivery : WaitDelivery) (contract : WaitDeliveryContract T)
  | cancelWait (session : HostSession) (runner : WaitRunner) (wall : Time) (token : ResumeToken)
      (request : WaitCancellation)

section Operations

variable [Sha256] {T E : Type}

def DecisionOperation.run (now : Time) : DecisionOperation T E → Outcome Unit
  | .resolveActivity s r sample token resolution =>
    (s.resolveActivity r now sample token resolution).map fun _ => ()
  | .cancelChildren node expected request notify =>
    (NodeSession.cancelChildren node now expected request notify).map fun _ => ()
  | .returnChildBudget node expected claim =>
    (NodeSession.returnChildBudget node now expected claim).map fun _ => ()
  | .confirmChildCancellation s r token decision =>
    (s.confirmChildCancellation r now token decision).map fun _ => ()
  | .resolveChildWait s r token resolution =>
    (s.resolveChildWait r now token resolution).map fun _ => ()
  | .resolveChildOutcome s r token resolution =>
    (s.resolveChildOutcome r now token resolution).map fun _ => ()
  | .deliverWait s r codecs executionID delivery contract =>
    (s.deliverWait r codecs now executionID delivery contract).map fun _ => ()
  | .cancelWait s r wall token request => (s.cancelWait r now wall token request).map fun _ => ()

/-- The operations that look at the time before they commit it. A retry does so through its
schedule, which is rejected at the zero time. -/
def DecisionOperation.guarded : DecisionOperation T E → Bool
  | .resolveActivity _ _ _ _ resolution => resolution.action == .retry
  | .cancelChildren .. | .returnChildBudget .. => false
  | .confirmChildCancellation .. | .resolveChildWait .. | .resolveChildOutcome .. => true
  | .deliverWait .. | .cancelWait .. => true

/-- The action is known, and the fields that only a retry, and with `fail` also the outcome, may set
are empty. -/
def ActivityResolution.Plain (resolution : ActivityResolution) : Prop :=
  resolution.action ≠ .unset ∧ resolution.safeRetryContract = [] ∧ resolution.notBefore.isZero = true ∧
    (resolution.action = .fail → resolution.outcome = [])

/-- `ResolveActivity` without a retry passes every check before its commit. -/
structure ResolvesActivity (s : HostSession) (r : WaitRunner) (token : ResumeToken)
    (resolution : ActivityResolution) : Prop where
  checked : resolution.check = .ok ()
  leased : ∃ incarnation, s.acquire token.threadID = .ok incarnation
  source : ∃ source, s.loaded = .ok source ∧ r.mutationSource .activityConflict source token = .ok () ∧
    ∃ found, resolutionActivityRecord source resolution = .ok found
  plain : resolution.Plain
  live : s.ctx 0 = .ok ()
  stored : s.stored = .ok ()

/-- The group that a running node hands back is current, and exactly what the envelope has. -/
def NamesGroup (e : Execution) (expected group : ChildGroupRecord) : Prop :=
  validChildGroupText expected = true ∧ ∃ groups, executionChildGroups e = .ok groups ∧
    assertedChildGroup e groups expected = .ok group

/-- `CancelChildren` of an open group that has no request yet, with a store that takes it. -/
structure RequestsCancel (n : NodeSession) (expected group : ChildGroupRecord)
    (request : ChildCancelRequest) : Prop where
  checked : request.check = .ok ()
  named : NamesGroup n.envelope expected group
  unmerged : group.mergedIDs = []
  fresh : group.cancelRequest = none
  room : ∀ child ∈ group.children, settledChild child = true ∨ ¬(child.revision = maxRevision ∨
    (child.state = .running ∧ maxRevision - 1 ≤ child.revision))
  stored : n.stored = .ok ()

/-- The same request again, with every notification acknowledged. -/
structure RepeatsCancel (n : NodeSession) (expected group : ChildGroupRecord)
    (request : ChildCancelRequest) (notify : ChildCancelNotice → Result Unit) : Prop where
  checked : request.check = .ok ()
  named : NamesGroup n.envelope expected group
  unmerged : group.mergedIDs = []
  recorded : ∃ prior, group.cancelRequest = some prior ∧ prior.id = request.id ∧
    prior.reason = request.reason
  notified : n.notifyChildren notify group request 0 group.children = .ok ()

/-- `ReturnChildBudget` for a settled child without a claim, with a store that takes it. -/
structure ReturnsBudget (n : NodeSession) (expected group : ChildGroupRecord)
    (claim : ChildBudgetReturn) : Prop where
  checked : claim.check = .ok ()
  named : NamesGroup n.envelope expected group
  fresh : group.budgetReturns.get? claim.childID = none
  child : ∃ child, childForBudgetReturn group claim.childID = some child ∧
    child.revision = claim.childRevision ∧
    ∃ returned, computeChildBudgetReturn child claim.used = .ok returned
  stored : n.stored = .ok ()

structure RepeatsReturn (n : NodeSession) (expected group : ChildGroupRecord)
    (claim : ChildBudgetReturn) : Prop where
  checked : claim.check = .ok ()
  named : NamesGroup n.envelope expected group
  recorded : ∃ prior, group.budgetReturns.get? claim.childID = some prior ∧
    prior.decisionID = claim.decisionID ∧ prior.childRevision = claim.childRevision ∧
    prior.reason = claim.reason ∧ prior.evidence = claim.evidence ∧ prior.used.equal claim.used = true

/-- `CancelWait` of a wait that this very request has canceled, with a clean release. -/
structure RepeatsCancelWait (s : HostSession) (r : WaitRunner) (token : ResumeToken)
    (request : WaitCancellation) : Prop where
  checked : request.check token = .ok ()
  early : ∃ source waits, HostSession.waitLoad s.early = .ok source ∧
    r.waitDeliverySource source token.threadID request.generation = .ok waits
  leased : ∃ incarnation, s.acquire token.threadID = .ok incarnation
  recorded : ∃ source waits identity record, HostSession.waitLoad s.loaded = .ok source ∧
    r.waitDeliverySource source token.threadID request.generation = .ok waits ∧
    findWaitGeneration waits request.generation = .ok (identity,record) ∧
    record.state = .canceled ∧ validateWaitCancellationRequest source record token request = .ok ()
  finished : s.finished = .ok ()

/-- An unguarded operation that passes every check before its commit. -/
def DecisionOperation.Admitted : DecisionOperation T E → Prop
  | .resolveActivity s r _ token resolution => ResolvesActivity s r token resolution
  | .cancelChildren node expected request notify => notify.isSome = true ∧
    ∃ n group, node = some n ∧ RequestsCancel n expected group request
  | .returnChildBudget node expected claim =>
    ∃ n group, node = some n ∧ ReturnsBudget n expected group claim
  | _ => True

/-- The operation repeats a decision that is already recorded. -/
def DecisionOperation.Replays : DecisionOperation T E → Prop
  | .cancelChildren node expected request notify =>
    ∃ n f group, node = some n ∧ notify = some f ∧ RepeatsCancel n expected group request f
  | .returnChildBudget node expected claim =>
    ∃ n group, node = some n ∧ RepeatsReturn n expected group claim
  | .cancelWait s r _ token request => RepeatsCancelWait s r token request
  | _ => False

end Operations

section Guarded

variable [Sha256] {T E : Type} {i : Nat} {e t : Execution}

omit [Sha256] in
theorem applyActivityResolution_retry_zero {record : ActivityRecord} {resolution : ActivityResolution}
    {sample : Option Nat} {out : ActivityRecord × Option ActivityRetryScheduleDecision}
    (ha : resolution.action = .retry)
    (h : applyActivityResolution record resolution .zero sample = .ok out) : False := by
  unfold applyActivityResolution at h
  rw [ha] at h
  dsimp only at h
  split at h
  · cases h
  split at h
  · cases h
  · rename_i hrej
    apply hrej
    unfold chooseActivityRetrySchedule
    dsimp only
    split
    · rfl
    · rw [if_pos (by simp [activityScheduleTimeValid])]
      rfl

omit [Sha256] in
theorem commitDecidedChild_zero {groups : ChildGroups} {identity : Text} {g : ChildGroupRecord}
    {c : ChildRecord} (hc : validateChildRecordState c = false)
    (h : commitDecidedChild e groups identity g c = .ok t) : False := by
  simp only [commitDecidedChild,bind_eq_ok,require_eq_ok,exists_const,hc] at h
  exact Bool.noConfusion h.1

omit [Sha256] in
theorem confirmChildCancel_zero (d : ChildCancelConfirmation) (n k : Nat) (c : ChildRecord) :
    validateChildRecordState (confirmChildCancel d n k .zero c) = false := by
  simp [validateChildRecordState,validChildCancelConfirmation,confirmChildCancel]

omit [Sha256] in
theorem resolveWaitingChild_zero (r : ChildWaitResolution) (n k : Nat) (c : ChildRecord) :
    validateChildRecordState (resolveWaitingChild r n k .zero c) = false := by
  simp [validateChildRecordState,validChildWaitResolution,resolveWaitingChild]

theorem confirmChildCancellation_zero {decision : ChildCancelConfirmation}
    (h : confirmChildCancellation i e decision .zero = .ok t) : False := by
  simp only [confirmChildCancellation,bind_eq_ok,require_eq_ok,exists_const] at h
  obtain ⟨_,-,-,groups,-,⟨identity,group⟩,-,-,h⟩ := h
  dsimp only at h
  split at h
  · cases h
  · simp only [bind_eq_ok,require_eq_ok,exists_const] at h
    exact commitDecidedChild_zero (confirmChildCancel_zero _ _ _ _) h.2

theorem resolveChildWait_zero {resolution : ChildWaitResolution}
    (h : resolveChildWait i e resolution .zero = .ok t) : False := by
  simp only [resolveChildWait,bind_eq_ok,require_eq_ok,exists_const] at h
  obtain ⟨_,-,-,groups,-,⟨identity,group⟩,-,h⟩ := h
  dsimp only at h
  split at h
  · cases h
  · simp only [bind_eq_ok,require_eq_ok,exists_const] at h
    exact commitDecidedChild_zero (resolveWaitingChild_zero _ _ _ _) h.2

theorem resolveChildOutcome_zero {resolution : ChildOutcomeResolution} {target : Option Execution}
    (h : resolveChildOutcome i e resolution .zero = .ok target) : False := by
  simp [resolveChildOutcome,bind_eq_ok] at h

theorem prepareWaitDecision_zero {record : DurableWaitRecord} {delivery : WaitDelivery}
    {revision : Nat} {matched : Bool} {out : DurableWaitRecord × WaitDecision × Bool}
    (h : prepareWaitDecision record delivery revision i .zero matched = .ok out) : False := by
  simp [prepareWaitDecision,bind_eq_ok] at h

theorem deliverWait_zero {runner : WaitRunner} {codecs : Codecs T E} {ctx : Nat → Result Unit}
    {id : Text} {delivery : WaitDelivery} {contract : WaitDeliveryContract T}
    {out : WaitDecision × Option Execution}
    (h : deliverWait runner codecs ctx i .zero e id delivery contract = .ok out) : False := by
  simp only [deliverWait,bind_eq_ok] at h
  obtain ⟨_,-,waits,-,⟨identity,record⟩,-,_,-,⟨target,d,replay⟩,hprep,-⟩ := h
  obtain ⟨matched,hprep⟩ := prepareWaitDelivery_eq_ok hprep
  exact prepareWaitDecision_zero hprep

theorem cancelWait_zero {runner : WaitRunner} {ctx : Result Unit} {wall : Time} {token : ResumeToken}
    {request : WaitCancellation} {target : Option Execution}
    (h : cancelWait runner ctx i .zero wall e token request = .ok target) : target = none := by
  rcases cancelWait_eq_ok h with ⟨rfl,-⟩ | ⟨t,-,hc⟩
  · rfl
  · have hzero := hc.clocked
    simp at hzero

theorem cancelWait_replay_iff {runner : WaitRunner} {ctx : Result Unit} {now wall : Time}
    {token : ResumeToken} {request : WaitCancellation} :
    cancelWait runner ctx i now wall e token request = .ok none ↔ request.check token = .ok () ∧
      ∃ waits identity record,
        runner.waitDeliverySource e token.threadID request.generation = .ok waits ∧
        findWaitGeneration waits request.generation = .ok (identity,record) ∧
        record.state = .canceled ∧ validateWaitCancellationRequest e record token request = .ok () := by
  simp only [cancelWait,bind_eq_ok]
  constructor
  · rintro ⟨_,hreq,waits,hsource,⟨identity,record⟩,hfind,_,hval,h⟩
    dsimp only at hval h
    split at h
    · rename_i hs
      exact ⟨hreq,waits,identity,record,hsource,hfind,hs,hval⟩
    · simp [bind_eq_ok] at h
  · rintro ⟨hreq,waits,identity,record,hsource,hfind,hs,hval⟩
    exact ⟨(),hreq,waits,hsource,(identity,record),hfind,(),hval,if_pos hs⟩

end Guarded

section Activity

variable {i : Nat} {e t : Execution} {now : Time} {resolution : ActivityResolution}
  {sample : Option Nat}

theorem applyActivityResolution_iff {record : ActivityRecord} (ha : resolution.action ≠ .retry) :
    (∃ out, applyActivityResolution record resolution now sample = .ok out) ↔ resolution.Plain := by
  unfold applyActivityResolution ActivityResolution.Plain
  cases hact : resolution.action with
  | unset => simp [Flowy.fail]
  | complete =>
    dsimp only
    split
    · rename_i h
      simpa [Flowy.fail] using fun hc => h.resolve_left (not_not.mpr hc)
    · rename_i h
      simp_all
  | fail =>
    dsimp only
    split
    · rename_i h
      simp only [Flowy.fail,reduceCtorEq,exists_false,true_implies,false_iff]
      rintro ⟨-,hc,hn,ho⟩
      simp [hc,hn,ho] at h
    · rename_i h
      simp_all
  | retry => exact (ha hact).elim

theorem closeRunning_marshals {record : ActivityRecord} (h : record.marshals = true) :
    (closeRunning record).marshals = true := by
  unfold closeRunning
  split
  · simp only [ActivityRecord.marshals,Bool.and_eq_true] at h ⊢
    refine ⟨⟨h.1.1,?_⟩,h.2⟩
    have hsame := updateLast_map (fun a => a.startedAt.marshals && a.finishedAt.marshals &&
      a.retrySchedule.all ActivityRetryScheduleDecision.marshals)
      (fun a => { a with state := .unknown, classification := some .ambiguous }) (fun _ => rfl)
      record.attempts
    have hall := congrArg (List.all · id) hsame
    simp only [List.all_map,Function.id_comp] at hall
    exact hall.trans h.1.2
  · exact h

theorem resolveRecord_marshals {revision : Nat} {record resolved : ActivityRecord}
    (ha : resolution.action ≠ .retry) (hm : now.marshals = true) (hr : record.marshals = true)
    (h : resolveRecord i revision record resolution now sample = .ok resolved) :
    resolved.marshals = true := by
  simp only [resolveRecord,bind_eq_ok] at h
  obtain ⟨⟨r,chosen⟩,happ,hr'⟩ := h
  cases hr'
  have hclosed := closeRunning_marshals hr
  have hkeep : r.marshals = true ∧ chosen = none := by
    unfold applyActivityResolution at happ
    simp only [ActivityRecord.marshals,Bool.and_eq_true] at hclosed
    cases hact : resolution.action with
    | unset =>
      rw [hact] at happ
      cases happ
    | complete | fail =>
      rw [hact] at happ
      dsimp only at happ
      split at happ
      · cases happ
      · cases happ
        simp only [ActivityRecord.marshals,Bool.and_eq_true]
        exact ⟨⟨⟨by decide +kernel,hclosed.1.2⟩,hclosed.2⟩,trivial⟩
    | retry => exact (ha hact).elim
  obtain ⟨hkeep,rfl⟩ := hkeep
  simp only [ActivityRecord.marshals,Bool.and_eq_true,List.all_append,List.all_cons,List.all_nil,
    ActivityResolution.decision,hm,Option.all_none] at hkeep ⊢
  exact ⟨hkeep.1,hkeep.2,by simp⟩

variable [Sha256]

theorem resolveActivityTarget_iff (ha : resolution.action ≠ .retry) (hm : now.marshals = true)
    (he : e.journal.all (fun _ r => r.marshals) = true) :
    (∃ t, resolveActivityTarget i e resolution now sample = .ok t) ↔ resolution.check = .ok () ∧
      (∃ found, resolutionActivityRecord e resolution = .ok found) ∧ resolution.Plain := by
  simp only [resolveActivityTarget,prepareActivityResolutionTarget,bind_eq_ok]
  constructor
  · rintro ⟨t,_,hcheck,⟨journal,record⟩,hrec,resolved,hres,-⟩
    simp only [resolveRecord,bind_eq_ok] at hres
    obtain ⟨out,happ,-⟩ := hres
    exact ⟨hcheck,⟨_,hrec⟩,(applyActivityResolution_iff ha).mp ⟨out,happ⟩⟩
  · rintro ⟨hcheck,⟨⟨journal,record⟩,hrec⟩,hplain⟩
    obtain ⟨-,rfl,hget,-⟩ := resolutionActivityRecord_eq_ok hrec
    obtain ⟨out,happ⟩ := (applyActivityResolution_iff ha).mpr hplain
    obtain ⟨resolved,hres⟩ : ∃ resolved,
        resolveRecord i e.revision record resolution now sample = .ok resolved := by
      simp only [resolveRecord,bind_eq_ok]
      exact ⟨_,out,happ,rfl⟩
    have hall := GoMap.all_set (k := resolved.identity) he
      (resolveRecord_marshals ha hm ((GoMap.all_iff _ _).mp he _ _ hget) hres)
    exact ⟨_,(),hcheck,(e.journal,record),hrec,resolved,hres,_,if_pos hall,rfl⟩

end Activity

section Node

variable [Sha256] {i : Nat} {e t : Execution} {now : Time} {expected g : ChildGroupRecord}
  {request : ChildCancelRequest} {claim : ChildBudgetReturn}

omit [Sha256] in
theorem requestChildCancel_iff {child : ChildRecord} :
    (∃ asked, requestChildCancel child = .ok asked) ↔ settledChild child = true ∨
      ¬(child.revision = maxRevision ∨
        (child.state = .running ∧ maxRevision - 1 ≤ child.revision)) := by
  unfold requestChildCancel
  split
  · rename_i hs
    simp [hs]
  · rename_i hs
    simp only [bind_eq_ok,require_eq_ok,exists_const,Except.ok.injEq]
    simp [hs,imp_iff_not_or]

omit [Sha256] in
theorem requestChildCancel_marshals {child asked : ChildRecord}
    (h : requestChildCancel child = .ok asked) : asked.marshals = child.marshals := by
  unfold requestChildCancel at h
  split at h
  · cases h
    rfl
  · simp only [bind_eq_ok,Except.ok.injEq] at h
    obtain ⟨_,-,rfl⟩ := h
    split <;> rfl

theorem NamesGroup.get (h : NamesGroup e expected g) : e.children.get? expected.identity = some g := by
  obtain ⟨-,groups,hgroups,hasserted⟩ := h
  obtain ⟨rfl,-⟩ := executionChildGroups_iff.mp hgroups
  exact (assertedChildGroup_eq_ok hasserted).1

theorem requestChildCancellation_replay_iff :
    requestChildCancellation i e expected request now = .ok (g,none) ↔ request.check = .ok () ∧
      NamesGroup e expected g ∧ g.mergedIDs = [] ∧ ∃ prior, g.cancelRequest = some prior ∧
        prior.id = request.id ∧ prior.reason = request.reason := by
  simp only [requestChildCancellation,bind_eq_ok,require_eq_ok,exists_const,beq_iff_eq]
  constructor
  · rintro ⟨_,hcheck,htext,groups,hgroups,group,hg,hmerged,h⟩
    cases hc : group.cancelRequest with
    | some prior =>
      simp only [hc,bind_eq_ok,require_eq_ok,exists_const,Bool.and_eq_true,beq_iff_eq,Except.ok.injEq,
        Prod.mk.injEq,and_true] at h
      obtain ⟨hprior,rfl⟩ := h
      exact ⟨hcheck,⟨htext,groups,hgroups,hg⟩,hmerged,prior,hc,hprior⟩
    | none =>
      simp only [hc,bind_eq_ok] at h
      obtain ⟨_,-,_,-,h⟩ := h
      cases h
  · rintro ⟨hcheck,⟨htext,groups,hgroups,hg⟩,hmerged,prior,hc,hprior⟩
    refine ⟨(),hcheck,htext,groups,hgroups,g,hg,hmerged,?_⟩
    simp only [hc,bind_eq_ok,require_eq_ok,exists_const,Bool.and_eq_true,beq_iff_eq,and_true]
    exact hprior

theorem requestChildCancellation_commit_iff (hm : now.marshals = true)
    (he : marshalledGroups e.children = true) :
    (∃ g' t, requestChildCancellation i e expected request now = .ok (g',some t)) ↔
      ∃ g, request.check = .ok () ∧ NamesGroup e expected g ∧ g.mergedIDs = [] ∧
        g.cancelRequest = none ∧ ∀ child ∈ g.children, settledChild child = true ∨
          ¬(child.revision = maxRevision ∨
            (child.state = .running ∧ maxRevision - 1 ≤ child.revision)) := by
  constructor
  · rintro ⟨g',t,h⟩
    obtain ⟨hcheck,htext,hgroups,group,children,hg,hmerged,hfresh,hchildren,-⟩ :=
      requestChildCancellation_some_iff.mp h
    refine ⟨group,hcheck,⟨htext,_,hgroups,hg⟩,hmerged,hfresh,fun child hchild =>
      requestChildCancel_iff.mp ?_⟩
    obtain ⟨asked,-,hasked⟩ := forall₂_mem_left (mapM_eq_ok hchildren) hchild
    exact ⟨asked,hasked⟩
  · rintro ⟨g,hcheck,hnamed,hmerged,hfresh,hroom⟩
    have hone := (GoMap.all_iff _ _).mp he _ _ hnamed.get
    simp only [ChildGroupRecord.marshals,Bool.and_eq_true,List.all_eq_true] at hone
    obtain ⟨htext,groups,hgroups,hg⟩ := hnamed
    obtain ⟨rfl,-⟩ := executionChildGroups_iff.mp hgroups
    obtain ⟨children,hchildren⟩ := exists_mapM_ok fun child hchild =>
      requestChildCancel_iff.mpr (hroom child hchild)
    refine ⟨_,_,requestChildCancellation_some_iff.mpr ⟨hcheck,htext,hgroups,g,children,hg,hmerged,hfresh,
      hchildren,rfl,GoMap.all_set he ?_,rfl⟩⟩
    simp only [ChildGroupRecord.marshals,Option.all_some,Bool.and_eq_true,List.all_eq_true]
    refine ⟨⟨fun c' hc' => ?_,hm⟩,hone.2⟩
    obtain ⟨c,hcm,hc⟩ := forall₂_mem_right (mapM_eq_ok hchildren) hc'
    exact (requestChildCancel_marshals hc).trans (hone.1.1 c hcm)

theorem returnChildBudget_replay_iff :
    returnChildBudget i e expected claim now = .ok (g,none) ↔ claim.check = .ok () ∧
      NamesGroup e expected g ∧ ∃ prior, g.budgetReturns.get? claim.childID = some prior ∧
        prior.decisionID = claim.decisionID ∧ prior.childRevision = claim.childRevision ∧
        prior.reason = claim.reason ∧ prior.evidence = claim.evidence ∧
        prior.used.equal claim.used = true := by
  simp only [returnChildBudget,bind_eq_ok,require_eq_ok,exists_const]
  constructor
  · rintro ⟨_,hcheck,htext,groups,hgroups,group,hg,h⟩
    cases hc : group.budgetReturns.get? claim.childID with
    | some prior =>
      simp only [hc,bind_eq_ok,require_eq_ok,exists_const,Bool.and_eq_true,beq_iff_eq,Except.ok.injEq,
        Prod.mk.injEq,and_true] at h
      obtain ⟨⟨⟨⟨⟨hid,hrev⟩,hreason⟩,hevidence⟩,hused⟩,rfl⟩ := h
      exact ⟨hcheck,⟨htext,groups,hgroups,hg⟩,prior,hc,hid,hrev,hreason,hevidence,hused⟩
    | none =>
      cases hchild : childForBudgetReturn group claim.childID with
      | none =>
        simp only [hc,hchild] at h
        cases h
      | some child =>
        simp only [hc,hchild,bind_eq_ok] at h
        obtain ⟨_,-,_,-,_,-,h⟩ := h
        cases h
  · rintro ⟨hcheck,⟨htext,groups,hgroups,hg⟩,prior,hc,hid,hrev,hreason,hevidence,hused⟩
    refine ⟨(),hcheck,htext,groups,hgroups,g,hg,?_⟩
    simp [hc,bind_eq_ok,hid,hrev,hreason,hevidence,hused]

theorem returnChildBudget_commit_iff (hm : now.marshals = true)
    (he : marshalledGroups e.children = true) :
    (∃ g' t, returnChildBudget i e expected claim now = .ok (g',some t)) ↔
      ∃ g, claim.check = .ok () ∧ NamesGroup e expected g ∧
        g.budgetReturns.get? claim.childID = none ∧
        ∃ child, childForBudgetReturn g claim.childID = some child ∧
          child.revision = claim.childRevision ∧
          ∃ returned, computeChildBudgetReturn child claim.used = .ok returned := by
  constructor
  · rintro ⟨g',t,h⟩
    obtain ⟨hcheck,htext,hgroups,group,child,returned,hg,hfresh,hchild,hrev,hret,-⟩ :=
      returnChildBudget_some_iff.mp h
    exact ⟨group,hcheck,⟨htext,_,hgroups,hg⟩,hfresh,child,hchild,hrev,returned,hret⟩
  · rintro ⟨g,hcheck,hnamed,hfresh,child,hchild,hrev,returned,hret⟩
    have hone := (GoMap.all_iff _ _).mp he _ _ hnamed.get
    simp only [ChildGroupRecord.marshals,Bool.and_eq_true] at hone
    obtain ⟨htext,groups,hgroups,hg⟩ := hnamed
    obtain ⟨rfl,-⟩ := executionChildGroups_iff.mp hgroups
    refine ⟨_,_,returnChildBudget_some_iff.mpr ⟨hcheck,htext,hgroups,g,child,returned,hg,hfresh,hchild,hrev,
      hret,rfl,GoMap.all_set he ?_,rfl⟩⟩
    simp only [ChildGroupRecord.marshals,Bool.and_eq_true]
    exact ⟨hone.1,GoMap.all_set hone.2 hm⟩

end Node

section Rejected

variable [Sha256] {i : Nat} {e t : Execution}

theorem validateExecutionCollections_admitted {e : Execution}
    (h : validateExecutionCollections e = .ok ()) : AdmittedJournal e ∧ AdmittedGroups e := by
  simp only [validateExecutionCollections,validateExecutionCollectionsWithWaits,bind_eq_ok] at h
  obtain ⟨waits,⟨_,-,_,-,journal,hj,groups,hg,-⟩,-⟩ := h
  exact ⟨(executionActivityJournal_iff.mp hj).2,(executionChildGroups_iff.mp hg).2⟩

theorem resolveActivityTarget_zero {resolution : ActivityResolution} {sample : Option Nat} {n : Nat}
    (h : resolveActivityTarget i e resolution .zero sample = .ok t) :
    ¬AdmittedJournal { t with revision := n } := by
  intro hadm
  obtain ⟨record,resolved,-,-,hres,rfl⟩ := resolveActivityTarget_eq_ok h
  obtain ⟨d,hds,-,hzero⟩ := resolveRecord_decision .zero sample hres
  have hget : ((e.journal.set record.identity resolved).mapValues ActivityRecord.reread).get?
      record.identity = some resolved.reread := by
    rw [GoMap.get?_mapValues,GoMap.get?_set_self]
    rfl
  have hdec := (ValidRecord.of_valid (hadm.valid _ _ hget)).decisions
  simp only [validateActivityDecisions,Bool.and_eq_true] at hdec
  have hmem : d ∈ resolved.reread.resolutions := by
    rw [show resolved.reread.resolutions = resolved.resolutions from rfl,hds]
    exact List.mem_append_right _ (List.mem_singleton.mpr rfl)
  obtain ⟨seen,a,b,hvd⟩ := validActivityDecisionsFrom_mem hdec.1 hmem
  simp [validActivityDecision,hzero] at hvd

theorem not_admitted_of_invalid (identity : Text) (g : ChildGroupRecord) {n : Nat}
    (hget : t.children.get? identity = some g) (hg : validateChildGroup g = false) :
    ¬AdmittedGroups { t with revision := n } := by
  intro hadm
  have hone := hadm.admitted identity g hget
  simp [admittedChildGroup,hg] at hone

theorem requestChildCancellation_zero {expected g : ChildGroupRecord} {request : ChildCancelRequest}
    {n : Nat} (h : requestChildCancellation i e expected request .zero = .ok (g,some t)) :
    ¬AdmittedGroups { t with revision := n } := by
  obtain ⟨-,-,-,group,children,-,-,-,-,rfl,-,rfl⟩ := requestChildCancellation_some_iff.mp h
  refine not_admitted_of_invalid expected.identity (ChildGroupRecord.reread _)
    (by rw [get?_putGroup,if_pos rfl]) ?_
  refine Bool.eq_false_iff.mpr fun hv => ?_
  obtain ⟨base,-,hvalid⟩ := validateChildGroup_iff.mp hv
  have hcan := hvalid.cancellation
  simp [validChildCancellation,ChildGroupRecord.reread] at hcan

theorem returnChildBudget_zero {expected g : ChildGroupRecord} {claim : ChildBudgetReturn} {n : Nat}
    (h : returnChildBudget i e expected claim .zero = .ok (g,some t)) :
    ¬AdmittedGroups { t with revision := n } := by
  obtain ⟨-,-,-,group,child,returned,-,-,-,-,-,rfl,-,rfl⟩ := returnChildBudget_some_iff.mp h
  refine not_admitted_of_invalid expected.identity (ChildGroupRecord.reread _)
    (by rw [get?_putGroup,if_pos rfl]) ?_
  refine Bool.eq_false_iff.mpr fun hv => ?_
  obtain ⟨base,-,hvalid⟩ := validateChildGroup_iff.mp hv
  have hret := GoMap.all_set_self hvalid.returns
  obtain ⟨c,-,hc⟩ := (Option.any_eq_true _ _).mp hret
  simp at hc

end Rejected

section ZeroClock

variable [Sha256] {T E : Type} {op : DecisionOperation T E}

omit [Sha256] in
theorem rewritable_iff {e : Execution} : rewritable e = true ↔
    e.journal.all (fun _ r => r.marshals) = true ∧ marshalledGroups e.children = true := by
  rw [rewritable,Bool.and_eq_true]

theorem DecisionOperation.replays_run (h : op.Replays) :
    (op.run .zero).Replayed ∧ ∀ now, op.run now = op.run .zero := by
  cases op with
  | cancelChildren node expected request notify =>
    obtain ⟨n,f,g,rfl,rfl,h⟩ := h
    have hedit : ∀ now, requestChildCancellation n.incarnation n.envelope expected request now =
        .ok (g,none) :=
      fun now => requestChildCancellation_replay_iff.mpr ⟨h.checked,h.named,h.unmerged,h.recorded⟩
    refine ⟨(Outcome.map_replayed _ _).mpr (NodeSession.commit_replayed.mpr
      ⟨g,hedit _,_,bind_eq_ok.mpr ⟨(),h.notified,rfl⟩⟩),fun now => ?_⟩
    simp only [run,NodeSession.cancelChildren,hedit]
  | returnChildBudget node expected claim =>
    obtain ⟨n,g,rfl,h⟩ := h
    have hedit : ∀ now, Flowy.returnChildBudget n.incarnation n.envelope expected claim now =
        .ok (g,none) :=
      fun now => returnChildBudget_replay_iff.mpr ⟨h.checked,h.named,h.recorded⟩
    refine ⟨(Outcome.map_replayed _ _).mpr (NodeSession.commit_replayed.mpr ⟨g,hedit _,g,rfl⟩),
      fun now => ?_⟩
    simp only [run,NodeSession.returnChildBudget,hedit]
  | cancelWait s r wall token request =>
    obtain ⟨source,waits,identity,record,hload,hsource,hfind,hs,hval⟩ := h.recorded
    obtain ⟨i,hi⟩ := h.leased
    have hdec : ∀ now, s.Decides
        (s.waitEntry r (request.check token) token.threadID request.generation)
        token.threadID (HostSession.waitLoad s.loaded) (fun i source => do
          let target ← Flowy.cancelWait r (s.ctx 0) i now wall source token request
          .ok ((),target)) source ((),none) :=
      fun now => ⟨HostSession.waitEntry_eq_ok.mpr ⟨h.checked,h.early⟩,hload,i,hi,
        bind_eq_ok.mpr ⟨none,cancelWait_replay_iff.mpr
          ⟨h.checked,waits,identity,record,hsource,hfind,hs,hval⟩,rfl⟩⟩
    refine ⟨(Outcome.map_replayed _ _).mpr
      (HostSession.call_replayed.mpr ⟨h.finished,source,(),hdec _⟩),fun now => ?_⟩
    simp only [run,HostSession.cancelWait,HostSession.call_of_decides (hdec _)]
  | resolveActivity | confirmChildCancellation | resolveChildWait | resolveChildOutcome | deliverWait =>
    exact h.elim

theorem DecisionOperation.guarded_refused (hg : op.guarded = true) (hr : ¬op.Replays) :
    (op.run .zero).Refused := by
  cases op with
  | resolveActivity s r sample token resolution =>
    refine (Outcome.map_refused _ _).mpr
      (HostSession.call_refused_after fun i source target hrun => ?_)
    obtain ⟨record,resolved,-,-,hres,-⟩ := resolveActivityTarget_eq_ok hrun
    simp only [resolveRecord,bind_eq_ok] at hres
    obtain ⟨out,happ,-⟩ := hres
    exact applyActivityResolution_retry_zero (eq_of_beq hg) happ
  | cancelChildren | returnChildBudget => cases hg
  | confirmChildCancellation s r token decision =>
    exact (Outcome.map_refused _ _).mpr
      (HostSession.call_refused_after fun i source target => confirmChildCancellation_zero)
  | resolveChildWait s r token resolution =>
    exact (Outcome.map_refused _ _).mpr
      (HostSession.call_refused_after fun i source target => resolveChildWait_zero)
  | resolveChildOutcome s r token resolution =>
    exact (Outcome.map_refused _ _).mpr
      (HostSession.call_refused_after fun i source target => resolveChildOutcome_zero)
  | deliverWait s r codecs id delivery contract =>
    exact (Outcome.map_refused _ _).mpr
      (HostSession.call_refused fun i source decided h => deliverWait_zero h)
  | cancelWait s r wall token request =>
    refine (Outcome.map_refused _ _).mpr ((Outcome.refused_iff _).mpr ⟨fun h => hr ?_,fun t h => ?_⟩)
    · obtain ⟨hfinished,source,_,hentry,hload,i,hi,h⟩ := HostSession.call_replayed.mp h
      simp only [bind_eq_ok,Except.ok.injEq,Prod.mk.injEq,true_and] at h
      obtain ⟨_,hrun,rfl⟩ := h
      obtain ⟨hcheck,waits,identity,record,hrec⟩ := cancelWait_replay_iff.mp hrun
      exact ⟨hcheck,(HostSession.waitEntry_eq_ok.mp hentry).2,⟨i,hi⟩,
        ⟨source,waits,identity,record,hload,hrec⟩,hfinished⟩
    · obtain ⟨source,_,target,⟨-,-,i,-,h⟩,-⟩ := HostSession.call_committed.mp h
      simp only [bind_eq_ok,Except.ok.injEq,Prod.mk.injEq] at h
      obtain ⟨target',hrun,-,rfl⟩ := h
      cases cancelWait_zero hrun

theorem DecisionOperation.unguarded_replayed (hg : op.guarded = false)
    (h : (op.run .zero).Replayed) : op.Replays := by
  cases op with
  | resolveActivity s r sample token resolution =>
    obtain ⟨-,source,_,-,-,i,-,h⟩ := HostSession.call_replayed.mp ((Outcome.map_replayed _ _).mp h)
    simp [bind_eq_ok] at h
  | cancelChildren node expected request notify =>
    cases node with
    | none => exact (((Outcome.refused_iff _).mp ⟨rfl,_,rfl⟩).1 h).elim
    | some n =>
      cases notify with
      | none => exact (((Outcome.refused_iff _).mp ⟨rfl,_,rfl⟩).1 h).elim
      | some f =>
        obtain ⟨g,hedit,reply,hreply⟩ :=
          NodeSession.commit_replayed.mp ((Outcome.map_replayed _ _).mp h)
        obtain ⟨_,hnotified,-⟩ := bind_eq_ok.mp hreply
        obtain ⟨hcheck,hnamed,hmerged,hrec⟩ := requestChildCancellation_replay_iff.mp hedit
        exact ⟨n,f,g,rfl,rfl,hcheck,hnamed,hmerged,hrec,hnotified⟩
  | returnChildBudget node expected claim =>
    cases node with
    | none => exact (((Outcome.refused_iff _).mp ⟨rfl,_,rfl⟩).1 h).elim
    | some n =>
      obtain ⟨g,hedit,-⟩ := NodeSession.commit_replayed.mp ((Outcome.map_replayed _ _).mp h)
      obtain ⟨hcheck,hnamed,hrec⟩ := returnChildBudget_replay_iff.mp hedit
      exact ⟨n,g,rfl,hcheck,hnamed,hrec⟩
  | confirmChildCancellation | resolveChildWait | resolveChildOutcome | deliverWait | cancelWait =>
    cases hg

theorem DecisionOperation.unguarded_committed_iff (hg : op.guarded = false) :
    (∃ t, (op.run .zero).committed = some t) ↔ op.Admitted := by
  have hzero : Time.zero.marshals = true := by decide +kernel
  cases op with
  | resolveActivity s r sample token resolution =>
    have ha : resolution.action ≠ .retry := by simpa [guarded] using hg
    constructor
    · rintro ⟨t,h⟩
      obtain ⟨source,_,target,⟨hcheck,hload,i,hi,h⟩,hstored,-⟩ := HostSession.call_committed.mp h
      simp only [bind_eq_ok] at h
      obtain ⟨_,hsource,target',hrun,_,hctx,-⟩ := h
      obtain ⟨-,hfound,hplain⟩ := (resolveActivityTarget_iff ha hzero
        (rewritable_iff.mp (s.readable _ hload)).1).mp ⟨_,hrun⟩
      exact ⟨hcheck,⟨i,hi⟩,⟨source,hload,hsource,hfound⟩,hplain,hctx,hstored⟩
    · intro h
      obtain ⟨source,hload,hsource,hfound⟩ := h.source
      obtain ⟨i,hi⟩ := h.leased
      obtain ⟨target,hrun⟩ : ∃ t, resolveActivityTarget i source resolution .zero sample = .ok t :=
        (resolveActivityTarget_iff ha hzero (rewritable_iff.mp (s.readable _ hload)).1).mpr
          ⟨h.checked,hfound,h.plain⟩
      exact ⟨_,HostSession.call_committed.mpr ⟨source,(),target,⟨h.checked,hload,i,hi,
        by simp [hsource,hrun,h.live,bind,Except.bind]⟩,h.stored,rfl⟩⟩
  | cancelChildren node expected request notify =>
    constructor
    · rintro ⟨t,h⟩
      cases node with
      | none => cases h
      | some n =>
        cases notify with
        | none => cases h
        | some f =>
          obtain ⟨g',target,hedit,hstored,-⟩ := NodeSession.commit_committed.mp h
          obtain ⟨g,hcheck,hnamed,hmerged,hfresh,hroom⟩ :=
            (requestChildCancellation_commit_iff hzero (rewritable_iff.mp n.readable).2).mp
              ⟨_,_,hedit⟩
          exact ⟨rfl,n,g,rfl,hcheck,hnamed,hmerged,hfresh,hroom,hstored⟩
    · rintro ⟨hnotify,n,g,rfl,h⟩
      obtain ⟨f,rfl⟩ := Option.isSome_iff_exists.mp hnotify
      obtain ⟨g',target,hedit⟩ : ∃ g' t,
          requestChildCancellation n.incarnation n.envelope expected request .zero = .ok (g',some t) :=
        (requestChildCancellation_commit_iff hzero (rewritable_iff.mp n.readable).2).mpr
          ⟨g,h.checked,h.named,h.unmerged,h.fresh,h.room⟩
      exact ⟨_,NodeSession.commit_committed.mpr ⟨g',target,hedit,h.stored,rfl⟩⟩
  | returnChildBudget node expected claim =>
    constructor
    · rintro ⟨t,h⟩
      cases node with
      | none => cases h
      | some n =>
        obtain ⟨g',target,hedit,hstored,-⟩ := NodeSession.commit_committed.mp h
        obtain ⟨g,hcheck,hnamed,hfresh,hchild⟩ :=
          (returnChildBudget_commit_iff hzero (rewritable_iff.mp n.readable).2).mp ⟨_,_,hedit⟩
        exact ⟨n,g,rfl,hcheck,hnamed,hfresh,hchild,hstored⟩
    · rintro ⟨n,g,rfl,h⟩
      obtain ⟨g',target,hedit⟩ : ∃ g' t,
          Flowy.returnChildBudget n.incarnation n.envelope expected claim .zero = .ok (g',some t) :=
        (returnChildBudget_commit_iff hzero (rewritable_iff.mp n.readable).2).mpr
          ⟨g,h.checked,h.named,h.fresh,h.child⟩
      exact ⟨_,NodeSession.commit_committed.mpr ⟨g',target,hedit,h.stored,rfl⟩⟩
  | confirmChildCancellation | resolveChildWait | resolveChildOutcome | deliverWait | cancelWait =>
    cases hg

theorem DecisionOperation.zero_rejected {t : Execution} (h : (op.run .zero).committed = some t) :
    validateExecutionCollections t ≠ .ok () := by
  intro hvalid
  obtain ⟨hjournal,hgroups⟩ := validateExecutionCollections_admitted hvalid
  have hg : op.guarded = false := by
    refine Bool.eq_false_iff.mpr fun hg => ?_
    by_cases hr : op.Replays
    · simp [(op.replays_run hr).1.1] at h
    · simp [(op.guarded_refused hg hr).1] at h
  cases op with
  | resolveActivity s r sample token resolution =>
    obtain ⟨source,_,target,⟨-,-,i,-,hsec⟩,-,rfl⟩ := HostSession.call_committed.mp h
    simp only [bind_eq_ok,Except.ok.injEq,Prod.mk.injEq,Option.some.injEq] at hsec
    obtain ⟨_,-,target',hrun,_,-,-,rfl⟩ := hsec
    exact resolveActivityTarget_zero hrun hjournal
  | cancelChildren node expected request notify =>
    cases node with
    | none => cases h
    | some n =>
      cases notify with
      | none => cases h
      | some f =>
        obtain ⟨g,target,hedit,-,rfl⟩ := NodeSession.commit_committed.mp h
        exact requestChildCancellation_zero hedit hgroups
  | returnChildBudget node expected claim =>
    cases node with
    | none => cases h
    | some n =>
      obtain ⟨g,target,hedit,-,rfl⟩ := NodeSession.commit_committed.mp h
      exact returnChildBudget_zero hedit hgroups
  | confirmChildCancellation | resolveChildWait | resolveChildOutcome | deliverWait | cancelWait =>
    cases hg

/-- A call at the zero time is an error that commits nothing exactly if it repeats no recorded
decision and either looks at the time or fails a check before its commit. Every envelope that a
call commits at the zero time is rejected when it is loaded, and a repeated decision is answered
at the zero time as at any other. -/
theorem zero_clock_refused_iff (op : DecisionOperation T E) :
    ((op.run .zero).Refused ↔ ¬op.Replays ∧ (op.guarded = true ∨ ¬op.Admitted)) ∧
    (∀ t, (op.run .zero).committed = some t → validateExecutionCollections t ≠ .ok ()) ∧
    (op.Replays → (op.run .zero).Replayed ∧ ∀ now, op.run now = op.run .zero) := by
  refine ⟨⟨fun h => ?_,?_⟩,fun t => op.zero_rejected,op.replays_run⟩
  · obtain ⟨hreplayed,hcommitted⟩ := (Outcome.refused_iff _).mp h
    refine ⟨fun hr => hreplayed (op.replays_run hr).1,?_⟩
    cases hg : op.guarded with
    | true => exact .inl rfl
    | false =>
      refine .inr fun ha => ?_
      obtain ⟨t,ht⟩ := (op.unguarded_committed_iff hg).mpr ha
      exact hcommitted t ht
  · rintro ⟨hr,h⟩
    cases hg : op.guarded with
    | true => exact op.guarded_refused hg hr
    | false =>
      have hadm : ¬op.Admitted := h.resolve_left (by simp [hg])
      exact (Outcome.refused_iff _).mpr ⟨fun hrep => hr (op.unguarded_replayed hg hrep),
        fun t ht => hadm ((op.unguarded_committed_iff hg).mp ⟨t,ht⟩)⟩

end ZeroClock

section Example

attribute [local instance] Sha256.hex

def unknownRecord : ActivityRecord := { decidedRecord with resolutions := [] }

def unknownExecution : Execution :=
  { startedExecution with journal := GoMap.set ∅ unknownRecord.identity unknownRecord }

def unknownSession : HostSession where
  early := .ok unknownExecution
  callerCtx := .ok ()
  acquired := .ok 1
  loaded := .ok unknownExecution
  ctx := fun _ => .ok ()
  stored := .ok ()
  finished := .ok ()
  readable := by
    rintro e ⟨⟩
    decide +kernel

def completeUnknown : DecisionOperation Unit Unit :=
  .resolveActivity unknownSession ⟨.sample,none,none,fun _ => true⟩ none ⟨ascii "x",1⟩ secondDecision

theorem zero_clock_poisons :
    validateExecutionCollections unknownExecution = .ok () ∧
      (completeUnknown.run .zero).result = .ok () ∧
      ∃ t, (completeUnknown.run .zero).committed = some t ∧
        validateExecutionCollections t = fail .executionCorrupt := by
  refine ⟨by decide +kernel,by decide +kernel,?_⟩
  have hok : (completeUnknown.run .zero).committed.any (fun t =>
      decide (validateExecutionCollections t = fail .executionCorrupt)) = true := by
    decide +kernel
  obtain ⟨t,hrun,ht⟩ := (Option.any_eq_true _ _).mp hok
  exact ⟨t,hrun,of_decide_eq_true ht⟩

end Example
end Flowy
