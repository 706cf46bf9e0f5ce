import Flowy.Activity.Call

/-! Manual resolution of an activity whose outcome is unknown. The decision is appended to the
record; attempts are never rewritten as successful dispatches. -/
namespace Flowy

/-- The request checks of `ResolveActivity`. -/
def ActivityResolution.check (resolution : ActivityResolution) : Result Unit :=
  require (resolution.identity != [] && resolution.inputDigest != [] &&
    resolution.implementation != [] &&
    validRuntimeText [resolution.identity,resolution.inputDigest,resolution.implementation,
      resolution.decisionID,resolution.reason,resolution.evidence,resolution.safeRetryContract] &&
    resolution.decisionID != [] && resolution.reason != [] && resolution.evidence != [])
    .activityConflict

def applyActivityResolution (record : ActivityRecord) (resolution : ActivityResolution) (now : Time)
    (sample : Option Nat) : Result (ActivityRecord × Option ActivityRetryScheduleDecision) :=
  let record := { record with classification := none, nextAttemptAt := .zero }
  match resolution.action with
  | .complete =>
    if resolution.safeRetryContract ≠ [] ∨ resolution.notBefore.isZero = false then
      fail .activityConflict
    else .ok ({ record with state := .completed, origin := some .manual,
                            outcome := resolution.outcome },none)
  | .fail =>
    if resolution.outcome ≠ [] ∨ resolution.safeRetryContract ≠ [] ∨
        resolution.notBefore.isZero = false then
      fail .activityConflict
    else .ok ({ record with state := .failed, origin := some .manual,
                            classification := some .nonRetryable },none)
  | .retry =>
    if resolution.outcome ≠ [] ∨ (validateActivityRetry record.retry).isOk = false ∨
        record.retry.safeRetryContract = [] ∨
        resolution.safeRetryContract ≠ record.retry.safeRetryContract ∨
        (record.attempts.length : Int) ≥ record.retry.maxAttempts then
      fail .activityConflict
    else
      let schedule := chooseActivityRetrySchedule record.retry record.attempts.length now
        resolution.notBefore sample
      if schedule.rejection.isSome then fail .activityScheduleInvalid
      else .ok ({ record with state := .prepared, origin := some .manual,
                              classification := some .retryable,
                              nextAttemptAt := schedule.deadline },some schedule)
  | .unset => fail .activityConflict

/-- An attempt still running under an older incarnation is closed as unknown first. -/
def closeRunning (record : ActivityRecord) : ActivityRecord :=
  if record.state = .running then
    { record with attempts := updateLast (fun a =>
        { a with state := .unknown, classification := some .ambiguous }) record.attempts }
  else record

def ActivityResolution.decision (resolution : ActivityResolution) (incarnation revision attempt : Nat)
    (priorState : ActivityState) (now : Time) (chosen : Option ActivityRetryScheduleDecision) :
    ActivityResolutionRecord where
  decisionID := resolution.decisionID
  attempt := attempt
  action := resolution.action
  priorState := priorState
  sourceRevision := revision
  incarnation := incarnation
  reason := resolution.reason
  evidence := resolution.evidence
  safeRetryContract := resolution.safeRetryContract
  retrySchedule := chosen
  decidedAt := now

def resolveRecord (incarnation revision : Nat) (record : ActivityRecord)
    (resolution : ActivityResolution) (now : Time) (sample : Option Nat) : Result ActivityRecord := do
  let (resolved,chosen) ← applyActivityResolution (closeRunning record) resolution now sample
  .ok { resolved with resolutions := resolved.resolutions ++
    [resolution.decision incarnation revision resolved.attempts.length record.state now chosen] }

theorem closeRunning_frame (record : ActivityRecord) :
    (closeRunning record).numbers = record.numbers ∧ (closeRunning record).contract = record.contract := by
  unfold closeRunning
  split
  · exact ⟨updateLast_map _ _ (by intro a; rfl) _,rfl⟩
  · exact ⟨rfl,rfl⟩

theorem applyActivityResolution_frame {record resolved : ActivityRecord} {resolution : ActivityResolution}
    {now : Time} {sample : Option Nat} {chosen : Option ActivityRetryScheduleDecision}
    (h : applyActivityResolution record resolution now sample = .ok (resolved,chosen)) :
    resolved.attempts = record.attempts ∧ resolved.contract = record.contract ∧
      resolved.resolutions = record.resolutions ∧ resolved.origin = some .manual := by
  unfold applyActivityResolution at h
  dsimp only at h
  repeat' split at h
  all_goals cases h
  all_goals exact ⟨rfl,rfl,rfl,rfl⟩

theorem resolveRecord_frame {incarnation revision : Nat} {record resolved : ActivityRecord}
    {resolution : ActivityResolution} {now : Time} {sample : Option Nat}
    (h : resolveRecord incarnation revision record resolution now sample = .ok resolved) :
    resolved.numbers = record.numbers ∧ resolved.contract = record.contract ∧
      resolved.origin = some .manual ∧
      ∃ decision, resolved.resolutions = record.resolutions ++ [decision] := by
  simp only [resolveRecord,bind_eq_ok] at h
  obtain ⟨⟨r,chosen⟩,happ,hr⟩ := h
  cases hr
  obtain ⟨hatt,hcon,hres,horig⟩ := applyActivityResolution_frame happ
  obtain ⟨hnum,hcon'⟩ := closeRunning_frame record
  have hprior : (closeRunning record).resolutions = record.resolutions := by
    unfold closeRunning
    split <;> rfl
  refine ⟨?_,hcon.trans hcon',horig,_,congrArg (· ++ _) (hres.trans hprior)⟩
  exact (congrArg (List.map ActivityAttempt.number) hatt).trans hnum

section Sections

variable {C W : Type}

def prepareActivityResolutionTarget (incarnation : Nat) (source : ExecutionEnvelope Journal C W)
    (journal : Journal) (record : ActivityRecord) (resolution : ActivityResolution) (now : Time)
    (sample : Option Nat) : Result (ExecutionEnvelope Journal C W) := do
  let resolved ← resolveRecord incarnation source.revision record resolution now sample
  let payload ← marshalJournal (journal.set resolved.identity resolved)
  .ok { source with journal := payload }

theorem prepareActivityResolutionTarget_eq_ok {incarnation : Nat}
    {source target : ExecutionEnvelope Journal C W} {journal : Journal} {record : ActivityRecord}
    {resolution : ActivityResolution} {now : Time} {sample : Option Nat}
    (h : prepareActivityResolutionTarget incarnation source journal record resolution now sample =
      .ok target) :
    ∃ resolved, resolveRecord incarnation source.revision record resolution now sample = .ok resolved ∧
      target = { source with
        journal := (journal.set record.identity resolved).mapValues ActivityRecord.reread } := by
  simp only [prepareActivityResolutionTarget,bind_eq_ok] at h
  obtain ⟨resolved,hres,payload,hpay,ht⟩ := h
  have hid : resolved.identity = record.identity :=
    congrArg ActivityContract.identity (resolveRecord_frame hres).2.1
  refine ⟨resolved,hres,?_⟩
  unfold marshalJournal at hpay
  split at hpay
  · cases hpay
    cases ht
    rw [hid]
  · cases hpay

variable [Sha256]

def resolutionActivityRecord (source : ExecutionEnvelope Journal C W) (resolution : ActivityResolution) :
    Result (Journal × ActivityRecord) := do
  let journal ← executionActivityJournal source
  match journal.get? resolution.identity with
  | none => fail .activityConflict
  | some record =>
    if record.identity ≠ boundActivityIdentity source record.key ∨
        record.inputDigest ≠ resolution.inputDigest ∨
        record.implementation ≠ resolution.implementation ∨ record.attempts = [] then
      fail .activityConflict
    else if record.resolutions.any (fun prior => prior.decisionID == resolution.decisionID) then
      fail .activityConflict
    else if record.state ≠ .unknown ∧ record.state ≠ .running then fail .activityConflict
    else .ok (journal,record)

theorem resolutionActivityRecord_eq_ok {source : ExecutionEnvelope Journal C W}
    {resolution : ActivityResolution} {journal : Journal} {record : ActivityRecord}
    (h : resolutionActivityRecord source resolution = .ok (journal,record)) :
    AdmittedJournal source ∧ journal = source.journal ∧
      source.journal.get? record.identity = some record ∧
      (record.state = .running ∨ record.state = .unknown) ∧ record.attempts ≠ [] := by
  unfold resolutionActivityRecord at h
  obtain ⟨j,hj,hf⟩ := bind_eq_ok.mp h
  clear h
  obtain ⟨rfl,hadm⟩ := executionActivityJournal_eq_ok hj
  refine ⟨hadm,?_⟩
  cases hr : source.journal.get? resolution.identity with
  | none =>
    rw [hr] at hf
    cases hf
  | some r =>
    rw [hr] at hf
    dsimp only at hf
    split at hf
    · cases hf
    split at hf
    · cases hf
    split at hf
    · cases hf
    · rename_i hmatch _ hstate
      cases hf
      refine ⟨rfl,by rwa [hadm.keyed _ _ hr],?_,fun ha => hmatch (.inr (.inr (.inr ha)))⟩
      rcases Decidable.not_and_iff_or_not.mp hstate with hs | hs
      · exact .inr (not_not.mp hs)
      · exact .inl (not_not.mp hs)

end Sections
end Flowy
