import Flowy.Activity.Schedule

/-! Admission of a stored journal: what every record must look like, alone and inside its
envelope. Each read of the journal runs these checks, and so does each write of a record. -/
namespace Flowy

def validateActivityAttempt (attempt : ActivityAttempt) : Bool :=
  match attempt.state with
  | .prepared => false
  | .running => attempt.classification.isNone && attempt.finishedAt.isZero && attempt.error == []
  | .completed => attempt.classification.isNone && !attempt.finishedAt.isZero && attempt.error == []
  | .failed => (attempt.classification == some .retryable ||
      attempt.classification == some .nonRetryable) && !attempt.finishedAt.isZero
  | .unknown => attempt.classification == some .ambiguous

def validActivityDecisionAction (decision : ActivityResolutionRecord) (policy : ActivityRetryPolicy) :
    Bool :=
  match decision.action with
  | .complete | .fail => decision.safeRetryContract == [] && decision.retrySchedule.isNone
  | .retry => decision.safeRetryContract != [] &&
      decision.safeRetryContract == policy.safeRetryContract &&
      decision.attempt < policy.maxAttempts &&
      validActivityRetryScheduleDecision policy decision.retrySchedule &&
      decision.retrySchedule.all fun s => s.rejection.isNone && s.attempt == decision.attempt &&
        s.preparedAt == decision.decidedAt
  | .unset => false

def validManualActivityOrigin (record : ActivityRecord) : Bool :=
  match record.resolutions.getLast? with
  | none => false
  | some last =>
    match record.state with
    | .completed => last.action == .complete && last.attempt == record.attempts.length
    | .failed => last.action == .fail && last.attempt == record.attempts.length
    | .prepared => last.action == .retry && last.attempt == record.attempts.length
    | .running | .unknown => last.action == .retry && last.attempt < record.attempts.length

def validActivityDecision (record : ActivityRecord) (seen : List Text) (previousAttempt : Nat)
    (previousRevision : Nat) (decision : ActivityResolutionRecord) : Bool :=
  !(seen.contains decision.decisionID || decision.decisionID == [] || decision.reason == [] ||
    decision.evidence == [] || decision.decidedAt.isZero || decision.incarnation == 0 ||
    decision.sourceRevision ≤ previousRevision || decision.attempt ≤ previousAttempt ||
    decision.attempt > record.attempts.length ||
    (decision.priorState != .unknown && decision.priorState != .running)) &&
  (record.attempts[decision.attempt - 1]?.any fun a => a.state == .unknown) &&
  validActivityDecisionAction decision record.retry &&
  !(decision.action == .retry && decision.attempt < record.attempts.length &&
    record.attempts[decision.attempt]?.any fun a =>
      decision.retrySchedule.any fun s => a.startedAt.before s.deadline) &&
  !(decision.action != .retry && decision.attempt != record.attempts.length)

def validActivityDecisionsFrom (record : ActivityRecord) :
    List ActivityResolutionRecord → List Text → Nat → Nat → Bool
  | [], _, _, _ => true
  | decision :: rest, seen, previousAttempt, previousRevision =>
    validActivityDecision record seen previousAttempt previousRevision decision &&
      validActivityDecisionsFrom record rest (decision.decisionID :: seen) decision.attempt
        decision.sourceRevision

def validateActivityDecisions (record : ActivityRecord) : Bool :=
  validActivityDecisionsFrom record record.resolutions [] 0 0 &&
    (record.origin != some .manual || validManualActivityOrigin record)

def validateActivityRecordSchedules (record : ActivityRecord) : Bool :=
  record.attempts.zipIdx.all fun (attempt,index) =>
    match attempt.retrySchedule with
    | none => !(attempt.state == .failed && attempt.classification == some .retryable &&
        attempt.number < record.retry.maxAttempts)
    | some choice =>
      attempt.state == .failed && attempt.classification == some .retryable &&
        choice.attempt == attempt.number && choice.preparedAt == attempt.finishedAt &&
        validActivityRetryScheduleDecision record.retry (some choice) &&
        match record.attempts[index + 1]? with
        | none => true
        | some next => choice.rejection.isNone && !next.startedAt.before choice.deadline

def hasActivityRetryDecision (record : ActivityRecord) (attempt : Nat) : Bool :=
  record.resolutions.any fun decision => decision.attempt == attempt && decision.action == .retry

def validateActivityAttemptHistory (record : ActivityRecord) : Bool :=
  record.attempts.dropLast.all fun attempt =>
    record.retry.safeRetryContract != [] &&
      match attempt.state with
      | .failed => attempt.classification == some .retryable
      | .unknown => hasActivityRetryDecision record attempt.number
      | .prepared | .running | .completed => false

def validPreparedActivitySchedule (record : ActivityRecord) (last : ActivityAttempt) : Bool :=
  let choice := if record.origin == some .manual then
      record.resolutions.getLast?.bind fun d => d.retrySchedule
    else last.retrySchedule
  choice.any fun s => s.rejection.isNone && s.deadline == record.nextAttemptAt

def validPreparedActivity (record : ActivityRecord) (last : ActivityAttempt) : Bool :=
  record.classification == some .retryable && !record.nextAttemptAt.isZero &&
    record.retry.safeRetryContract != [] && record.attempts.length < record.retry.maxAttempts &&
    (last.state == .failed || (record.origin == some .manual && last.state == .unknown)) &&
    record.outcome == [] && validPreparedActivitySchedule record last

def validCompletedActivity (record : ActivityRecord) (last : ActivityAttempt) : Bool :=
  record.nextAttemptAt.isZero &&
    (((record.origin == some .live || record.origin == some .simulated) && last.state == .completed) ||
      ((record.origin == some .reconciled || record.origin == some .manual) && last.state == .unknown))

def validFailedActivity (record : ActivityRecord) (last : ActivityAttempt) : Bool :=
  record.nextAttemptAt.isZero && record.outcome == [] &&
    (record.classification == some .nonRetryable || record.classification == some .retryable) &&
    (last.state == .failed || (record.origin == some .manual && last.state == .unknown))

def validateActivityRecordState (record : ActivityRecord) : Bool :=
  match record.attempts.getLast? with
  | none => record.state == .prepared && record.classification.isNone &&
      record.nextAttemptAt.isZero && record.origin.isNone && record.outcome == []
  | some last =>
    match record.state with
    | .prepared => validPreparedActivity record last
    | .running => last.state == .running && record.classification.isNone &&
        record.nextAttemptAt.isZero && record.outcome == []
    | .unknown => last.state == .unknown && record.classification == some .ambiguous &&
        record.nextAttemptAt.isZero && record.outcome == []
    | .completed => validCompletedActivity record last
    | .failed => validFailedActivity record last

/-- At most one attempt without a policy, at most `maxAttempts` with one. -/
def ActivityRetryPolicy.limit (policy : ActivityRetryPolicy) : Int :=
  if policy.maxAttempts = 0 then 1 else policy.maxAttempts

def validActivityAttempts (record : ActivityRecord) : Bool :=
  record.attempts.zipIdx.all fun (attempt,index) =>
    attempt.number == index + 1 && attempt.incarnation != 0 && !attempt.startedAt.isZero &&
      validateActivityAttempt attempt &&
      !(attempt.state == .running && index != record.attempts.length - 1)

section Admission

variable [Sha256] {C W : Type}

def validActivityAddress (record : ActivityRecord) : Bool :=
  record.executionID != [] && record.node != [] && record.activation != 0 &&
    validRuntimeText [record.executionID,record.node,record.key] &&
    record.identity ==
      activityAddressIdentity record.executionID record.node record.activation record.key

def validActivityRecord (record : ActivityRecord) : Bool :=
  validActivityAddress record && Sha256.wellFormed record.inputDigest && record.key != [] &&
    record.implementation != [] && validRuntimeText [record.implementation] &&
    (validateActivityRetry record.retry).isOk && validActivityAttempts record &&
    record.attempts.length ≤ record.retry.limit && validateActivityDecisions record &&
    validateActivityRecordSchedules record && validateActivityAttemptHistory record &&
    validateActivityRecordState record

def validateActivityRecord (record : ActivityRecord) : Result Unit :=
  require (validActivityRecord record) .executionCorrupt

/-- The journal is kept decoded; what decoding checks is checked here. -/
def decodeActivityJournal (journal : Journal) : Result Journal := do
  require (journal.all fun identity record =>
    identity == record.identity && validActivityRecord record) .executionCorrupt
  .ok journal

def validateActivityReferences (envelope : ExecutionEnvelope Journal C W) (journal : Journal) :
    Result Unit := do
  require (envelope.progress.journalReferences.all fun key identity =>
    (journal.get? identity).any fun record =>
      key == record.key && record.activation == envelope.activation) .executionCorrupt
  require (journal.all fun _ record =>
    !activityUnresolved record.state || (record.activation == envelope.activation &&
      boundActivityIdentity envelope record.key == record.identity)) .executionCorrupt

def ForkLineage.isFake (fork : Option ForkLineage) : Bool :=
  fork.any fun lineage => lineage.mode == .fake

def admissibleActivity (envelope : ExecutionEnvelope Journal C W) (record : ActivityRecord) : Bool :=
  !(record.origin == some .simulated && !ForkLineage.isFake envelope.fork) &&
    !(record.origin == some .live && ForkLineage.isFake envelope.fork) &&
    record.executionID == envelope.executionID && !(record.activation > envelope.activation) &&
    record.resolutions.all fun decision => !(decision.sourceRevision ≥ envelope.revision)

def executionActivityJournal (envelope : ExecutionEnvelope Journal C W) : Result Journal := do
  let journal ← decodeActivityJournal envelope.journal
  require (journal.all fun _ record => admissibleActivity envelope record) .executionCorrupt
  validateActivityReferences envelope journal
  .ok journal

structure AdmittedJournal (envelope : ExecutionEnvelope Journal C W) : Prop where
  keyed : ∀ id r, envelope.journal.get? id = some r → r.identity = id
  valid : ∀ id r, envelope.journal.get? id = some r → validActivityRecord r = true
  admissible : ∀ id r, envelope.journal.get? id = some r → admissibleActivity envelope r = true
  bound : ∀ id r, envelope.journal.get? id = some r → activityUnresolved r.state = true →
    r.activation = envelope.activation ∧ boundActivityIdentity envelope r.key = id
  referenced : ∀ key id, envelope.progress.journalReferences.get? key = some id →
    ∃ r, envelope.journal.get? id = some r ∧ key = r.key ∧ r.activation = envelope.activation

omit [Sha256] in
theorem admissibleActivity_later {e t : ExecutionEnvelope Journal C W} {record : ActivityRecord}
    (hfork : t.fork = e.fork) (hid : t.executionID = e.executionID) (hact : e.activation ≤ t.activation)
    (hrev : e.revision ≤ t.revision) (h : admissibleActivity e record = true) :
    admissibleActivity t record = true := by
  simp only [admissibleActivity,hfork,hid,Bool.and_eq_true,Bool.not_eq_true',decide_eq_false_iff_not,
    List.all_eq_true] at h ⊢
  obtain ⟨⟨hhead,ha⟩,hdec⟩ := h
  refine ⟨⟨hhead,by omega⟩,fun d hd => ?_⟩
  have hsrc := hdec d hd
  omega

theorem executionActivityJournal_iff {envelope : ExecutionEnvelope Journal C W} {journal : Journal} :
    executionActivityJournal envelope = .ok journal ↔
      journal = envelope.journal ∧ AdmittedJournal envelope := by
  simp only [executionActivityJournal,decodeActivityJournal,validateActivityReferences,bind_eq_ok,
    require_eq_ok,exists_const,Except.ok.injEq,GoMap.all_iff]
  constructor
  · rintro ⟨j,⟨hdec,rfl⟩,hadm,⟨href,hbound⟩,rfl⟩
    refine ⟨rfl,⟨?_,?_,hadm,?_,?_⟩⟩
    · intro id r hr
      exact (eq_of_beq (Bool.and_eq_true_iff.mp (hdec id r hr)).1).symm
    · intro id r hr
      exact (Bool.and_eq_true_iff.mp (hdec id r hr)).2
    · intro id r hr hu
      have hb := hbound id r hr
      have hid : r.identity = id := (eq_of_beq (Bool.and_eq_true_iff.mp (hdec id r hr)).1).symm
      simp only [hu,Bool.not_true,Bool.false_or,Bool.and_eq_true,beq_iff_eq] at hb
      exact ⟨hb.1,hb.2.trans hid⟩
    · intro key id hk
      have hr := href key id hk
      simp only [Option.any_eq_true_iff_get] at hr
      obtain ⟨hsome,hr⟩ := hr
      simp only [Bool.and_eq_true,beq_iff_eq] at hr
      exact ⟨_,(Option.some_get hsome).symm,hr⟩
  · rintro ⟨rfl,h⟩
    refine ⟨_,⟨fun id r hr => ?_,rfl⟩,h.admissible,⟨fun key id hk => ?_,fun id r hr => ?_⟩,rfl⟩
    · simp [h.keyed id r hr,h.valid id r hr]
    · obtain ⟨r,hr,hkey,hact⟩ := h.referenced key id hk
      simp [hr,hkey,hact]
    · cases hu : activityUnresolved r.state with
      | false => rfl
      | true =>
        obtain ⟨hact,hb⟩ := h.bound id r hr hu
        simp [hact,hb,h.keyed id r hr]

theorem executionActivityJournal_eq_ok {envelope : ExecutionEnvelope Journal C W} {journal : Journal}
    (h : executionActivityJournal envelope = .ok journal) :
    journal = envelope.journal ∧ AdmittedJournal envelope :=
  executionActivityJournal_iff.mp h

end Admission

section Records

variable {record : ActivityRecord}

theorem ActivityRetryPolicy.limit_le_max (policy : ActivityRetryPolicy) :
    policy.limit ≤ max 1 policy.maxAttempts := by
  unfold limit
  split <;> omega

theorem validActivityAttempts_getElem? (h : validActivityAttempts record = true) {i : Nat}
    {a : ActivityAttempt} (ha : record.attempts[i]? = some a) :
    a.number = i + 1 ∧ a.incarnation ≠ 0 ∧ validateActivityAttempt a = true ∧
      (a.state = .running → i = record.attempts.length - 1) := by
  have hmem : (a,i) ∈ record.attempts.zipIdx := List.mem_zipIdx_iff_getElem?.mpr ha
  have hv := List.all_eq_true.mp h _ hmem
  simp only [Bool.and_eq_true,beq_iff_eq,bne_iff_ne,Bool.not_eq_true',Bool.and_eq_false_iff] at hv
  refine ⟨hv.1.1.1.1,hv.1.1.1.2,hv.1.2,fun hrun => ?_⟩
  rcases hv.2 with hs | hi
  · simp [hrun] at hs
  · simpa using hi

theorem validActivityDecisionsFrom_mem {ds : List ActivityResolutionRecord} {seen : List Text}
    {n m : Nat} (h : validActivityDecisionsFrom record ds seen n m = true)
    {d : ActivityResolutionRecord} (hd : d ∈ ds) :
    ∃ seen n m, validActivityDecision record seen n m d = true := by
  induction ds generalizing seen n m with
  | nil => simp at hd
  | cons d' ds ih =>
    simp only [validActivityDecisionsFrom,Bool.and_eq_true] at h
    rcases List.mem_cons.mp hd with rfl | hd
    · exact ⟨seen,n,m,h.1⟩
    · exact ih h.2 hd

theorem validActivityRetryScheduleDecision_deadline {policy : ActivityRetryPolicy}
    {d : ActivityRetryScheduleDecision} (h : validActivityRetryScheduleDecision policy (some d) = true)
    (hr : d.rejection = none) : activityScheduleTimeValid d.deadline = true := by
  simp only [validActivityRetryScheduleDecision,hr,Bool.and_eq_true] at h
  exact h.2.1.2

end Records

section ValidRecord

variable [Sha256] {record : ActivityRecord}

structure ValidRecord (record : ActivityRecord) : Prop where
  address : validActivityAddress record = true
  attempts : validActivityAttempts record = true
  length_le : (record.attempts.length : Int) ≤ record.retry.limit
  decisions : validateActivityDecisions record = true
  schedules : validateActivityRecordSchedules record = true
  history : validateActivityAttemptHistory record = true
  state : validateActivityRecordState record = true

theorem ValidRecord.of_valid (h : validActivityRecord record = true) : ValidRecord record := by
  simp only [validActivityRecord,Bool.and_eq_true,decide_eq_true_eq] at h
  obtain ⟨⟨⟨⟨⟨⟨⟨⟨⟨⟨⟨h1,-⟩,-⟩,-⟩,-⟩,-⟩,h2⟩,h3⟩,h4⟩,h5⟩,h6⟩,h7⟩ := h
  exact ⟨h1,h2,h3,h4,h5,h6,h7⟩

theorem ValidRecord.nextAttemptAt_valid (h : ValidRecord record) (hs : record.state = .prepared)
    (hn : record.nextAttemptAt.isZero = false) : activityScheduleTimeValid record.nextAttemptAt = true := by
  have hstate := h.state
  unfold validateActivityRecordState at hstate
  cases hlast : record.attempts.getLast? with
  | none => simp [hlast,hn] at hstate
  | some last =>
    simp only [hlast,hs,validPreparedActivity,Bool.and_eq_true,validPreparedActivitySchedule] at hstate
    obtain ⟨-,hchoice⟩ := hstate
    rw [Option.any_eq_true] at hchoice
    obtain ⟨choice,hsome,hchoice⟩ := hchoice
    simp only [Bool.and_eq_true,Option.isNone_iff_eq_none,beq_iff_eq] at hchoice
    rw [← hchoice.2]
    -- the choice is part of the last decision or of the last attempt
    split at hsome
    · obtain ⟨decision,hd,hchosen⟩ := Option.bind_eq_some_iff.mp hsome
      have hds := h.decisions
      simp only [validateActivityDecisions,Bool.and_eq_true] at hds
      obtain ⟨seen,n,m,hvalid⟩ := validActivityDecisionsFrom_mem hds.1 (List.mem_of_getLast? hd)
      simp only [validActivityDecision,Bool.and_eq_true] at hvalid
      have haction := hvalid.1.1.2
      unfold validActivityDecisionAction at haction
      split at haction
      · simp [hchosen] at haction
      · simp [hchosen] at haction
      · simp only [hchosen,Bool.and_eq_true] at haction
        exact validActivityRetryScheduleDecision_deadline haction.1.2 hchoice.1
      · cases haction
    · obtain ⟨i,hi⟩ := List.getElem?_of_mem (List.mem_of_getLast? hlast)
      have hmem : (last,i) ∈ record.attempts.zipIdx := List.mem_zipIdx_iff_getElem?.mpr hi
      have hvalid := List.all_eq_true.mp h.schedules _ hmem
      simp only [hsome,Bool.and_eq_true] at hvalid
      exact validActivityRetryScheduleDecision_deadline hvalid.1.2 hchoice.1

end ValidRecord
end Flowy
