import Flowy.Activity.Integrity

/-! The activity boundary: one call reads the journal, commits intent and a running attempt, and
only then dispatches; its outcome is committed by a second critical section. Sections between two
storage operations are functions of the cached envelope. -/
namespace Flowy

/-- A host operation without its callbacks; `reconcile` and `classify` say whether the optional
ones are given. -/
structure ActivityRequest where
  key : Text
  implementation : Text
  input : Bytes
  retry : ActivityRetryPolicy
  reconcile : Bool
  classify : Bool
deriving DecidableEq, Repr

structure ActivityOutcome where
  payload : Bytes
  origin : ActivityOrigin
  revision : Nat
  identity : Text
deriving DecidableEq, Repr

/-- The checks of `CallActivity` before it reaches its backend. -/
def ActivityRequest.check (request : ActivityRequest) : Result Unit := do
  require (request.key != [] && request.implementation != [] &&
    validRuntimeText [request.key,request.implementation]) .executionCapability
  validateActivityRetry request.retry

def activityRetryPendingError (identity : Text) (deadline : Time) : Err :=
  ⟨Sentinel.activityRetryPending.message ++ ascii ": " ++ identity ++ ascii " at " ++ deadline.format,
    [.activityRetryPending]⟩

def activityRecordError (record : ActivityRecord) : Err :=
  match record.state with
  | .prepared => activityRetryPendingError record.identity record.nextAttemptAt
  | .failed =>
    if record.attempts.getLast?.any (fun a => a.retrySchedule.any fun s => s.rejection.isSome) then
      .of .activityScheduleInvalid
    else if record.classification = some .retryable then .of .activityAttemptsExhausted
    else .of .activityFailed
  | .running | .completed | .unknown => .of .activityUnknown

def preparedActivityError (record : ActivityRecord) (now : Time) : Option Err :=
  if record.state = .failed then some (activityRecordError record)
  else if record.state ≠ .prepared then some (.of .activityConflict)
  else if record.attempts = [] then none
  else if record.attempts.length ≥ record.retry.maxAttempts || record.retry.safeRetryContract == [] ||
      record.nextAttemptAt.isZero then some (.of .activityConflict)
  else if now.before record.nextAttemptAt then some (activityRecordError record)
  else none

theorem preparedActivityError_eq_none {record : ActivityRecord} {now : Time}
    (h : preparedActivityError record now = none) : record.state = .prepared := by
  unfold preparedActivityError at h
  split at h
  · cases h
  · split at h
    · cases h
    · rename_i hs
      exact not_not.mp hs

def updateLast (f : ActivityAttempt → ActivityAttempt) (attempts : List ActivityAttempt) :
    List ActivityAttempt :=
  match attempts.getLast? with
  | none => []
  | some last => attempts.dropLast ++ [f last]

def startAttempt (incarnation : Nat) (now : Time) (record : ActivityRecord) : ActivityRecord :=
  { record with
    state := .running
    -- decisions stay in `resolutions`; the origin describes the current outcome only
    origin := none
    nextAttemptAt := .zero
    classification := none
    attempts := record.attempts ++ [⟨record.attempts.length + 1,incarnation,.running,[],none,now,none,
      .zero⟩] }

def abandonAttempt (record : ActivityRecord) : ActivityRecord :=
  { record with
    state := .unknown
    classification := some .ambiguous
    attempts := updateLast (fun a => { a with state := .unknown, classification := some .ambiguous })
      record.attempts }

def closeAttempt (record : ActivityRecord) (err : Err) (failureClass : ActivityFailureClass)
    (now : Time) (state : ActivityState) (choice : Option ActivityRetryScheduleDecision) :
    ActivityRecord :=
  { record with
    state := state
    classification := some failureClass
    nextAttemptAt := .zero
    attempts := updateLast (fun a => { a with
      state := state, classification := some failureClass, error := err.message, finishedAt := now,
      retrySchedule := choice.orElse fun _ => a.retrySchedule }) record.attempts }

/-- A retryable failure with attempts left: prepared again unless the schedule was refused. -/
def scheduleRetry (record : ActivityRecord) (err : Err) (now : Time)
    (chosen : ActivityRetryScheduleDecision) : ActivityRecord :=
  if chosen.rejection.isNone then
    { closeAttempt record err .retryable now .failed (some chosen) with
      state := .prepared, nextAttemptAt := chosen.deadline }
  else closeAttempt record err .retryable now .failed (some chosen)

/-- `now` is the clock and `sample` the random source at the end of the dispatch. -/
def recordActivityFailure (record : ActivityRecord) (err : Err) (decision : ActivityFailureDecision)
    (now : Time) (sample : Option Nat) : ActivityRecord :=
  match decision.failureClass with
  | .retryable =>
    if (record.attempts.length : Int) < record.retry.maxAttempts then
      scheduleRetry record err now (chooseActivityRetrySchedule record.retry record.attempts.length
        now decision.notBefore sample)
    else closeAttempt record err .retryable now .failed none
  | .nonRetryable => closeAttempt record err .nonRetryable now .failed none
  | .ambiguous => closeAttempt record err .ambiguous now .unknown none

/-- Success of a dispatch, or of a reconciliation, which leaves the abandoned attempt as it is. -/
def recordActivitySuccess (record : ActivityRecord) (payload : Bytes) (origin : ActivityOrigin)
    (now : Time) : ActivityRecord :=
  { record with
    state := .completed
    outcome := payload
    origin := some origin
    attempts := if origin = .reconciled ∨ origin = .manual then record.attempts
      else updateLast (fun a => { a with state := .completed, finishedAt := now }) record.attempts }

section Sections

variable [Sha256] {C W : Type}

def prepareActivity (envelope : ExecutionEnvelope Journal C W) (request : ActivityRequest) :
    ActivityRecord where
  identity := boundActivityIdentity envelope request.key
  executionID := envelope.executionID
  node := envelope.progress.executionPointer
  activation := envelope.activation
  key := request.key
  inputDigest := Sha256.sum request.input
  implementation := request.implementation
  state := .prepared
  outcome := []
  origin := none
  attempts := []
  retry := request.retry
  classification := none
  nextAttemptAt := .zero
  resolutions := []

/-- Validate, put the record into the journal and encode it. The result is the envelope offered to
storage at the cached revision. -/
def persistActivity (envelope : ExecutionEnvelope Journal C W) (journal : Journal)
    (record : ActivityRecord) : Result (ExecutionEnvelope Journal C W) := do
  validateActivityRecord record
  let payload ← marshalJournal (journal.set record.identity record)
  .ok { envelope with journal := payload }

inductive CallSection
  | ret (result : Result ActivityOutcome)
  | prepare (journal : Journal) (record : ActivityRecord)
  | start (journal : Journal) (record : ActivityRecord)
  | abandon (journal : Journal) (record : ActivityRecord)
  | reconcile (record : ActivityRecord)

/-- `recoverActivityLocked` up to its commit or its callback. -/
def recoverActivity (incarnation : Nat) (request : ActivityRequest) (journal : Journal)
    (record : ActivityRecord) : CallSection :=
  if record.state = .running then
    match record.attempts.getLast? with
    | none => .ret (fail .activityConflict)
    | some last =>
      if last.incarnation = incarnation then .ret (fail .activityBusy) else .abandon journal record
  else if request.reconcile then .reconcile record
  else .ret (fail .activityUnknown)

def callActivity (incarnation : Nat) (envelope : ExecutionEnvelope Journal C W)
    (request : ActivityRequest) (now : Time) : CallSection :=
  match executionActivityJournal envelope with
  | .error err => .ret (.error err)
  | .ok journal =>
    match journal.get? (boundActivityIdentity envelope request.key) with
    | none => .prepare journal (prepareActivity envelope request)
    | some record =>
      if record.inputDigest ≠ Sha256.sum request.input ∨
          record.implementation ≠ request.implementation ∨ record.retry ≠ request.retry then
        .ret (fail .activityConflict)
      else if record.state = .completed then
        .ret (.ok ⟨record.outcome,.replayed,envelope.revision,record.identity⟩)
      else if record.state = .running ∨ record.state = .unknown then
        recoverActivity incarnation request journal record
      else match preparedActivityError record now with
        | some err => .ret (.error err)
        | none => .start journal record

inductive Callback
  | returned (payload : Bytes)
  | raised (err : Err) (decision : ActivityFailureDecision)

/-- `finishActivityLocked` up to its commit: an immediate answer or the record to persist. -/
def finishActivity (envelope : ExecutionEnvelope Journal C W) (identity : Text) (callback : Callback)
    (origin : ActivityOrigin) (now : Time) (sample : Option Nat) :
    Result (ActivityOutcome ⊕ (Journal × ActivityRecord)) := do
  let journal ← executionActivityJournal envelope
  match journal.get? identity with
  | none => fail .activityConflict
  | some record =>
    if record.attempts = [] then fail .activityConflict
    else match record.state, callback with
      | .completed, .raised _ _ => fail .activityConflict
      | .completed, .returned payload =>
        if record.outcome = payload then
          .ok (.inl ⟨record.outcome,.replayed,envelope.revision,identity⟩)
        else fail .activityConflict
      | _, .raised err decision =>
        .ok (.inr (journal,recordActivityFailure record err decision now sample))
      | _, .returned payload => .ok (.inr (journal,recordActivitySuccess record payload origin now))

def activityDispatchOrigin (envelope : ExecutionEnvelope Journal C W) : ActivityOrigin :=
  if ForkLineage.isFake envelope.fork then .simulated else .live

theorem persistActivity_eq_ok {envelope target : ExecutionEnvelope Journal C W} {journal : Journal}
    {record : ActivityRecord} (h : persistActivity envelope journal record = .ok target) :
    validActivityRecord record = true ∧
      target = { envelope with
        journal := (journal.set record.identity record).mapValues ActivityRecord.reread } := by
  simp only [persistActivity,validateActivityRecord,bind_eq_ok,require_eq_ok,exists_const] at h
  obtain ⟨hv,j,hj,ht⟩ := h
  cases ht
  refine ⟨hv,?_⟩
  unfold marshalJournal at hj
  split at hj
  · cases hj
    rfl
  · cases hj

def CallSection.Found (incarnation : Nat) (envelope : ExecutionEnvelope Journal C W)
    (request : ActivityRequest) : CallSection → Prop
  | .ret _ => True
  | .prepare journal record => journal = envelope.journal ∧ record = prepareActivity envelope request ∧
      envelope.journal.get? record.identity = none
  | .start journal record => journal = envelope.journal ∧
      envelope.journal.get? record.identity = some record ∧ record.state = .prepared
  | .abandon journal record => journal = envelope.journal ∧
      envelope.journal.get? record.identity = some record ∧ record.state = .running ∧
      ∃ a, record.attempts.getLast? = some a ∧ a.incarnation ≠ incarnation
  | .reconcile record => envelope.journal.get? record.identity = some record ∧ record.state = .unknown

theorem callActivity_found (incarnation : Nat) (envelope : ExecutionEnvelope Journal C W)
    (request : ActivityRequest) (now : Time) :
    (callActivity incarnation envelope request now).Found incarnation envelope request ∧
      ((∃ result, callActivity incarnation envelope request now = .ret result) ∨
        AdmittedJournal envelope) := by
  unfold callActivity
  cases hj : executionActivityJournal envelope with
  | error err => exact ⟨trivial,.inl ⟨_,rfl⟩⟩
  | ok journal =>
    obtain ⟨rfl,hadm⟩ := executionActivityJournal_eq_ok hj
    refine ⟨?_,.inr hadm⟩
    dsimp only
    cases hr : envelope.journal.get? (boundActivityIdentity envelope request.key) with
    | none => exact ⟨rfl,rfl,hr⟩
    | some record =>
      have hid := hadm.keyed _ _ hr
      dsimp only
      split
      · trivial
      split
      · trivial
      split
      · unfold recoverActivity
        split
        · rename_i hrun
          cases hlast : record.attempts.getLast? with
          | none => trivial
          | some last =>
            dsimp only
            split
            · trivial
            · rename_i hinc
              exact ⟨rfl,by rwa [hid],hrun,last,hlast,hinc⟩
        · rename_i hstate hrun
          split
          · exact ⟨by rwa [hid],hstate.resolve_left hrun⟩
          · trivial
      · cases hp : preparedActivityError record now with
        | some err => trivial
        | none => exact ⟨rfl,by rwa [hid],preparedActivityError_eq_none hp⟩

theorem finishActivity_persists {envelope : ExecutionEnvelope Journal C W} {identity : Text}
    {callback : Callback} {origin : ActivityOrigin} {now : Time} {sample : Option Nat}
    {journal : Journal} {record' : ActivityRecord}
    (h : finishActivity envelope identity callback origin now sample = .ok (.inr (journal,record'))) :
    AdmittedJournal envelope ∧ journal = envelope.journal ∧
      ∃ record, envelope.journal.get? identity = some record ∧ record.state ≠ .completed ∧
        ((∃ err decision, callback = .raised err decision ∧
            record' = recordActivityFailure record err decision now sample) ∨
          ∃ payload, callback = .returned payload ∧
            record' = recordActivitySuccess record payload origin now) := by
  unfold finishActivity at h
  obtain ⟨j,hj,hf⟩ := bind_eq_ok.mp h
  clear h
  obtain ⟨rfl,hadm⟩ := executionActivityJournal_eq_ok hj
  refine ⟨hadm,?_⟩
  cases hr : envelope.journal.get? identity with
  | none =>
    rw [hr] at hf
    cases hf
  | some record =>
    rw [hr] at hf
    dsimp only at hf
    split at hf
    · cases hf
    · split at hf
      · cases hf
      · split at hf <;> cases hf
      · rename_i err decision hne
        cases hf
        exact ⟨rfl,record,rfl,hne,.inl ⟨err,decision,rfl,rfl⟩⟩
      · rename_i payload hne
        cases hf
        exact ⟨rfl,record,rfl,hne,.inr ⟨payload,rfl,rfl⟩⟩

end Sections

section Records

variable (record : ActivityRecord)

@[simp] theorem reread_state : record.reread.state = record.state := rfl
@[simp] theorem reread_retry : record.reread.retry = record.retry := rfl
@[simp] theorem reread_resolutions : record.reread.resolutions = record.resolutions := rfl
@[simp] theorem reread_length : record.reread.attempts.length = record.attempts.length := by
  simp [ActivityRecord.reread]

theorem reread_reread : record.reread.reread = record.reread := by
  simp only [ActivityRecord.reread,List.map_map]
  congr 1
  refine List.map_congr_left fun a _ => ?_
  simp [ActivityAttempt.reread,Utf8.coerce_of_valid (Utf8.valid_coerce a.error)]

def ActivityRecord.numbers : List Nat := record.attempts.map ActivityAttempt.number

@[simp] theorem reread_numbers : record.reread.numbers = record.numbers := by
  simp [ActivityRecord.numbers,ActivityRecord.reread,ActivityAttempt.reread,Function.comp_def]

theorem updateLast_map {β : Type*} (g : ActivityAttempt → β) (f : ActivityAttempt → ActivityAttempt)
    (hf : ∀ a, g (f a) = g a) (attempts : List ActivityAttempt) :
    (updateLast f attempts).map g = attempts.map g := by
  rcases List.eq_nil_or_concat attempts with rfl | ⟨as,a,rfl⟩
  · rfl
  · simp [updateLast,hf]

theorem abandonAttempt_numbers : (abandonAttempt record).numbers = record.numbers :=
  updateLast_map _ _ (by intro a; rfl) _

theorem closeAttempt_numbers (err : Err) (failureClass : ActivityFailureClass) (now : Time)
    (state : ActivityState) (choice : Option ActivityRetryScheduleDecision) :
    (closeAttempt record err failureClass now state choice).numbers = record.numbers :=
  updateLast_map _ _ (by intro a; rfl) _

theorem recordActivityFailure_frame (err : Err) (decision : ActivityFailureDecision) (now : Time)
    (sample : Option Nat) :
    (recordActivityFailure record err decision now sample).numbers = record.numbers ∧
      (recordActivityFailure record err decision now sample).contract = record.contract := by
  unfold recordActivityFailure scheduleRetry
  repeat' split
  all_goals exact ⟨closeAttempt_numbers record _ _ _ _ _,rfl⟩

theorem recordActivitySuccess_numbers (payload : Bytes) (origin : ActivityOrigin) (now : Time) :
    (recordActivitySuccess record payload origin now).numbers = record.numbers := by
  unfold recordActivitySuccess ActivityRecord.numbers
  dsimp only
  split
  · rfl
  · exact updateLast_map _ _ (by intro a; rfl) _

theorem length_of_numbers {r r' : ActivityRecord} (h : r'.numbers = r.numbers) :
    r'.attempts.length = r.attempts.length := by
  simpa [ActivityRecord.numbers] using congrArg List.length h

end Records
end Flowy
