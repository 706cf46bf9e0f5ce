import Flowy.Contract

/-! The activity journal: records of external operations, their attempts, retry schedules and
manual decisions, and the identity under which each record is kept. -/
namespace Flowy

inductive ActivityOrigin
  | live | replayed | reconciled | manual | simulated
deriving DecidableEq, Repr

inductive ActivityState
  | prepared | running | completed | failed | unknown
deriving DecidableEq, Repr

/-- `ActivityAmbiguous` includes ambiguous remote delivery. -/
inductive ActivityFailureClass
  | retryable | nonRetryable | ambiguous
deriving DecidableEq, Repr

inductive ActivityRetryScheduleKind
  | unset | fixed | exponential
deriving DecidableEq, Repr

structure ActivityRetrySchedule where
  kind : ActivityRetryScheduleKind
  initialDelay : Duration
  maxDelay : Duration
  multiplier : Nat
  jitterPermille : Nat
  hintLabel : Text
deriving DecidableEq, Repr

structure ActivityRetryPolicy where
  label : Text
  maxAttempts : Int
  schedule : ActivityRetrySchedule
  safeRetryContract : Text
deriving DecidableEq, Repr

/-- The all-zero policy, which never retries. -/
def ActivityRetryPolicy.none : ActivityRetryPolicy := ⟨[],0,⟨.unset,0,0,0,0,[]⟩,[]⟩

inductive ScheduleRejection
  | policy | clock | hintTime | hintLabel | random | deadline
deriving DecidableEq, Repr

structure ActivityRetryScheduleDecision where
  attempt : Nat
  preparedAt : Time
  baseDelay : Duration
  selectedDelay : Duration
  notBefore : Time
  deadline : Time
  rejection : Option ScheduleRejection
deriving DecidableEq, Repr

structure ActivityFailureDecision where
  failureClass : ActivityFailureClass
  notBefore : Time
deriving DecidableEq, Repr

structure ActivityAttempt where
  number : Nat
  incarnation : Nat
  state : ActivityState
  error : Text
  classification : Option ActivityFailureClass
  startedAt : Time
  retrySchedule : Option ActivityRetryScheduleDecision
  finishedAt : Time
deriving DecidableEq, Repr

/-- `unset` is any text that is not one of the three actions. -/
inductive ActivityResolutionAction
  | unset | complete | fail | retry
deriving DecidableEq, Repr

/-- An explicit operator decision, never a dispatch. -/
structure ActivityResolution where
  identity : Text
  inputDigest : Text
  implementation : Text
  decisionID : Text
  action : ActivityResolutionAction
  reason : Text
  evidence : Text
  outcome : Bytes
  safeRetryContract : Text
  notBefore : Time
deriving DecidableEq, Repr

structure ActivityResolutionRecord where
  decisionID : Text
  attempt : Nat
  action : ActivityResolutionAction
  priorState : ActivityState
  sourceRevision : Nat
  incarnation : Nat
  reason : Text
  evidence : Text
  safeRetryContract : Text
  retrySchedule : Option ActivityRetryScheduleDecision
  decidedAt : Time
deriving DecidableEq, Repr

structure ActivityRecord where
  identity : Text
  executionID : Text
  node : ExecutionPointer
  activation : Nat
  key : Text
  inputDigest : Text
  implementation : Text
  state : ActivityState
  outcome : Bytes
  origin : Option ActivityOrigin
  attempts : List ActivityAttempt
  retry : ActivityRetryPolicy
  classification : Option ActivityFailureClass
  nextAttemptAt : Time
  resolutions : List ActivityResolutionRecord
deriving DecidableEq, Repr

abbrev Journal := GoMap Text ActivityRecord

/-- The part of a record that no transition changes. -/
structure ActivityContract where
  identity : Text
  executionID : Text
  node : ExecutionPointer
  activation : Nat
  key : Text
  inputDigest : Text
  implementation : Text
  retry : ActivityRetryPolicy
deriving DecidableEq, Repr

def ActivityRecord.contract (r : ActivityRecord) : ActivityContract :=
  ⟨r.identity,r.executionID,r.node,r.activation,r.key,r.inputDigest,r.implementation,r.retry⟩

/-- The JSON array `[id, node, activation, key]`. -/
def addressText (id node : Text) (activation : Nat) (key : Text) : Bytes :=
  Json.render [.punct (ascii "["),.str id,.punct (ascii ","),.str node,.punct (ascii ","),
    .punct (Json.natText activation),.punct (ascii ","),.str key,.punct (ascii "]")]

section Identity

variable [Sha256]

def activityAddressIdentity (id : Text) (node : ExecutionPointer) (activation : Nat) (key : Text) :
    Text :=
  Sha256.sum (addressText id node activation key)

variable {C W : Type}

def activityIdentity (envelope : ExecutionEnvelope Journal C W) (key : Text) : Text :=
  activityAddressIdentity envelope.executionID envelope.progress.executionPointer
    envelope.activation key

/-- A migrated activity keeps its original address under the current key. -/
def boundActivityIdentity (envelope : ExecutionEnvelope Journal C W) (key : Text) : Text :=
  match envelope.progress.journalReferences.get? key with
  | some identity => identity
  | none => activityIdentity envelope key

end Identity

def activityUnresolved (state : ActivityState) : Bool :=
  state == .prepared || state == .running || state == .unknown

/-- What reading back gives for an attempt: only its error text is host bytes. -/
def ActivityAttempt.reread (a : ActivityAttempt) : ActivityAttempt :=
  { a with error := Utf8.coerce a.error }

def ActivityRecord.reread (r : ActivityRecord) : ActivityRecord :=
  { r with attempts := r.attempts.map ActivityAttempt.reread }

def ActivityRetryScheduleDecision.marshals (d : ActivityRetryScheduleDecision) : Bool :=
  d.preparedAt.marshals && d.notBefore.marshals && d.deadline.marshals

def ActivityRecord.marshals (r : ActivityRecord) : Bool :=
  r.nextAttemptAt.marshals &&
    r.attempts.all (fun a => a.startedAt.marshals && a.finishedAt.marshals &&
      a.retrySchedule.all ActivityRetryScheduleDecision.marshals) &&
    r.resolutions.all (fun d => d.decidedAt.marshals &&
      d.retrySchedule.all ActivityRetryScheduleDecision.marshals)

/-- `json.Marshal` of the journal as the next reader sees it; a year outside 0 to 9999 fails. -/
def marshalJournal (journal : Journal) : Result Journal :=
  if journal.all (fun _ r => r.marshals) then .ok (journal.mapValues ActivityRecord.reread)
  else .error ⟨ascii "Time.MarshalJSON: year outside of range [0,9999]",[]⟩

end Flowy
