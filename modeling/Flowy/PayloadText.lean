import Flowy.Activity.Choice
import Flowy.Payloads

/-! The JSON text of the activity journal and of the durable waits, as `json.Marshal` writes them
into an envelope. -/
namespace Flowy

open Json

section Journal

def ActivityOrigin.text : ActivityOrigin → Text
  | .live => ascii "live"
  | .replayed => ascii "replayed"
  | .reconciled => ascii "reconciled"
  | .manual => ascii "manual"
  | .simulated => ascii "simulated"

def ActivityState.text : ActivityState → Text
  | .prepared => ascii "prepared"
  | .running => ascii "running"
  | .completed => ascii "completed"
  | .failed => ascii "failed"
  | .unknown => ascii "unknown"

def ActivityFailureClass.text : ActivityFailureClass → Text
  | .retryable => ascii "retryable"
  | .nonRetryable => ascii "non_retryable"
  | .ambiguous => ascii "unknown"

def ActivityRetryScheduleKind.text : ActivityRetryScheduleKind → Text
  | .unset => []
  | .fixed => ascii "fixed"
  | .exponential => ascii "exponential"

def ActivityResolutionAction.text : ActivityResolutionAction → Text
  | .unset => []
  | .complete => ascii "complete"
  | .fail => ascii "fail"
  | .retry => ascii "retry"

def activityStateCodec : Codec ActivityState := .literal fun s => quoted s.text
def activityFailureClassCodec : Codec ActivityFailureClass := .literal fun c => quoted c.text
def scheduleDecisionCodec : Codec ActivityRetryScheduleDecision :=
  .literal fun d => Scan.writeObject d.members

def ActivityRetrySchedule.encoding (s : ActivityRetrySchedule) : Bytes := objectText
  [field (ascii "kind") (.literal fun k => quoted (ActivityRetryScheduleKind.text k)) s.kind,
    field (ascii "initial_delay") intCodec s.initialDelay,
    field (ascii "max_delay") intCodec s.maxDelay,field (ascii "multiplier") natCodec s.multiplier,
    field (ascii "jitter_permille") natCodec s.jitterPermille,
    field (ascii "hint_label") .text s.hintLabel]

def ActivityRetryPolicy.encoding (p : ActivityRetryPolicy) : Bytes := objectText
  [field (ascii "label") .text p.label,field (ascii "max_attempts") intCodec p.maxAttempts,
    field (ascii "schedule") (.literal ActivityRetrySchedule.encoding) p.schedule,
    field (ascii "safe_retry_contract") .text p.safeRetryContract]

def ActivityAttempt.encoding (a : ActivityAttempt) : Bytes := objectText
  [field (ascii "number") natCodec a.number,field (ascii "incarnation") natCodec a.incarnation,
    field (ascii "state") activityStateCodec a.state,
    omitting List.isEmpty (ascii "error") .text a.error,
    optional (ascii "classification") activityFailureClassCodec a.classification,
    field (ascii "started_at") timeCodec a.startedAt,
    optional (ascii "retry_schedule") scheduleDecisionCodec a.retrySchedule,
    omitting Time.isZero (ascii "finished_at") timeCodec a.finishedAt]

def ActivityResolutionRecord.encoding (d : ActivityResolutionRecord) : Bytes := objectText
  [field (ascii "decision_id") .text d.decisionID,field (ascii "attempt") natCodec d.attempt,
    field (ascii "action") (.literal fun a => quoted (ActivityResolutionAction.text a)) d.action,
    field (ascii "prior_state") activityStateCodec d.priorState,
    field (ascii "source_revision") natCodec d.sourceRevision,
    field (ascii "incarnation") natCodec d.incarnation,field (ascii "reason") .text d.reason,
    field (ascii "evidence") .text d.evidence,
    omitting List.isEmpty (ascii "safe_retry_contract") .text d.safeRetryContract,
    optional (ascii "retry_schedule") scheduleDecisionCodec d.retrySchedule,
    field (ascii "at") timeCodec d.decidedAt]

/-- Attempts are never nil, so an empty list is written as `[]`. -/
def ActivityRecord.encoding (r : ActivityRecord) : Bytes := objectText
  [field (ascii "identity") .text r.identity,field (ascii "execution_id") .text r.executionID,
    field (ascii "node") .text r.node,field (ascii "activation") natCodec r.activation,
    field (ascii "key") .text r.key,field (ascii "input_digest") .text r.inputDigest,
    field (ascii "implementation") .text r.implementation,
    field (ascii "state") activityStateCodec r.state,
    omitting List.isEmpty (ascii "outcome") payloadCodec r.outcome,
    optional (ascii "origin") (.literal fun o => quoted (ActivityOrigin.text o)) r.origin,
    field (ascii "attempts") (.list (.literal ActivityAttempt.encoding)) r.attempts,
    field (ascii "retry") (.literal ActivityRetryPolicy.encoding) r.retry,
    optional (ascii "classification") activityFailureClassCodec r.classification,
    omitting Time.isZero (ascii "next_attempt_at") timeCodec r.nextAttemptAt,
    omitting List.isEmpty (ascii "resolutions") (.list (.literal ActivityResolutionRecord.encoding))
      r.resolutions]

def journalText (journal : Journal) : Bytes :=
  render ((Codec.map (.literal ActivityRecord.encoding)).tokens journal)

end Journal

section Waits

def WaitState.text : WaitState → Text
  | .unset => []
  | .armed => ascii "armed"
  | .resolved => ascii "resolved"
  | .expired => ascii "expired"
  | .canceled => ascii "canceled"

def WaitWinnerPolicy.text : WaitWinnerPolicy → Text
  | .unset => []
  | .firstCommitted => ascii "first_valid_committed"

def WaitDeliveryKind.text : WaitDeliveryKind → Text
  | .unset => []
  | .event => ascii "event"
  | .timer => ascii "timer"

def WaitDecisionStatus.text : WaitDecisionStatus → Text
  | .unset => []
  | .accepted => ascii "accepted"
  | .unmatched => ascii "unmatched"
  | .lost => ascii "lost"
  | .rejectedCanceled => ascii "canceled"

def DurableWaitSpec.encoding (s : DurableWaitSpec) : Bytes := objectText
  [field (ascii "id") .text s.id,field (ascii "correlation_id") .text s.correlationID,
    field (ascii "deadline") timeCodec s.deadline,field (ascii "matcher_label") .text s.matcherLabel,
    field (ascii "payload_codec") .text s.payloadCodec,
    field (ascii "continuation_label") .text s.continuationLabel,
    field (ascii "event_pointer") .text s.eventPointer,
    field (ascii "timeout_pointer") .text s.timeoutPointer,
    field (ascii "winner_policy") (.literal fun p => quoted (WaitWinnerPolicy.text p)) s.winnerPolicy]

def WaitDecision.encoding (d : WaitDecision) : Bytes := objectText
  [field (ascii "id") .text d.id,
    field (ascii "kind") (.literal fun k => quoted (WaitDeliveryKind.text k)) d.kind,
    field (ascii "correlation_id") .text d.correlationID,
    field (ascii "payload_digest") .text d.payloadDigest,
    field (ascii "status") (.literal fun s => quoted (WaitDecisionStatus.text s)) d.status,
    field (ascii "source_revision") natCodec d.sourceRevision,
    field (ascii "incarnation") natCodec d.incarnation,field (ascii "at") timeCodec d.decidedAt]

def WaitCancellationRecord.encoding (c : WaitCancellationRecord) : Bytes := objectText
  [field (ascii "id") .text c.id,field (ascii "reason") .text c.reason,
    field (ascii "evidence") .text c.evidence,field (ascii "source_revision") natCodec c.sourceRevision,
    field (ascii "incarnation") natCodec c.incarnation,field (ascii "at") timeCodec c.decidedAt]

def DurableWaitRecord.encoding (r : DurableWaitRecord) : Bytes := objectText
  [field (ascii "execution_id") .text r.executionID,field (ascii "node") .text r.node,
    field (ascii "activation") natCodec r.activation,field (ascii "generation") .text r.generation,
    field (ascii "arm_revision") natCodec r.armRevision,
    field (ascii "spec") (.literal DurableWaitSpec.encoding) r.spec,
    field (ascii "profile") WaitCapabilityProfile.codec r.profile,
    field (ascii "state") (.literal fun s => quoted (WaitState.text s)) r.state,
    omitting List.isEmpty (ascii "winner_id") .text r.winnerID,
    omitting GoMap.isEmpty (ascii "decisions") (.map (.literal WaitDecision.encoding)) r.decisions,
    optional (ascii "cancellation") (.literal WaitCancellationRecord.encoding) r.cancellation]

def waitsText (waits : Waits) : Bytes :=
  render ((Codec.map (.literal DurableWaitRecord.encoding)).tokens waits)

end Waits

section Reader

variable {α : Type} {text : α → Bytes} {known : List α} {payload : Bytes} {x : α}

/-- A reader that knows the texts of these values and no others. -/
def readKnown (text : α → Bytes) (known : List α) (payload : Bytes) : Result α :=
  match known.find? fun x => text x == payload with
  | some x => .ok x
  | none => fail .executionCorrupt

theorem readKnown_eq_ok (h : readKnown text known payload = .ok x) : x ∈ known ∧ text x = payload := by
  unfold readKnown at h
  split at h
  · rename_i y hfind
    cases h
    exact ⟨List.mem_of_find?_eq_some hfind,by simpa using List.find?_some hfind⟩
  · cases h

end Reader

def samplePayloads (journals : List Journal) (waits : List Waits) : PayloadCodec :=
  ⟨readKnown journalText journals,fun _ => fail .executionCorrupt,readKnown waitsText waits⟩

end Flowy
