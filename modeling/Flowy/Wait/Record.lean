import Flowy.Contract

/-! Durable waits: the contract a node arms, the deliveries and cancellations that compete for it,
and the record that keeps every decision. Addresses are digests of flat JSON arrays. -/
namespace Flowy

open Json

/-- `unset` is any text that is not one of the four states. -/
inductive WaitState
  | unset | armed | resolved | expired | canceled
deriving DecidableEq, Repr

inductive WaitWinnerPolicy
  | unset | firstCommitted
deriving DecidableEq, Repr

/-- Labels of the pure matcher, the payload codec and the continuation, with an absolute deadline. -/
structure DurableWaitSpec where
  id : Text
  correlationID : Text
  deadline : Time
  /-- Seconds east of UTC of the zone in which `deadline` is given. -/
  deadlineOffset : Int
  matcherLabel : Text
  payloadCodec : Text
  continuationLabel : Text
  eventPointer : ExecutionPointer
  timeoutPointer : ExecutionPointer
  winnerPolicy : WaitWinnerPolicy
deriving DecidableEq, Repr

def DurableWaitSpec.validate (s : DurableWaitSpec) : Result Unit :=
  require (s.id != [] && s.correlationID != [] && !s.deadline.isZero && s.deadlineOffset == 0 &&
    validRuntimeText [s.id,s.correlationID,s.matcherLabel,s.payloadCodec,s.continuationLabel,
      s.eventPointer,s.timeoutPointer] &&
    s.matcherLabel != [] && s.payloadCodec != [] && s.continuationLabel != [] &&
    s.eventPointer != [] && s.timeoutPointer != [] && s.winnerPolicy == .firstCommitted &&
    s.deadline.marshals) .waitInvalid

/-- `unset` is any text that is neither of the two kinds. -/
inductive WaitDeliveryKind
  | unset | event | timer
deriving DecidableEq, Repr

/-- One transport identity; `expectedRevision` may be refreshed on redelivery. -/
structure WaitDelivery where
  generation : Text
  id : Text
  kind : WaitDeliveryKind
  correlationID : Text
  expectedRevision : Nat
  payload : Bytes
deriving DecidableEq, Repr

inductive WaitDecisionStatus
  | unset | accepted | unmatched | lost | rejectedCanceled
deriving DecidableEq, Repr

structure WaitDecision where
  id : Text
  kind : WaitDeliveryKind
  correlationID : Text
  payloadDigest : Text
  status : WaitDecisionStatus
  sourceRevision : Nat
  incarnation : Nat
  decidedAt : Time
deriving DecidableEq, Repr

/-- The host's authority for a cancellation. -/
structure WaitCancellation where
  generation : Text
  id : Text
  reason : Text
  evidence : Text
deriving DecidableEq, Repr

structure WaitCancellationRecord where
  id : Text
  reason : Text
  evidence : Text
  sourceRevision : Nat
  incarnation : Nat
  decidedAt : Time
deriving DecidableEq, Repr

structure DurableWaitRecord where
  executionID : Text
  node : ExecutionPointer
  activation : Nat
  generation : Text
  armRevision : Nat
  spec : DurableWaitSpec
  profile : WaitCapabilityProfile
  state : WaitState
  winnerID : Text
  decisions : GoMap Text WaitDecision
  cancellation : Option WaitCancellationRecord
deriving DecidableEq

abbrev Waits := GoMap Text DurableWaitRecord

/-- The part of a record that no decision changes. -/
structure WaitContract where
  executionID : Text
  node : ExecutionPointer
  activation : Nat
  generation : Text
  armRevision : Nat
  spec : DurableWaitSpec
  profile : WaitCapabilityProfile
deriving DecidableEq, Repr

def DurableWaitRecord.contract (r : DurableWaitRecord) : WaitContract :=
  ⟨r.executionID,r.node,r.activation,r.generation,r.armRevision,r.spec,r.profile⟩

section Identity

variable [Sha256]

def waitIdentity (execution : Text) (node : ExecutionPointer) (activation : Nat) (id : Text) : Text :=
  Sha256.sum (scalarArray [.text (ascii "flowy-wait"),.text execution,.text node,.nat activation,
    .text id])

/-- The arm revision keeps a generation from being reused. -/
def waitGeneration (identity : Text) (revision : Nat) : Text :=
  Sha256.sum (scalarArray [.text (ascii "flowy-wait-generation"),.text identity,.nat revision])

def waitPayloadDigest (payload : Bytes) : Text := Sha256.sum payload

def DurableWaitRecord.identity (r : DurableWaitRecord) : Text :=
  waitIdentity r.executionID r.node r.activation r.spec.id

theorem waitGeneration_injective {execution execution' node node' id id' : Text} {a a' n n' : Nat}
    (h : waitGeneration (waitIdentity execution node a id) n =
      waitGeneration (waitIdentity execution' node' a' id') n') :
    waitIdentity execution node a id = waitIdentity execution' node' a' id' ∧ n = n' := by
  have htag : Utf8.valid (ascii "flowy-wait-generation") = true := by decide
  have hid : ∀ (e p i : Text) (m : Nat), Utf8.valid (waitIdentity e p m i) = true := fun e p i m =>
    Sha256.valid_sum _
  have harray := scalarArray_injective (by simp [Scalar.valid,htag,hid]) (by simp [Scalar.valid,htag,hid])
    (Sha256.injective h)
  simpa using harray

def planDurableWait (execution : Text) (node : ExecutionPointer) (activation revision : Nat)
    (spec : DurableWaitSpec) (profile : WaitCapabilityProfile) : Result DurableWaitRecord := do
  require (spec.validate.isOk && profile.validate.isOk && execution != [] && node != [] &&
    activation != 0 && revision != 0) .waitInvalid
  .ok {
    executionID := execution
    node := node
    activation := activation
    generation := waitGeneration (waitIdentity execution node activation spec.id) revision
    armRevision := revision
    spec := spec
    profile := profile
    state := .armed
    winnerID := []
    decisions := ∅
    cancellation := none }

end Identity

def DurableWaitRecord.marshals (r : DurableWaitRecord) : Bool :=
  r.spec.deadline.marshals && r.decisions.all (fun _ d => d.decidedAt.marshals) &&
    r.cancellation.all fun c => c.decidedAt.marshals

/-- `json.Marshal` of the waits as the next reader sees them. All texts of a record are checked
before they are written, so they read back unchanged. -/
def marshalWaits (waits : Waits) : Result Waits :=
  if waits.all (fun _ r => r.marshals) then .ok waits
  else .error ⟨ascii "Time.MarshalJSON: year outside of range [0,9999]",[]⟩

theorem marshalWaits_eq_ok {waits waits' : Waits} (h : marshalWaits waits = .ok waits') :
    waits' = waits := by
  unfold marshalWaits at h
  split at h
  · cases h
    rfl
  · cases h

end Flowy
