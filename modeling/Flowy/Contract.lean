import Flowy.Basic

/-! The raw execution envelope and the labels it carries. The three runtime collections are type
parameters: storage keeps them as bytes, the runtime works on their decoded form. -/
namespace Flowy

/-- The persisted resume point, a graph node id. -/
abbrev ExecutionPointer := Text

inductive StepReplayMode
  | unset | replaySafe
deriving DecidableEq, Repr

structure StepReplayPolicy where
  label : Text
  mode : StepReplayMode
deriving DecidableEq, Repr

structure ExecutionDescriptor where
  graphID : Text
  graphRevision : Text
  stateCodec : Text
  effectsCodec : Text
  executionContract : Text
  replayPolicy : StepReplayPolicy
deriving DecidableEq, Repr

def ExecutionDescriptor.validate (d : ExecutionDescriptor) : Result Unit :=
  require (d.graphID ≠ [] && d.graphRevision ≠ [] && d.stateCodec ≠ [] && d.effectsCodec ≠ [] &&
    d.executionContract ≠ [] &&
    validRuntimeText [d.graphID,d.graphRevision,d.stateCodec,d.effectsCodec,d.executionContract,
      d.replayPolicy.label] &&
    d.replayPolicy.label ≠ [] && d.replayPolicy.mode == .replaySafe) .executionIncompatible

/-- Compatibility is checked before the host decodes state or executes nodes. -/
def ExecutionDescriptor.check (d target : ExecutionDescriptor) : Result Unit := do
  d.validate
  target.validate
  require (d == target) .executionIncompatible

structure WaitCapabilityProfile where
  label : Text
  journalOwner : Text
  leaseOwner : Text
  timerOwner : Text
  clockOwner : Text
  retryOwner : Text
  recoveryOwner : Text
deriving DecidableEq, Repr

def WaitCapabilityProfile.validate (p : WaitCapabilityProfile) : Result Unit :=
  require (p.label ≠ [] && p.journalOwner ≠ [] && p.leaseOwner ≠ [] && p.timerOwner ≠ [] &&
    validRuntimeText [p.label,p.journalOwner,p.leaseOwner,p.timerOwner,p.clockOwner,p.retryOwner,
      p.recoveryOwner] &&
    p.clockOwner ≠ [] && p.retryOwner ≠ [] && p.recoveryOwner ≠ []) .executionCapability

structure ExecutionProgress where
  statePayload : Bytes
  executionPointer : ExecutionPointer
  childCursors : GoMap Text ExecutionPointer
  /-- Current logical activity keys bound by a migration to their original identities. -/
  journalReferences : GoMap Text Text
  childGroupReferences : GoMap Text Text
deriving DecidableEq

def validMigrationText (state : ExecutionProgress) : Bool :=
  validRuntimeText [state.executionPointer] &&
    state.childCursors.all (fun key pointer => validRuntimeText [key,pointer]) &&
    state.journalReferences.all (fun key identity => validRuntimeText [key,identity]) &&
    state.childGroupReferences.all (fun key identity => validRuntimeText [key,identity])

inductive SegmentEndReason
  | unset | suspend | complete | fail | handoff | contextCanceled
deriving DecidableEq, Repr

structure SegmentInfo where
  segmentID : Text
  startTime : Time
  endTime : Time
  endReason : SegmentEndReason
deriving DecidableEq, Repr

inductive HandoffStatus
  | none | pending | enqueued | orphaned
deriving DecidableEq, Repr

structure RunMetadata where
  segment : SegmentInfo
  segmentStartTime : Time
  retryCounts : GoMap Text Int
  budgetCounts : GoMap Text Int
  stepCount : Nat
  telemetryContext : GoMap Text Text
  handoffStatus : HandoffStatus
  handoffPendingAt : Time
deriving DecidableEq

inductive RunStatus
  | completed | transferred | suspended | contextCanceled | failed | handoff
deriving DecidableEq, Repr

structure ExecutionFailure where
  message : Text
deriving DecidableEq, Repr

structure ExecutionTerminal where
  status : RunStatus
  reason : Text
  failure : Option ExecutionFailure
deriving DecidableEq, Repr

/-- What a caller is told about a stored terminal; `ErrInvalidSnapshot` marks a malformed one. -/
def terminalFailureError : Option ExecutionTerminal → Option Err
  | none => none
  | some t =>
    if t.status == .transferred && t.failure.isNone then some (.of .executionTransferred)
    else if t.status == .completed && t.failure.isNone then none
    else match t.status, t.failure with
      | .failed, some failure => some ⟨failure.message,[.executionFailed]⟩
      | _, _ => some (.of .invalidSnapshot)

def makeExecutionTerminal (status : RunStatus) (reason : Text) (err : Option Err) : ExecutionTerminal :=
  if status != .failed then ⟨status,reason,none⟩
  else ⟨status,reason,some ⟨err.elim reason fun err => err.message⟩⟩

structure MigrationProvenance where
  sourceRevision : Nat
  sourceDigest : Text
  chain : List Text
deriving DecidableEq, Repr

structure LegacyExecutionSource where
  id : Text
  revision : Nat
  format : Text
  digest : Text
  payload : Bytes
deriving DecidableEq, Repr

structure ImportProvenance where
  source : LegacyExecutionSource
  importerID : Text
deriving DecidableEq, Repr

structure HistoricalCheckpointReference where
  executionID : Text
  revision : Nat
  digest : Text
deriving DecidableEq, Repr

structure RolloverPolicy where
  label : Text
  maxRecords : Int
  maxAggregateBytes : Int
  maxTargetBytes : Int
deriving DecidableEq, Repr

structure RolloverLineage where
  source : HistoricalCheckpointReference
  sourceDescriptor : ExecutionDescriptor
  targetDescriptor : ExecutionDescriptor
  targetID : Text
  decisionID : Text
  policy : RolloverPolicy
  projectionLabel : Text
  requestDigest : Text
  createdAt : Time
deriving DecidableEq, Repr

structure RolloverReceipt where
  lineage : RolloverLineage
  target : HistoricalCheckpointReference
  sourceRevision : Nat
deriving DecidableEq, Repr

inductive ForkActivityMode
  | fake | live
deriving DecidableEq, Repr

structure ForkLineage where
  source : HistoricalCheckpointReference
  sourceDescriptor : ExecutionDescriptor
  targetDescriptor : ExecutionDescriptor
  targetID : Text
  mode : ForkActivityMode
  policyLabel : Text
  transformLabel : Text
  projectionLabel : Text
  createdAt : Time
deriving DecidableEq, Repr

/-- An envelope without its seal; `J`, `C` and `W` are the activity journal, the child groups and
the waits. -/
structure ExecutionEnvelope (J C W : Type) where
  executionID : Text
  revision : Nat
  descriptor : ExecutionDescriptor
  runtimeProfile : Option WaitCapabilityProfile
  progress : ExecutionProgress
  effectsPayload : Bytes
  journal : J
  children : C
  waits : W
  runMeta : RunMetadata
  activation : Nat
  terminal : Option ExecutionTerminal
  migration : Option MigrationProvenance
  importProvenance : Option ImportProvenance
  rollover : Option RolloverLineage
  transfer : Option RolloverReceipt
  fork : Option ForkLineage
deriving DecidableEq

def newRunMetadata (segmentID : Text) (now : Time) : RunMetadata :=
  ⟨⟨segmentID,now,.zero,.unset⟩,now,∅,∅,0,∅,.none,.zero⟩

def prepareStart {J C W : Type} [EmptyCollection J] [EmptyCollection C] [EmptyCollection W]
    (executionID : Text) (descriptor : ExecutionDescriptor)
    (runtimeProfile : Option WaitCapabilityProfile) (entryPoint : ExecutionPointer)
    (state effects : Bytes) (runMeta : RunMetadata) : ExecutionEnvelope J C W where
  executionID := executionID
  revision := 0
  descriptor := descriptor
  runtimeProfile := runtimeProfile
  progress := ⟨state,entryPoint,∅,∅,∅⟩
  effectsPayload := effects
  journal := ∅
  children := ∅
  waits := ∅
  runMeta := runMeta
  activation := 1
  terminal := none
  migration := none
  importProvenance := none
  rollover := none
  transfer := none
  fork := none

/-- A session either serves calls or one manual resolution. -/
inductive SessionUse
  | unused | calls | resolution
deriving DecidableEq

def ExecutionDescriptor.sample : ExecutionDescriptor :=
  ⟨ascii "graph",ascii "r1",ascii "json",ascii "json",ascii "v1",⟨ascii "replay",.replaySafe⟩⟩

end Flowy
