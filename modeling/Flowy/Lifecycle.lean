import Flowy.Activity.Schedule
import Flowy.Seal

/-! Lifecycle metadata on raw envelopes: creation anchors, transfer receipts, and the checks a store
repeats under its locks. Storage holds the runtime collections as bytes; the checks that decode
them are parameters here. -/
namespace Flowy

open Json

/-- What the runtime says about the collections of an envelope. -/
structure PayloadChecks where
  /-- `validateExecutionCollections`. -/
  collections : RawEnvelope → Result Unit
  /-- No unresolved activity, child or wait, as `ValidateExecutionLifecycleBoundary` asks. -/
  settled : RawEnvelope → Result Unit
  /-- Numbers of activity records, of children in each group, and of waits. -/
  records : RawEnvelope → Result (Nat × List Nat × Nat)
  /-- Due candidates for discovery can be derived. -/
  candidates : SealedEnvelope → Result Unit

section Contracts

variable [Sha256]

def HistoricalCheckpointReference.validate (r : HistoricalCheckpointReference) : Result Unit := do
  require (r.executionID != [] && validRuntimeText [r.executionID] && r.revision != 0)
    .executionLifecycleInvalid
  require (Sha256.wellFormed r.digest) .executionSourceDigest

def ForkLineage.validate (f : ForkLineage) : Result Unit := do
  require (f.source.validate.isOk && f.sourceDescriptor.validate.isOk &&
    f.targetDescriptor.validate.isOk &&
    validRuntimeText [f.targetID,f.source.executionID,f.policyLabel,f.transformLabel,
      f.projectionLabel] &&
    f.targetID != [] && f.targetID != f.source.executionID && f.policyLabel != [] &&
    f.transformLabel != [] && !f.createdAt.isZero) .executionLifecycleInvalid
  require (!(f.mode == .live && f.projectionLabel == [])) .forkPolicy

def RolloverPolicy.validate (p : RolloverPolicy) : Result Unit :=
  require (p.label != [] && validRuntimeText [p.label] && p.maxRecords > 0 &&
    p.maxAggregateBytes > 0 && p.maxTargetBytes > 0) .executionLifecycleLimit

def rolloverRequestDigest (source : HistoricalCheckpointReference)
    (sourceDescriptor targetDescriptor : ExecutionDescriptor) (targetID decisionID : Text)
    (policy : RolloverPolicy) (label : Text) : Text :=
  Sha256.sum (render (.punct [0x5B] :: commaJoin [[.str (ascii "flowy-rollover-v1")],
    HistoricalCheckpointReference.codec.tokens source,
    ExecutionDescriptor.codec.tokens sourceDescriptor,
    ExecutionDescriptor.codec.tokens targetDescriptor,[.str targetID],[.str decisionID],
    RolloverPolicy.codec.tokens policy,[.str label]] ++ [.punct [0x5D]]))

def RolloverLineage.validate (l : RolloverLineage) : Result Unit := do
  require (l.source.validate.isOk && l.sourceDescriptor.validate.isOk &&
    l.targetDescriptor.validate.isOk && l.policy.validate.isOk && l.targetID != [] &&
    l.targetID != l.source.executionID && l.decisionID != [] && l.projectionLabel != [] &&
    validRuntimeText [l.targetID,l.decisionID,l.projectionLabel] &&
    Sha256.wellFormed l.requestDigest && activityScheduleTimeValid l.createdAt) .executionCorrupt
  require (rolloverRequestDigest l.source l.sourceDescriptor l.targetDescriptor l.targetID
    l.decisionID l.policy l.projectionLabel == l.requestDigest) .executionCorrupt

def RolloverReceipt.validate (r : RolloverReceipt) : Result Unit :=
  require (r.lineage.validate.isOk && r.target.validate.isOk &&
    r.target.executionID == r.lineage.targetID && r.target.revision == 1 &&
    r.lineage.source.revision != maxRevision &&
    r.sourceRevision == r.lineage.source.revision + 1) .executionCorrupt

/-- Nil `previous` means initial creation only. -/
def validateExecutionForkTransition (previous : Option RawEnvelope) (next : RawEnvelope) :
    Result Unit := do
  require (next.fork.all fun f => f.validate.isOk && f.targetID == next.executionID) .executionCorrupt
  match previous with
  | none => .ok ()
  | some previous =>
    require (previous.executionID == next.executionID && previous.fork == next.fork) .executionCorrupt

def validateExecutionForkAnchor (e : RawEnvelope) (anchor : Option ForkLineage) : Result Unit :=
  validateExecutionForkTransition (some { e with fork := anchor }) e

/-- Ordinary writes neither create nor change transfer authority. -/
def validateExecutionRolloverTransition (previous : Option RawEnvelope) (next : RawEnvelope) :
    Result Unit :=
  match previous with
  | none => require (next.rollover.isNone && next.transfer.isNone) .executionRolloverConflict
  | some previous => do
    require previous.transfer.isNone .executionTransferred
    require (previous.rollover == next.rollover && next.transfer.isNone) .executionCorrupt

def validateExecutionLifecycleAnchors (x : SealedEnvelope) (incoming outgoing : Option RolloverReceipt) :
    Result Unit := do
  let e := x.envelope
  require (e.rollover == incoming.map fun r => r.lineage) .executionCorrupt
  require (incoming.all fun r => r.validate.isOk && r.target.executionID == e.executionID) .executionCorrupt
  require (incoming.all fun r =>
    !(e.revision == r.target.revision && x.digest != r.target.digest)) .executionCorrupt
  match outgoing with
  | none => require e.transfer.isNone .executionCorrupt
  | some r =>
    require (r.validate.isOk && r.lineage.source.executionID == e.executionID) .executionCorrupt
    if e.revision < r.sourceRevision then
      require (e.transfer.isNone && !(e.revision == r.lineage.source.revision &&
        x.digest != r.lineage.source.digest)) .executionCorrupt
    else
      require (e.transfer == some r && e.revision == r.sourceRevision &&
        e.terminal.any fun t => t.status == .transferred) .executionCorrupt

def LegacyExecutionSource.validate (s : LegacyExecutionSource) : Result Unit := do
  require (s.id != [] && s.revision != 0 && s.format != [] && s.payload != [] &&
    validRuntimeText [s.id,s.format]) .executionImportInvalid
  require (s.digest == Sha256.sum s.payload) .executionImportInvalid

def validateExecutionSourceMetadata {J C W : Type} (e : ExecutionEnvelope J C W) : Result Unit := do
  require (e.rollover.all fun l => l.validate.isOk && l.targetID == e.executionID) .executionCorrupt
  require (e.transfer.all fun t => t.validate.isOk && t.lineage.source.executionID == e.executionID &&
    e.revision == t.sourceRevision && e.terminal.any fun r => r.status == .transferred) .executionCorrupt
  require (!((e.terminal.any fun r => r.status == .transferred) && e.transfer.isNone)) .executionCorrupt
  require (e.fork.all fun f => f.validate.isOk && f.targetID == e.executionID) .executionCorrupt
  require (e.importProvenance.all fun p => p.importerID != [] && p.source.validate.isOk)
    .executionImportInvalid
  require (!((terminalFailureError e.terminal).any fun err => err.is .invalidSnapshot)) .invalidSnapshot

end Contracts

section Publication

variable [Sealing]

/-- Runtime-owned dependencies, without decoding opaque state. -/
def validateExecutionLifecycleBoundary (checks : PayloadChecks) (x : SealedEnvelope) : Result Unit := do
  validateExecutionIntegrity x x.envelope.executionID x.envelope.revision
  x.envelope.descriptor.validate
  validateExecutionSourceMetadata x.envelope
  checks.collections x.envelope
  require (!(x.envelope.terminal.isNone && x.envelope.runMeta.stepCount ≤ 0)) .executionLifecycleUnsafe
  checks.settled x.envelope
  require x.envelope.progress.childCursors.isEmpty .executionLifecycleUnsafe

def recordsLeft : Int → List Nat → Result Int
  | remaining, [] => .ok remaining
  | remaining, n :: rest =>
    if (n : Int) > remaining then fail .executionLifecycleLimit else recordsLeft (remaining - n) rest

def validateRolloverRecordLimit (checks : PayloadChecks) (source : SealedEnvelope)
    (policy : RolloverPolicy) : Result Unit := do
  policy.validate
  let encoded ← source.marshal
  require (encoded.length ≤ policy.maxAggregateBytes) .executionLifecycleLimit
  let (journal,groups,waits) ← checks.records source.envelope
  require (!(policy.maxRecords - journal < 0)) .executionLifecycleLimit
  let remaining ← recordsLeft (policy.maxRecords - journal) groups
  require (waits ≤ remaining) .executionLifecycleLimit

def validateRolloverSource (checks : PayloadChecks) (source : SealedEnvelope) : Result Unit := do
  require (!(source.envelope.fork.isSome || source.envelope.transfer.isSome ||
    (source.envelope.terminal.any fun t => t.status != .completed) ||
    source.envelope.revision == maxRevision)) .executionLifecycleUnsafe
  validateExecutionLifecycleBoundary checks source

def validateRolloverTarget (checks : PayloadChecks) (source target : SealedEnvelope) : Result Unit :=
  let s := source.envelope
  let t := target.envelope
  match t.rollover with
  | none => fail .executionRolloverConflict
  | some l => do
    require (l.validate.isOk && l.targetID == t.executionID && l.source.executionID == s.executionID &&
      l.source.revision == s.revision && l.source.digest == source.digest &&
      l.sourceDescriptor == s.descriptor && l.targetDescriptor == t.descriptor && t.revision == 0 &&
      target.digest == [] && t.activation == 1 && t.transfer.isNone && t.terminal.isNone &&
      t.fork.isNone && t.importProvenance.isNone && t.migration.isNone && t.journal.isEmpty &&
      t.children.isEmpty && t.waits.isEmpty && t.progress.childCursors.isEmpty &&
      t.progress.journalReferences.isEmpty && t.progress.childGroupReferences.isEmpty)
      .executionRolloverConflict
    checks.collections t
    require (t.runMeta.stepCount == 0 && t.runMeta.retryCounts.equal s.runMeta.retryCounts &&
      t.runMeta.budgetCounts.equal s.runMeta.budgetCounts) .executionLifecycleUnsafe
    require (t.progress.statePayload.length ≤ l.policy.maxTargetBytes &&
      t.effectsPayload.length ≤ l.policy.maxTargetBytes - t.progress.statePayload.length)
      .executionLifecycleLimit

structure ExecutionLease where
  executionID : Text
  owner : Text
  incarnation : Nat
  expiresAt : Time
deriving DecidableEq, Repr

/-- Validates and seals the pair a rollover publishes: the transferred source, the new target and
the receipt. -/
def prepareExecutionRolloverPublication (checks : PayloadChecks) (source target : SealedEnvelope)
    (lease : ExecutionLease) : Result (SealedEnvelope × SealedEnvelope × RolloverReceipt) := do
  require (source.envelope.executionID == lease.executionID && lease.incarnation != 0 &&
    lease.owner != []) .leaseLost
  validateRolloverSource checks source
  validateRolloverTarget checks source target
  match target.envelope.rollover with
  | none => fail .executionRolloverConflict
  | some lineage => do
    validateRolloverRecordLimit checks source lineage.policy
    let sealedTarget ← sealExecutionEnvelope { target.envelope with revision := 1 }
    let encoded ← sealedTarget.marshal
    require (encoded.length ≤ lineage.policy.maxTargetBytes) .executionLifecycleLimit
    let receipt : RolloverReceipt := ⟨lineage,⟨target.envelope.executionID,1,sealedTarget.digest⟩,
      source.envelope.revision + 1⟩
    let transferred ← sealExecutionEnvelope { source.envelope with
      revision := source.envelope.revision + 1
      transfer := some receipt
      terminal := some ⟨.transferred,ascii "rollover",none⟩ }
    .ok (transferred,sealedTarget,receipt)

structure TargetFacts (source target : SealedEnvelope) (lineage : RolloverLineage) : Prop where
  rollover : target.envelope.rollover = some lineage
  valid : lineage.validate = .ok ()
  targetID : lineage.targetID = target.envelope.executionID
  sourceID : lineage.source.executionID = source.envelope.executionID
  sourceRevision : lineage.source.revision = source.envelope.revision
  sourceDigest : lineage.source.digest = source.digest
  transfer : target.envelope.transfer = none
  terminal : target.envelope.terminal = none
  fork : target.envelope.fork = none

theorem validateRolloverTarget_eq_ok {checks : PayloadChecks} {source target : SealedEnvelope}
    (h : validateRolloverTarget checks source target = .ok ()) :
    ∃ lineage, TargetFacts source target lineage := by
  unfold validateRolloverTarget at h
  cases hl : target.envelope.rollover with
  | none => simp [hl,fail] at h
  | some l =>
    simp only [hl,bind_eq_ok,require_eq_ok,Bool.and_eq_true,and_assoc,beq_iff_eq,isOk_iff,
      Option.isNone_iff_eq_none] at h
    obtain ⟨-,hv,hid,hsrc,hrev,hdigest,-,-,-,-,-,htransfer,hterminal,hfork,-⟩ := h
    exact ⟨l,hl,hv,hid,hsrc,hrev,hdigest,htransfer,hterminal,hfork⟩

theorem TargetFacts.apart {source target : SealedEnvelope} {lineage : RolloverLineage}
    (h : TargetFacts source target lineage) :
    target.envelope.executionID ≠ source.envelope.executionID := by
  have hv := h.valid
  simp only [RolloverLineage.validate,bind_eq_ok,require_eq_ok,Bool.and_eq_true,and_assoc,
    bne_iff_ne] at hv
  obtain ⟨-,-,-,-,-,-,hne,-⟩ := hv
  rwa [h.targetID,h.sourceID] at hne

/-- A published pair: the transferred source, the created target and the receipt that joins them. -/
structure Publication (source target transferred created : SealedEnvelope) (receipt : RolloverReceipt) :
    Prop where
  facts : TargetFacts source target receipt.lineage
  sourceFork : source.envelope.fork = none
  sourceTransfer : source.envelope.transfer = none
  sourceRevision : source.envelope.revision ≠ maxRevision
  receiptTarget : receipt.target = ⟨target.envelope.executionID,1,created.digest⟩
  receiptRevision : receipt.sourceRevision = source.envelope.revision + 1
  sealedTarget : sealExecutionEnvelope { target.envelope with revision := 1 } = .ok created
  sealedSource : sealExecutionEnvelope { source.envelope with
    revision := source.envelope.revision + 1
    transfer := some receipt
    terminal := some ⟨.transferred,ascii "rollover",none⟩ } = .ok transferred

theorem prepareExecutionRolloverPublication_eq_ok {checks : PayloadChecks}
    {source target transferred created : SealedEnvelope} {lease : ExecutionLease}
    {receipt : RolloverReceipt}
    (h : prepareExecutionRolloverPublication checks source target lease =
      .ok (transferred,created,receipt)) :
    source.envelope.executionID = lease.executionID ∧
      Publication source target transferred created receipt := by
  simp only [prepareExecutionRolloverPublication,bind_eq_ok,require_eq_ok,exists_const,
    Bool.and_eq_true,beq_iff_eq] at h
  obtain ⟨hlease,u,hsource,u',htarget,h⟩ := h
  obtain ⟨lineage,hfacts⟩ := validateRolloverTarget_eq_ok htarget
  simp only [validateRolloverSource,bind_eq_ok,require_eq_ok,exists_const,Bool.not_eq_true',
    Bool.or_eq_false_iff,Option.isSome_eq_false_iff,Option.isNone_iff_eq_none,beq_eq_false_iff_ne] at hsource
  obtain ⟨⟨⟨⟨hfork,htransfer⟩,-⟩,hmax⟩,-⟩ := hsource
  simp only [hfacts.rollover,bind_eq_ok,require_eq_ok,exists_const,Except.ok.injEq,
    Prod.mk.injEq] at h
  obtain ⟨-,-,created',hcreated,-,-,-,transferred',htransferred,rfl,rfl,rfl⟩ := h
  rw [← hfacts.rollover] at hcreated
  exact ⟨hlease.1.1,hfacts,hfork,htransfer,hmax,rfl,rfl,hcreated,htransferred⟩

section Publications

variable {source target transferred created : SealedEnvelope} {receipt : RolloverReceipt}

theorem Publication.transferred_envelope (h : Publication source target transferred created receipt) :
    transferred.envelope = { source.envelope with
      revision := source.envelope.revision + 1
      transfer := some receipt
      terminal := some ⟨.transferred,ascii "rollover",none⟩ } :=
  (sealExecutionEnvelope_eq_ok h.sealedSource).envelope

theorem Publication.created_envelope (h : Publication source target transferred created receipt) :
    created.envelope = { target.envelope with revision := 1 } :=
  (sealExecutionEnvelope_eq_ok h.sealedTarget).envelope

theorem Publication.receipt_valid (h : Publication source target transferred created receipt) :
    receipt.validate = .ok () := by
  have hseal := sealExecutionEnvelope_eq_ok h.sealedTarget
  have htarget : receipt.target.validate = .ok () := by
    have hid : target.envelope.executionID ≠ [] := hseal.named
    have htext : Utf8.valid target.envelope.executionID = true := hseal.text
    rw [h.receiptTarget]
    simp [HistoricalCheckpointReference.validate,hid,htext,validRuntimeText,hseal.digest,
      Sha256.wellFormed_sum,require]
    rfl
  have hmax : receipt.lineage.source.revision ≠ maxRevision := by
    rw [h.facts.sourceRevision]
    exact h.sourceRevision
  simp only [RolloverReceipt.validate,require_eq_ok,Bool.and_eq_true,isOk_iff,beq_iff_eq,bne_iff_ne]
  refine ⟨⟨⟨⟨⟨h.facts.valid,htarget⟩,?_⟩,?_⟩,hmax⟩,?_⟩
  · rw [h.receiptTarget,h.facts.targetID]
  · rw [h.receiptTarget]
  · rw [h.receiptRevision,h.facts.sourceRevision]

end Publications

end Publication
end Flowy
