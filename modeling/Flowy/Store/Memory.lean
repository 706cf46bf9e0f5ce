import Flowy.Store.Basic

/-! The in-memory conformance store. One mutex covers each operation; a map read of a missing key
gives the zero value. -/
namespace Flowy.Memory

structure MemoryStore where
  history : GoMap Text (GoMap Nat SealedEnvelope)
  heads : GoMap Text Nat
  leases : GoMap Text ExecutionLease
  fences : GoMap Text Nat
  lineage : GoMap Text ForkLineage
  incoming : GoMap Text RolloverReceipt
  outgoing : GoMap Text RolloverReceipt

def MemoryStore.head (s : MemoryStore) (id : Text) : Nat := (s.heads.get? id).getD 0
def MemoryStore.fence (s : MemoryStore) (id : Text) : Nat := (s.fences.get? id).getD 0
def MemoryStore.items (s : MemoryStore) (id : Text) : GoMap Nat SealedEnvelope :=
  (s.history.get? id).getD ∅
def MemoryStore.lease (s : MemoryStore) (id : Text) : ExecutionLease :=
  (s.leases.get? id).getD ⟨[],[],0,.zero⟩

def MemoryStore.held (s : MemoryStore) (lease : ExecutionLease) (now : Time) : Bool :=
  let current := s.lease lease.executionID
  lease.incarnation != 0 && current.owner == lease.owner && current.incarnation == lease.incarnation &&
    current.expiresAt.after now

section Operations

variable [Sealing] (checks : PayloadChecks) (clock : Nat → Time) (s : MemoryStore)

/-- Documents are decoded on every read. -/
def decodeExecution (document : SealedEnvelope) (id : Text) (revision : Nat) : Result SealedEnvelope := do
  validateExecutionIntegrity document.reread id revision
  .ok document.reread

def decodeAnchoredExecution (data : Option SealedEnvelope) (id : Text) (revision : Nat) :
    Result SealedEnvelope :=
  match data with
  | none => fail .executionCheckpointUnavailable
  | some document => do
    let x ← decodeExecution document id revision
    validateExecutionForkAnchor x.envelope (s.lineage.get? id)
    validateExecutionLifecycleAnchors x (s.incoming.get? id) (s.outgoing.get? id)
    .ok x

def loadExecution (id : Text) : Result SealedEnvelope :=
  if s.head id = 0 then fail .threadNotFound
  else decodeAnchoredExecution s ((s.items id).get? (s.head id)) id (s.head id)

def loadCheckpoint (id : Text) (revision : Nat) : Result SealedEnvelope :=
  if revision = 0 then fail .invalidSnapshot
  else if revision > s.head id then fail .threadNotFound
  else decodeAnchoredExecution s ((s.items id).get? revision) id revision

/-- The committed predecessor, absent before the first commit. -/
def loadPrevious (id : Text) (expectedRevision : Nat) : Result (Option RawEnvelope) :=
  if expectedRevision > 0 then do
    let stored ← decodeAnchoredExecution s ((s.items id).get? expectedRevision) id expectedRevision
    .ok (some stored.envelope)
  else .ok none

def commitExecution (expectedRevision : Nat) (lease : ExecutionLease) (envelope : RawEnvelope) :
    Result (MemoryStore × SealedEnvelope) := do
  require (expectedRevision != maxRevision) .executionCapability
  require (s.held lease (clock 0) && envelope.executionID == lease.executionID) .leaseLost
  envelope.descriptor.validate
  require (envelope.progress.executionPointer != []) .invalidSnapshot
  require (s.head envelope.executionID == expectedRevision) .concurrencyConflict
  let previous ← loadPrevious s envelope.executionID expectedRevision
  validateExecutionRolloverTransition previous envelope
  validateExecutionForkTransition previous envelope
  let x ← sealExecutionEnvelope { envelope with revision := expectedRevision + 1 }
  let _ ← x.marshal
  let result ← decodeExecution x x.envelope.executionID x.envelope.revision
  let items := (s.items envelope.executionID).set x.envelope.revision x
  .ok ({ s with
    history := s.history.set envelope.executionID items
    heads := s.heads.set envelope.executionID x.envelope.revision
    lineage := match expectedRevision, result.envelope.fork with
      | 0, some lineage => s.lineage.set envelope.executionID lineage
      | _, _ => s.lineage },result)

def acquireExecution (executionID owner : Text) (ttl : Duration) : Result (MemoryStore × ExecutionLease) := do
  if !(executionID != [] && owner != [] && !(ttl ≤ 0)) then
    .error ⟨ascii "flowy: invalid lease acquisition",[]⟩
  else if (s.lease executionID).expiresAt.after (clock 0) then
    fail (if (s.lease executionID).owner == owner then .threadLeaseBusy else .leaseHeld)
  else if s.fence executionID == maxRevision then fail .executionCapability
  else
    let lease : ExecutionLease := ⟨executionID,owner,s.fence executionID + 1,(clock 1).add ttl⟩
    .ok ({ s with
      fences := s.fences.set executionID (s.fence executionID + 1)
      leases := s.leases.set executionID lease },lease)

def renewExecution (lease : ExecutionLease) (ttl : Duration) : Result (MemoryStore × ExecutionLease) := do
  if ttl ≤ 0 then .error ⟨ascii "flowy: invalid lease renewal",[]⟩
  else do
    require (s.held lease (clock 0)) .leaseLost
    let lease := { lease with expiresAt := (clock 1).add ttl }
    .ok ({ s with leases := s.leases.set lease.executionID lease },lease)

def releaseExecution (lease : ExecutionLease) : Result (MemoryStore × Unit) :=
  match s.leases.get? lease.executionID with
  | none =>
    if s.fence lease.executionID == lease.incarnation && lease.incarnation != 0 then .ok (s,())
    else fail .leaseLost
  | some current =>
    if current.owner != lease.owner || current.incarnation != lease.incarnation then fail .leaseLost
    else .ok ({ s with leases := s.leases.delete lease.executionID },())

def commitRollover (lease : ExecutionLease) (source : HistoricalCheckpointReference)
    (target : SealedEnvelope) : Result (MemoryStore × RolloverReceipt) := do
  require (s.held lease (clock 0) && lease.executionID == source.executionID) .leaseLost
  require (s.outgoing.get? source.executionID).isNone .executionRolloverConflict
  require (s.head source.executionID == source.revision) .concurrencyConflict
  require (source.revision != 0) .threadNotFound
  let current ← decodeAnchoredExecution s ((s.items source.executionID).get? source.revision)
    source.executionID source.revision
  require (current.digest == source.digest) .executionRolloverConflict
  require (s.head target.envelope.executionID == 0 && s.fence target.envelope.executionID == 0)
    .executionRolloverConflict
  let (transferred,created,receipt) ← prepareExecutionRolloverPublication checks current target lease
  let _ ← transferred.marshal
  let _ ← created.marshal
  let items := (s.items source.executionID).set transferred.envelope.revision transferred
  .ok ({ s with
    history := (s.history.set source.executionID items).set created.envelope.executionID
      ((∅ : GoMap Nat SealedEnvelope).set 1 created)
    heads := (s.heads.set source.executionID transferred.envelope.revision).set
      created.envelope.executionID 1
    outgoing := s.outgoing.set source.executionID receipt
    incoming := s.incoming.set created.envelope.executionID receipt },receipt)

def validateRetentionProtected (id : Text) (items : GoMap Nat SealedEnvelope) : List Nat → Result Unit
  | [] => .ok ()
  | r :: rest => do
    let _ ← decodeAnchoredExecution s (items.get? r) id r
    validateRetentionProtected id items rest

def documentLength (x : SealedEnvelope) : Nat := x.text.length

def retainExecution (request : ExecutionRetentionRequest) :
    Result (MemoryStore × ExecutionRetentionReceipt) := do
  request.validate
  require (!(s.lease request.executionID).expiresAt.after (clock 0)) .threadLeaseBusy
  require (s.head request.executionID != 0) .threadNotFound
  require (s.head request.executionID == request.revision) .concurrencyConflict
  let items := s.items request.executionID
  match items.get? request.revision with
  | none =>
    if request.policy.deletePayload then .ok (s,⟨request.executionID,request.revision,0,0⟩)
    else fail .executionCheckpointUnavailable
  | some document => do
    let source ← decodeAnchoredExecution s (some document) request.executionID request.revision
    validateExecutionLifecycleBoundary checks source
    require (!(request.policy.deletePayload && source.envelope.terminal.isNone)) .executionLifecycleUnsafe
    validateRetentionProtected s request.executionID items request.policy.protectedRevisions
    let removed := (items.filter fun r _ => !executionRevisionRetained request r).values
    let kept := items.filter fun r _ => executionRevisionRetained request r
    .ok ({ s with history := s.history.set request.executionID kept },
      ⟨request.executionID,request.revision,removed.length,(removed.map documentLength).sum⟩)

def step (op : StoreOp) : MemoryStore × Result StoreReply :=
  match op with
  | .acquire id owner ttl => transact s (acquireExecution clock s id owner ttl) .lease
  | .renew lease ttl => transact s (renewExecution clock s lease ttl) .lease
  | .release lease => transact s (releaseExecution s lease) fun _ => .released
  | .commit expected lease e => transact s (commitExecution clock s expected lease e) .envelope
  | .rollover lease source target =>
    transact s (commitRollover checks clock s lease source target) .rolledOver
  | .retain request => transact s (retainExecution checks clock s request) .retained

end Operations

def view (s : MemoryStore) : Leased.State Text Text Time SealedEnvelope where
  fence := s.fence
  lease id := (s.leases.get? id).map fun l => ⟨l.owner,l.incarnation,l.expiresAt⟩
  head := s.head
  history id r := (s.items id).get? r

def store [Sealing] (checks : PayloadChecks) : Store where
  State := MemoryStore
  init := ⟨∅,∅,∅,∅,∅,∅,∅⟩
  step clock op s := step checks clock s op
  view := view

end Flowy.Memory
