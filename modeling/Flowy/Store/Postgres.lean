import Flowy.Store.Basic

/-! The PostgreSQL execution store. A transaction holds the row lock of its execution from its first
statement to its commit, so it is modelled as one function; each evaluation of `clock_timestamp()`
is a separate reading. -/
namespace Flowy.Postgres

open Json

/-- A row of `flowy_executions`. -/
structure ExecutionRow where
  revision : Nat
  fence : Nat
  leaseOwner : Option Text
  leaseExpiry : Option Time
  forkLineage : Option ForkLineage
  rolloverIncoming : Option RolloverReceipt
  rolloverOutgoing : Option RolloverReceipt
  payloadDeleted : Bool
deriving DecidableEq

def ExecutionRow.default : ExecutionRow := ⟨0,0,none,none,none,none,none,false⟩

/-- JSONB columns keep the value of the document they were written from. -/
structure Database where
  executions : GoMap Text ExecutionRow
  history : GoMap (Text × Nat) SealedEnvelope

def Database.setRow (db : Database) (id : Text) (row : ExecutionRow) : Database :=
  { db with executions := db.executions.set id row }

def Database.insertHistory (db : Database) (id : Text) (revision : Nat) (payload : SealedEnvelope) :
    Database :=
  { db with history := db.history.set (id,revision) payload }

def maxInt64 : Nat := 2 ^ 63 - 1

def sqlError (code : String) : Err := ⟨ascii code,[]⟩

/-- JSONB refuses the character U+0000. -/
def jsonbAccepts (ts : List Token) : Bool := ts.all fun
  | .punct _ => true
  | .str s => !s.contains 0

/-- `lease_owner=@owner AND fence=@fence AND lease_expiry>clock_timestamp()`. -/
def ExecutionRow.heldBy (row : ExecutionRow) (lease : ExecutionLease) (now : Time) : Bool :=
  row.leaseOwner == some lease.owner && row.fence == lease.incarnation &&
    row.leaseExpiry.any fun expiry => expiry.after now

/-- The update of a commit; the first one fixes the fork lineage. -/
def ExecutionRow.committed (row : ExecutionRow) (x : SealedEnvelope) : ExecutionRow :=
  { row with
    revision := x.envelope.revision
    forkLineage := if row.revision = 0 then x.envelope.fork else row.forkLineage }

/-- Microseconds, rounded up. -/
def leaseTTL (ttl : Duration) : Duration :=
  (ttl.tdiv 1000 + if ttl.tmod 1000 != 0 then 1 else 0) * 1000

section Load

variable [Sealing]

def decodeRawEnvelope (payload : Option SealedEnvelope) (id : Text) (revision expectedRevision : Nat) :
    Result SealedEnvelope :=
  match payload with
  | none => if revision = 0 then fail .threadNotFound else fail .executionCorrupt
  | some document => do
    require (!(expectedRevision != 0 && revision != expectedRevision)) .executionCorrupt
    validateExecutionIntegrity document.reread id revision
    .ok document.reread

def loadAnchoredEnvelope (row : ExecutionRow) (revision : Nat) (payload : Option SealedEnvelope)
    (id : Text) (expectedRevision : Nat) : Result SealedEnvelope := do
  require (!(revision > 0 && payload.isNone && (row.payloadDeleted || expectedRevision > 0)))
    .executionCheckpointUnavailable
  let x ← decodeRawEnvelope payload id revision expectedRevision
  validateExecutionForkAnchor x.envelope (row.forkLineage.map ForkLineage.codec.reread)
  validateExecutionLifecycleAnchors x (row.rolloverIncoming.map RolloverReceipt.codec.reread)
    (row.rolloverOutgoing.map RolloverReceipt.codec.reread)
  .ok x

def loadExecution (db : Database) (id : Text) : Result SealedEnvelope :=
  match db.executions.get? id with
  | none => fail .threadNotFound
  | some row => loadAnchoredEnvelope row row.revision (db.history.get? (id,row.revision)) id 0

def loadCheckpoint (db : Database) (id : Text) (revision : Nat) : Result SealedEnvelope :=
  if revision = 0 then fail .invalidSnapshot
  else if revision > maxInt64 then fail .executionCapability
  else match db.executions.get? id with
    | none => fail .threadNotFound
    | some row =>
      if row.revision ≥ revision then
        loadAnchoredEnvelope row revision (db.history.get? (id,revision)) id revision
      else fail .threadNotFound

/-- The caller holds the row lock and has checked fencing and the expected revision. -/
def validateForkPredecessor (db : Database) (row : ExecutionRow) (next : RawEnvelope) : Result Unit :=
  if row.revision = 0 then do
    validateExecutionRolloverTransition none next
    validateExecutionForkTransition none next
  else match db.history.get? (next.executionID,row.revision) with
    | none => fail .executionCorrupt
    | some document => do
      let previous ← loadAnchoredEnvelope row row.revision (some document) next.executionID row.revision
      validateExecutionRolloverTransition (some previous.envelope) next
      validateExecutionForkTransition (some previous.envelope) next

end Load

section Operations

variable [Sealing] (checks : PayloadChecks) (clock : Nat → Time) (db : Database)

def acquireExecution (executionID owner : Text) (ttl : Duration) : Result (Database × ExecutionLease) := do
  require (executionID != [] && owner != [] && !(ttl ≤ 0)) .invalidResumeToken
  let row := (db.executions.get? executionID).getD .default
  if row.leaseExpiry.any fun expiry => expiry.after (clock 0) then
    fail (if row.leaseOwner.getD [] == owner then .threadLeaseBusy else .leaseHeld)
  else if row.fence + 1 > maxInt64 then .error (.wrap (.of .executionCapability) (sqlError "22003"))
  else
    let expiry := (clock 1).add (leaseTTL ttl)
    .ok (db.setRow executionID { row with
        fence := row.fence + 1, leaseOwner := some owner, leaseExpiry := some expiry },
      ⟨executionID,owner,row.fence + 1,expiry⟩)

def leaseValid (lease : ExecutionLease) : Bool :=
  lease.incarnation != 0 && lease.incarnation ≤ maxInt64 && lease.executionID != [] && lease.owner != []

def renewExecution (lease : ExecutionLease) (ttl : Duration) : Result (Database × ExecutionLease) := do
  require (!(ttl ≤ 0) && leaseValid lease) .leaseLost
  match db.executions.get? lease.executionID with
  | none => fail .leaseLost
  | some row =>
    if row.heldBy lease (clock 0) then
      let expiry := (clock 1).add (leaseTTL ttl)
      .ok (db.setRow lease.executionID { row with leaseExpiry := some expiry },
        { lease with expiresAt := expiry })
    else fail .leaseLost

def releaseExecution (lease : ExecutionLease) : Result (Database × Unit) := do
  require (leaseValid lease) .leaseLost
  match db.executions.get? lease.executionID with
  | none => fail .leaseLost
  | some row =>
    if row.fence == lease.incarnation &&
        (row.leaseOwner == some lease.owner || row.leaseOwner.isNone) then
      .ok (db.setRow lease.executionID { row with leaseOwner := none, leaseExpiry := none },())
    else fail .leaseLost

def commitExecution (expectedRevision : Nat) (lease : ExecutionLease) (envelope : RawEnvelope) :
    Result (Database × SealedEnvelope) := do
  require (expectedRevision < maxInt64) .executionCapability
  require (lease.incarnation != 0 && lease.incarnation ≤ maxInt64 && lease.owner != [] &&
    envelope.executionID == lease.executionID) .leaseLost
  envelope.descriptor.validate
  require (envelope.progress.executionPointer != []) .invalidSnapshot
  match db.executions.get? lease.executionID with
  | none => fail .leaseLost
  | some row => do
    require (row.heldBy lease (clock 0)) .leaseLost
    require (row.revision == expectedRevision) .concurrencyConflict
    validateForkPredecessor db row envelope
    let x ← sealExecutionEnvelope { envelope with revision := expectedRevision + 1 }
    let _ ← x.marshal
    if !jsonbAccepts (SealedEnvelope.codec.tokens x) then .error (sqlError "22P05")
    else if (db.history.get? (envelope.executionID,x.envelope.revision)).isSome then
      .error (sqlError "23505")
    else do
      require (row.heldBy lease (clock 1)) .leaseLost
      checks.candidates x
      .ok ((db.insertHistory envelope.executionID x.envelope.revision x).setRow envelope.executionID
        (row.committed x),x.reread)

def lockRolloverSource (lease : ExecutionLease) (source : HistoricalCheckpointReference) :
    Result (ExecutionRow × SealedEnvelope) := do
  require (lease.executionID == source.executionID && lease.owner != [] && lease.incarnation != 0) .leaseLost
  match db.executions.get? source.executionID with
  | none => fail .leaseLost
  | some row => do
    require (row.heldBy lease (clock 0)) .leaseLost
    require (row.revision == source.revision) .concurrencyConflict
    let x ← loadAnchoredEnvelope row row.revision (db.history.get? (source.executionID,row.revision))
      source.executionID source.revision
    require (x.digest == source.digest) .executionRolloverConflict
    .ok (row,x)

def commitRollover (lease : ExecutionLease) (source : HistoricalCheckpointReference)
    (target : SealedEnvelope) : Result (Database × RolloverReceipt) := do
  let (row,current) ← lockRolloverSource clock db lease source
  let (transferred,created,receipt) ← prepareExecutionRolloverPublication checks current target lease
  require (db.executions.get? created.envelope.executionID).isNone .executionRolloverConflict
  let _ ← transferred.marshal
  let _ ← created.marshal
  if !(jsonbAccepts (SealedEnvelope.codec.tokens transferred) &&
      jsonbAccepts (SealedEnvelope.codec.tokens created)) then .error (sqlError "22P05")
  else if (db.history.get? (source.executionID,transferred.envelope.revision)).isSome ||
      (db.history.get? (created.envelope.executionID,1)).isSome then .error (sqlError "23505")
  else do
    require (row.heldBy lease (clock 1)) .leaseLost
    checks.candidates transferred
    checks.candidates created
    let db := db.setRow created.envelope.executionID
      { ExecutionRow.default with revision := 1, rolloverIncoming := some receipt }
    let db := db.insertHistory source.executionID transferred.envelope.revision transferred
    let db := db.insertHistory created.envelope.executionID 1 created
    .ok (db.setRow source.executionID
      { row with revision := transferred.envelope.revision, rolloverOutgoing := some receipt },receipt)

def retentionSelection (request : ExecutionRetentionRequest) (revision : Nat) :
    Result (Nat × List Nat) := do
  require (!(request.policy.keepLast < 0) && revision ≤ maxInt64) .executionLifecycleUnsafe
  let firstRetained := if request.policy.keepLast < revision then
    revision - request.policy.keepLast.toNat + 1 else 1
  let firstRetained := if !request.policy.deletePayload && firstRetained > revision then revision
    else firstRetained
  require (request.policy.protectedRevisions.all fun r => r ≤ maxInt64) .executionLifecycleUnsafe
  .ok (firstRetained,request.policy.protectedRevisions)

def loadProtected (row : ExecutionRow) (id : Text) : List Nat → Result Unit
  | [] => .ok ()
  | r :: rest => do
    let _ ← loadAnchoredEnvelope row r (db.history.get? (id,r)) id r
    loadProtected row id rest

def validateRetentionDependencies (row : ExecutionRow) (request : ExecutionRetentionRequest) :
    Result Unit := do
  let source ← loadAnchoredEnvelope row row.revision
    (db.history.get? (request.executionID,row.revision)) request.executionID request.revision
  validateExecutionLifecycleBoundary checks source
  require (!(request.policy.deletePayload && source.envelope.terminal.isNone)) .executionLifecycleUnsafe
  loadProtected db row request.executionID request.policy.protectedRevisions

def historyKept (request : ExecutionRetentionRequest) (firstRetained : Nat) (revision : Nat) : Bool :=
  !(request.policy.deletePayload || (revision < firstRetained &&
    !request.policy.protectedRevisions.contains revision))

/-- `bytes` is `octet_length(payload::text)`. -/
def retainExecution (bytes : SealedEnvelope → Nat) (request : ExecutionRetentionRequest) :
    Result (Database × ExecutionRetentionReceipt) := do
  require (!(request.revision > maxInt64 || request.policy.keepLast < 0)) .executionLifecycleUnsafe
  request.validate
  match db.executions.get? request.executionID with
  | none => fail .threadNotFound
  | some row => do
    require (!(row.leaseExpiry.any fun expiry => expiry.after (clock 0))) .threadLeaseBusy
    require (row.revision == request.revision) .concurrencyConflict
    if row.payloadDeleted then
      if request.policy.deletePayload then .ok (db,⟨request.executionID,row.revision,0,0⟩)
      else fail .executionCheckpointUnavailable
    else do
      validateRetentionDependencies checks db row request
      let (firstRetained,_) ← retentionSelection request row.revision
      let kept : Text × Nat → SealedEnvelope → Bool := fun key _ =>
        key.1 != request.executionID || historyKept request firstRetained key.2
      let removed := (db.history.filter fun key p => !kept key p).values
      .ok (({ db with history := db.history.filter kept }).setRow request.executionID
          { row with payloadDeleted := request.policy.deletePayload },
        ⟨request.executionID,row.revision,removed.length,(removed.map bytes).sum⟩)

end Operations

section Machine

variable [Sealing] (checks : PayloadChecks) (bytes : SealedEnvelope → Nat)

def step (clock : Nat → Time) (op : StoreOp) (db : Database) : Database × Result StoreReply :=
  match op with
  | .acquire id owner ttl => transact db (acquireExecution clock db id owner ttl) .lease
  | .renew lease ttl => transact db (renewExecution clock db lease ttl) .lease
  | .release lease => transact db (releaseExecution db lease) fun _ => .released
  | .commit expected lease e =>
    transact db (commitExecution checks clock db expected lease e) .envelope
  | .rollover lease source target =>
    transact db (commitRollover checks clock db lease source target) .rolledOver
  | .retain request => transact db (retainExecution checks clock db bytes request) .retained

/-- A lease needs both of its columns. -/
def ExecutionRow.lease (row : ExecutionRow) : Option (Leased.Lease Text Time) :=
  match row.leaseOwner, row.leaseExpiry with
  | some owner, some expiry => some ⟨owner,row.fence,expiry⟩
  | _, _ => none

def view (db : Database) : Leased.State Text Text Time SealedEnvelope where
  fence id := (db.executions.get? id).elim 0 fun row => row.fence
  lease id := (db.executions.get? id).bind fun row => row.lease
  head id := (db.executions.get? id).elim 0 fun row => row.revision
  history id r := db.history.get? (id,r)

def store : Store where
  State := Database
  init := ⟨∅,∅⟩
  step := step checks bytes
  view := view

end Machine
end Flowy.Postgres
