import Flowy.Lib.Keyset
import Flowy.Store.Candidates
import Flowy.Store.Loadable

/-! The discovery index of the PostgreSQL store. Commits, rollovers and deletions rewrite the rows of
their executions in their own transactions; a rebuild does the same for one head at a time. -/
namespace Flowy.Postgres

open Json

/-- The order PostgreSQL compares execution names in: fixed, total, the empty text first. -/
structure Collation where
  order : LinearOrder Text
  nil_lt : ∀ t : Text, t ≠ [] → order.lt [] t

structure IndexedDatabase where
  database : Database
  discovery : Discovery

structure DiscoveryDiagnostic where
  executionID : Text
  revision : Nat
  identity : Text
  kind : Option CandidateKind
  reason : Text
deriving DecidableEq, Repr

def discoveryStaleRevision : Err := ⟨ascii "flowy postgres: stale candidate revision",[]⟩
def discoveryProfileMismatch : Err := ⟨ascii "flowy postgres: candidate profile mismatch",[]⟩
def discoveryProjectionMismatch : Err := ⟨ascii "flowy postgres: candidate identity or deadline mismatch",[]⟩

/-- Errors that set a record aside; all others end the operation. -/
def discoveryRecordError (err : Err) : Bool :=
  err.is .executionCorrupt || err.is .invalidSnapshot || err.is .executionCheckpointUnavailable ||
    err.is .threadNotFound || err.is .executionImportInvalid || err == discoveryStaleRevision ||
    err == discoveryProfileMismatch || err == discoveryProjectionMismatch

section Operations

variable [Sealing] (checks : PayloadChecks) (payloads : PayloadCodec) (bytes : SealedEnvelope → Nat)

def indexed : PayloadChecks :=
  { checks with candidates := fun x => (executionCandidates payloads x).map fun _ => () }

def projectWritten (db : Database) (ix : Discovery) (id : Text) (revision : Nat) : Result Discovery :=
  match db.history.get? (id,revision) with
  | none => .ok ix
  | some x => replaceDiscoveryProjection payloads ix x

namespace IndexedDatabase

variable (clock : Nat → Time) (d : IndexedDatabase)

def commitExecution (expectedRevision : Nat) (lease : ExecutionLease) (envelope : RawEnvelope) :
    Result (IndexedDatabase × SealedEnvelope) := do
  let (db,result) ← Postgres.commitExecution (indexed checks payloads) clock d.database expectedRevision
    lease envelope
  let ix ← projectWritten payloads db d.discovery envelope.executionID (expectedRevision + 1)
  .ok (⟨db,ix⟩,result)

def commitRollover (lease : ExecutionLease) (source : HistoricalCheckpointReference)
    (target : SealedEnvelope) : Result (IndexedDatabase × RolloverReceipt) := do
  let (db,receipt) ← Postgres.commitRollover (indexed checks payloads) clock d.database lease source target
  let ix ← projectWritten payloads db d.discovery source.executionID (source.revision + 1)
  let ix ← projectWritten payloads db ix target.envelope.executionID 1
  .ok (⟨db,ix⟩,receipt)

/-- A deletion that was made before is only acknowledged. -/
def retainExecution (request : ExecutionRetentionRequest) :
    Result (IndexedDatabase × ExecutionRetentionReceipt) := do
  let (db,receipt) ← Postgres.retainExecution (indexed checks payloads) clock d.database bytes request
  let deleted := (d.database.executions.get? request.executionID).any fun row => row.payloadDeleted
  .ok (⟨db,if request.policy.deletePayload && !deleted then
    removeDiscoveryProjection d.discovery request.executionID [] else d.discovery⟩,receipt)

def step (op : StoreOp) : IndexedDatabase × Result StoreReply :=
  let leased (r : Database × Result StoreReply) : IndexedDatabase × Result StoreReply :=
    (⟨r.1,d.discovery⟩,r.2)
  match op with
  | .acquire _ _ _ | .renew _ _ | .release _ =>
    leased (Postgres.step (indexed checks payloads) bytes clock op d.database)
  | .commit expected lease e =>
    transact d (d.commitExecution checks payloads clock expected lease e) .envelope
  | .rollover lease source target =>
    transact d (d.commitRollover checks payloads clock lease source target) .rolledOver
  | .retain request => transact d (d.retainExecution checks payloads bytes clock request) .retained

variable {clock}

def readHead (id : Text) : Result SealedEnvelope := do
  let x ← loadExecution d.database id
  let _ ← (executionCandidates payloads x).mapError (Err.join (.of .executionCorrupt))
  .ok x

def rebuildLoadedHead (id : Text) (revision : Nat) :
    Result (IndexedDatabase × Option DiscoveryDiagnostic) :=
  match d.readHead payloads id with
  | .ok x => do
    let ix ← replaceDiscoveryProjection payloads d.discovery x
    .ok (⟨d.database,ix⟩,none)
  | .error err =>
    if discoveryRecordError err then
      .ok (⟨d.database,removeDiscoveryProjection d.discovery id err.message⟩,
        some ⟨id,revision,[],none,err.message⟩)
    else .error err

def rebuildDiscoveryHead (id : Text) : Result (IndexedDatabase × Option DiscoveryDiagnostic) :=
  match d.database.executions.get? id with
  | none => .error ⟨ascii "no rows in result set",[]⟩
  | some row =>
    if row.payloadDeleted then .ok (⟨d.database,removeDiscoveryProjection d.discovery id []⟩,none)
    else d.rebuildLoadedHead payloads id row.revision

end IndexedDatabase

/-- Any interleaving of transactions; one that is rolled back leaves the database as it was. -/
inductive IndexedRun : IndexedDatabase → Prop
  | init : IndexedRun ⟨⟨∅,∅⟩,⟨∅,∅⟩⟩
  | step {d : IndexedDatabase} (clock : Nat → Time) (op : StoreOp) :
      IndexedRun d → IndexedRun (d.step checks payloads bytes clock op).1
  | rebuild {d d' : IndexedDatabase} {id : Text} {diagnostic : Option DiscoveryDiagnostic} :
      IndexedRun d → d.rebuildDiscoveryHead payloads id = .ok (d',diagnostic) → IndexedRun d'

end Operations

section Invariant

def headOf (db : Database) (id : Text) : Nat × Bool :=
  (db.executions.get? id).elim (0,false) fun row => (row.revision,row.payloadDeleted)

theorem headOf_row {db : Database} {id : Text} {row : ExecutionRow} (h : db.executions.get? id = some row) :
    headOf db id = (row.revision,row.payloadDeleted) := by
  simp [headOf,h]

theorem headOf_setRow (db : Database) (id id' : Text) (row : ExecutionRow) :
    headOf (db.setRow id row) id' = if id' = id then (row.revision,row.payloadDeleted) else headOf db id' := by
  unfold headOf
  rw [get?_setRow]
  split <;> rfl

theorem get?_insertHistory (db : Database) (id id' : Text) (r r' : Nat) (x : SealedEnvelope) :
    (db.insertHistory id r x).history.get? (id',r') =
      if id' = id ∧ r' = r then some x else db.history.get? (id',r') := by
  unfold Database.insertHistory
  rw [GoMap.get?_set]
  simp only [Prod.mk.injEq]

structure SameHead (id : Text) (db db' : Database) : Prop where
  head : headOf db' id = headOf db id
  history : db'.history.get? (id,(headOf db id).1) = db.history.get? (id,(headOf db id).1)

theorem SameHead.refl (id : Text) (db : Database) : SameHead id db db := ⟨rfl,rfl⟩

theorem SameHead.setRow {id id' : Text} {db db' : Database} (h : SameHead id db db') {row : ExecutionRow}
    (hne : id ≠ id') : SameHead id db (db'.setRow id' row) :=
  ⟨by rw [headOf_setRow,if_neg hne,h.head],h.history⟩

theorem SameHead.insertHistory {id id' : Text} {db db' : Database} (h : SameHead id db db') {r : Nat}
    {x : SealedEnvelope} (hne : id ≠ id') : SameHead id db (db'.insertHistory id' r x) :=
  ⟨h.head,by rw [get?_insertHistory,if_neg fun heq => hne heq.1,h.history]⟩

theorem sameHead_setRow {db : Database} {id : Text} {row : ExecutionRow}
    (h : (row.revision,row.payloadDeleted) = headOf db id) (id' : Text) : SameHead id' db (db.setRow id row) := by
  refine ⟨?_,rfl⟩
  rw [headOf_setRow]
  split
  · rename_i heq
    rw [heq,h]
  · rfl

variable [Sealing] (payloads : PayloadCodec)

/-- How the rows of an execution follow its head. A head that does not load may have been set aside. -/
inductive MirrorsAt (d : IndexedDatabase) (id : Text) : Prop
  | unwritten (head : headOf d.database id = (0,false)) (rows : RowsOf d.discovery id [])
  | deleted {r : Nat} (head : headOf d.database id = (r,true)) (written : r ≠ 0) (named : id ≠ [])
      (gone : d.database.history.get? (id,r) = none) (rows : RowsOf d.discovery id [])
  | live {r : Nat} {x : SealedEnvelope} {cs : List DueCandidate} (head : headOf d.database id = (r,false))
      (written : r ≠ 0) (document : d.database.history.get? (id,r) = some x)
      (candidates : executionCandidates payloads x = .ok cs) (distinct : (cs.map DueCandidate.key).Nodup)
      (rows : RowsOf d.discovery id cs ∨
        (RawEnvelope.stable x.envelope = false ∧ RowsOf d.discovery id []))

variable {payloads} {d d' : IndexedDatabase} {id : Text}

theorem MirrorsAt.frame (h : MirrorsAt payloads d id) (hsame : SameHead id d.database d'.database)
    (hrows : ∀ cs, RowsOf d.discovery id cs → RowsOf d'.discovery id cs) : MirrorsAt payloads d' id := by
  have hhistory := hsame.history
  cases h with
  | unwritten head rows => exact .unwritten (hsame.head.trans head) (hrows _ rows)
  | deleted head written named gone rows =>
    rw [head] at hhistory
    exact .deleted (hsame.head.trans head) written named (hhistory.trans gone) (hrows _ rows)
  | live head written document candidates distinct rows =>
    rw [head] at hhistory
    refine .live (hsame.head.trans head) written (hhistory.trans document) candidates distinct ?_
    rcases rows with rows | ⟨hbad,rows⟩
    · exact .inl (hrows _ rows)
    · exact .inr ⟨hbad,hrows _ rows⟩

theorem projectWritten_mirrors {db : Database} {ix ix' : Discovery} {r : Nat} {x : SealedEnvelope}
    (hdoc : db.history.get? (id,r) = some x) (hhead : headOf db id = (r,false)) (hr : r ≠ 0)
    (hid : x.envelope.executionID = id) (h : projectWritten payloads db ix id r = .ok ix') :
    MirrorsAt payloads ⟨db,ix'⟩ id ∧ ∀ id', id' ≠ id → ∀ cs, RowsOf ix id' cs → RowsOf ix' id' cs := by
  simp only [projectWritten,hdoc] at h
  obtain ⟨cs,hcs,hnodup,hrows,hothers⟩ := replaceDiscoveryProjection_eq_ok h
  rw [hid] at hrows hothers
  exact ⟨.live hhead hr hdoc hcs hnodup (.inl hrows),hothers⟩

variable {checks : PayloadChecks} {bytes : SealedEnvelope → Nat} {clock : Nat → Time}

theorem lease_sameHead {db : Database} {op : StoreOp}
    (hop : (∃ id owner ttl, op = .acquire id owner ttl) ∨ (∃ lease ttl, op = .renew lease ttl) ∨
      ∃ lease, op = .release lease) (id : Text) :
    SameHead id db (step checks bytes clock op db).1 := by
  rcases hop with ⟨key,owner,ttl,rfl⟩ | ⟨lease,ttl,rfl⟩ | ⟨lease,rfl⟩
  · simp only [step]
    cases h : acquireExecution clock db key owner ttl with
    | error err => exact .refl id db
    | ok r =>
      simp only [acquireExecution,bind_eq_ok,require_eq_ok,exists_const] at h
      obtain ⟨-,h⟩ := h
      split at h
      · cases h
      · split at h
        · cases h
        · cases h
          refine sameHead_setRow ?_ id
          cases hr : db.executions.get? key <;> simp [headOf,hr,ExecutionRow.default]
  · simp only [step]
    cases h : renewExecution clock db lease ttl with
    | error err => exact .refl id db
    | ok r =>
      simp only [renewExecution,bind_eq_ok,require_eq_ok,exists_const] at h
      obtain ⟨-,h⟩ := h
      cases hr : db.executions.get? lease.executionID with
      | none => simp [hr,fail] at h
      | some row =>
        simp only [hr] at h
        split at h
        · cases h
          refine sameHead_setRow ?_ id
          exact (headOf_row hr).symm
        · cases h
  · simp only [step]
    cases h : releaseExecution db lease with
    | error err => exact .refl id db
    | ok r =>
      simp only [releaseExecution,bind_eq_ok,require_eq_ok,exists_const] at h
      obtain ⟨-,h⟩ := h
      cases hr : db.executions.get? lease.executionID with
      | none => simp [hr,fail] at h
      | some row =>
        simp only [hr] at h
        split at h
        · cases h
          refine sameHead_setRow ?_ id
          exact (headOf_row hr).symm
        · cases h

theorem MirrorsAt.lease {op : StoreOp} (h : MirrorsAt payloads d id)
    (hop : (∃ id owner ttl, op = .acquire id owner ttl) ∨ (∃ lease ttl, op = .renew lease ttl) ∨
      ∃ lease, op = .release lease) :
    MirrorsAt payloads ⟨(step checks bytes clock op d.database).1,d.discovery⟩ id :=
  h.frame (lease_sameHead hop id) fun _ hrows => hrows

theorem MirrorsAt.not_deleted {row : ExecutionRow} (h : MirrorsAt payloads d id)
    (hrow : d.database.executions.get? id = some row)
    (hpresent : row.revision = 0 ∨ d.database.history.get? (id,row.revision) ≠ none) :
    row.payloadDeleted = false := by
  have hhead := headOf_row hrow
  cases h with
  | unwritten head => exact (congrArg Prod.snd (hhead.symm.trans head))
  | deleted head written named gone =>
    have heq := congrArg Prod.fst (hhead.symm.trans head)
    dsimp only at heq
    rcases hpresent with hzero | hsome
    · exact absurd (heq.symm.trans hzero) written
    · exact absurd (heq ▸ gone) hsome
  | live head => exact (congrArg Prod.snd (hhead.symm.trans head))

theorem commitExecution_mirrors {expected : Nat} {lease : ExecutionLease} {e : RawEnvelope}
    {y : SealedEnvelope} (hm : ∀ id, MirrorsAt payloads d id)
    (h : d.commitExecution checks payloads clock expected lease e = .ok (d',y)) (id : Text) :
    MirrorsAt payloads d' id := by
  simp only [IndexedDatabase.commitExecution,bind_eq_ok,Except.ok.injEq,Prod.mk.injEq] at h
  obtain ⟨⟨db,y'⟩,hbase,ix,hix,rfl,rfl⟩ := h
  obtain ⟨x,hx,-⟩ := commitExecution_eq_ok hbase
  obtain ⟨row,hrow,-,-,hrev,hpred,rfl⟩ := hx.row
  have hfacts := sealExecutionEnvelope_eq_ok hx.sealing
  rw [hx.named] at hix
  have hxid : x.envelope.executionID = lease.executionID := by
    rw [hfacts.envelope]
    exact hx.named
  have hxrev : (row.committed x).revision = expected + 1 := by
    rw [ExecutionRow.committed,hfacts.envelope]
  have hlive : row.payloadDeleted = false := by
    refine (hm lease.executionID).not_deleted hrow ?_
    unfold validateForkPredecessor at hpred
    split at hpred
    · rename_i hzero
      exact .inl hzero
    · split at hpred
      · cases hpred
      · rename_i document hdoc
        rw [hx.named] at hdoc
        exact .inr (by simp [hdoc])
  have hhead : headOf ((d.database.insertHistory lease.executionID (expected + 1) x).setRow
      lease.executionID (row.committed x)) lease.executionID = (expected + 1,false) := by
    rw [headOf_setRow,if_pos rfl,hxrev]
    exact congrArg _ hlive
  have hdoc : ((d.database.insertHistory lease.executionID (expected + 1) x).setRow
      lease.executionID (row.committed x)).history.get? (lease.executionID,expected + 1) = some x := by
    change (d.database.insertHistory lease.executionID (expected + 1) x).history.get? _ = _
    rw [get?_insertHistory,if_pos ⟨rfl,rfl⟩]
  obtain ⟨hwritten,hothers⟩ := projectWritten_mirrors hdoc hhead (Nat.succ_ne_zero _) hxid hix
  by_cases hid : id = lease.executionID
  · subst hid
    exact hwritten
  · exact (hm id).frame (((SameHead.refl id _).insertHistory hid).setRow hid) (hothers id hid)

theorem commitRollover_source {db db' : Database} {lease : ExecutionLease}
    {source : HistoricalCheckpointReference} {target : SealedEnvelope} {receipt : RolloverReceipt}
    {row : ExecutionRow} (hrow : db.executions.get? lease.executionID = some row)
    (h : commitRollover checks clock db lease source target = .ok (db',receipt)) :
    source.executionID = lease.executionID ∧ source.revision = row.revision := by
  simp only [commitRollover,bind_eq_ok] at h
  obtain ⟨⟨row',current⟩,hlock,-⟩ := h
  simp only [lockRolloverSource,bind_eq_ok,require_eq_ok,exists_const,Bool.and_eq_true,beq_iff_eq] at hlock
  obtain ⟨hnames,hlock⟩ := hlock
  have hid : source.executionID = lease.executionID := hnames.1.1.symm
  simp only [hid,hrow,bind_eq_ok,require_eq_ok,exists_const,beq_iff_eq] at hlock
  exact ⟨hid,hlock.2.1.symm⟩

theorem commitRollover_mirrors {lease : ExecutionLease} {source : HistoricalCheckpointReference}
    {target : SealedEnvelope} {receipt : RolloverReceipt} (hm : ∀ id, MirrorsAt payloads d id)
    (h : d.commitRollover checks payloads clock lease source target = .ok (d',receipt)) (id : Text) :
    MirrorsAt payloads d' id := by
  simp only [IndexedDatabase.commitRollover,bind_eq_ok,Except.ok.injEq,Prod.mk.injEq] at h
  obtain ⟨⟨db,receipt'⟩,hbase,ix,hix,ix',hix',rfl,rfl⟩ := h
  obtain ⟨row,document,current,transferred,created,hroll⟩ := commitRollover_eq_ok hbase
  obtain ⟨hsid,hsrev⟩ := commitRollover_source hroll.found hbase
  have hne := hroll.apart
  have hlive : row.payloadDeleted = false :=
    (hm lease.executionID).not_deleted hroll.found (.inr (by simp [hroll.head]))
  have htid : transferred.envelope.executionID = lease.executionID := by
    rw [hroll.published.transferred_envelope]
    exact hroll.loaded.named
  have hcid : created.envelope.executionID = target.envelope.executionID := by
    rw [hroll.published.created_envelope]
  rw [hsid,hsrev] at hix
  have hresult : db = _ := hroll.result
  have hheads : headOf db lease.executionID = (row.revision + 1,false) ∧
      headOf db target.envelope.executionID = (1,false) := by
    rw [hresult,headOf_setRow,if_pos rfl,headOf_setRow,if_neg hne]
    refine ⟨congrArg _ hlive,?_⟩
    exact (headOf_setRow d.database _ _ _).trans (if_pos rfl)
  have hdocs : db.history.get? (lease.executionID,row.revision + 1) = some transferred ∧
      db.history.get? (target.envelope.executionID,1) = some created := by
    rw [hresult]
    constructor
    · refine (get?_insertHistory _ _ _ _ _ _).trans ((if_neg fun heq => hne heq.1.symm).trans ?_)
      exact (get?_insertHistory _ _ _ _ _ _).trans (if_pos ⟨rfl,rfl⟩)
    · exact (get?_insertHistory _ _ _ _ _ _).trans (if_pos ⟨rfl,rfl⟩)
  obtain ⟨hsource,hothers⟩ := projectWritten_mirrors hdocs.1 hheads.1 (Nat.succ_ne_zero _) htid hix
  obtain ⟨htarget,hothers'⟩ := projectWritten_mirrors hdocs.2 hheads.2 Nat.one_ne_zero hcid hix'
  by_cases hid : id = target.envelope.executionID
  · subst hid
    exact htarget
  · by_cases hsource' : id = lease.executionID
    · subst hsource'
      exact hsource.frame (.refl _ _) (hothers' _ hid)
    · refine (hm id).frame ?_ fun cs hrows => hothers' id hid cs (hothers id hsource' cs hrows)
      rw [hresult]
      exact ((((SameHead.refl id _).setRow hid).insertHistory hsource').insertHistory hid).setRow hsource'

omit [Sealing] in
theorem head_kept {request : ExecutionRetentionRequest} {revision first : Nat} {rs : List Nat}
    (hkeep : request.policy.deletePayload = false)
    (h : retentionSelection request revision = .ok (first,rs)) : historyKept request first revision = true := by
  simp only [retentionSelection,hkeep,bind_eq_ok,require_eq_ok,exists_const,Except.ok.injEq,
    Prod.mk.injEq,Bool.not_false,Bool.true_and,decide_eq_true_eq] at h
  obtain ⟨-,-,hfirst,-⟩ := h
  have hle : first ≤ revision := by
    rw [← hfirst]
    split_ifs <;> omega
  simp [historyKept,hkeep,Nat.not_lt.mpr hle]

theorem sorted_mirrors {request : ExecutionRetentionRequest} {row : ExecutionRow} {first : Nat} {rs : List Nat}
    (hm : ∀ id, MirrorsAt payloads d id)
    (hrow : d.database.executions.get? request.executionID = some row)
    (hlive : row.payloadDeleted = false) (hwritten : row.revision ≠ 0) (hnamed : request.executionID ≠ [])
    (hselect : retentionSelection request row.revision = .ok (first,rs)) (id : Text) :
    MirrorsAt payloads
      ⟨({ d.database with history := d.database.history.filter fun key _ =>
          key.1 != request.executionID || historyKept request first key.2 }).setRow request.executionID
          { row with payloadDeleted := request.policy.deletePayload },
        if request.policy.deletePayload then removeDiscoveryProjection d.discovery request.executionID []
        else d.discovery⟩ id := by
  have hget : ∀ r, (d.database.history.filter fun key _ => key.1 != request.executionID ||
      historyKept request first key.2).get? (id,r) =
        if id != request.executionID || historyKept request first r then d.database.history.get? (id,r)
        else none := fun r =>
    GoMap.get?_filter_key _ (fun key : Text × Nat => key.1 != request.executionID ||
      historyKept request first key.2) (id,r)
  by_cases hid : id = request.executionID
  · subst hid
    cases hdelete : request.policy.deletePayload with
    | true =>
      refine .deleted (r := row.revision) ?_ hwritten hnamed ?_ (removeDiscoveryProjection_rows _ _ _)
      · rw [headOf_setRow,if_pos rfl]
      · exact (hget row.revision).trans (if_neg (by simp [historyKept,hdelete]))
    | false =>
      refine (hm _).frame ⟨?_,?_⟩ fun cs hrows => hrows
      · rw [headOf_setRow,if_pos rfl,headOf_row hrow,hlive]
      · rw [headOf_row hrow]
        exact (hget row.revision).trans (if_pos (by simp [head_kept hdelete hselect]))
  · refine (hm id).frame ⟨?_,?_⟩ fun cs hrows => ?_
    · rw [headOf_setRow,if_neg hid]
      rfl
    · exact (hget _).trans (if_pos (by simp [hid]))
    · cases request.policy.deletePayload with
      | true => exact removeDiscoveryProjection_of_ne _ hid hrows
      | false => exact hrows

theorem retainExecution_mirrors {request : ExecutionRetentionRequest} {receipt : ExecutionRetentionReceipt}
    (hm : ∀ id, MirrorsAt payloads d id)
    (h : d.retainExecution checks payloads bytes clock request = .ok (d',receipt)) (id : Text) :
    MirrorsAt payloads d' id := by
  simp only [IndexedDatabase.retainExecution,bind_eq_ok,Except.ok.injEq,Prod.mk.injEq] at h
  obtain ⟨⟨db,receipt'⟩,hbase,rfl,rfl⟩ := h
  simp only [retainExecution,bind_eq_ok,require_eq_ok,exists_const] at hbase
  obtain ⟨-,u,hvalid,hbase⟩ := hbase
  cases hrow : d.database.executions.get? request.executionID with
  | none => simp [hrow,fail] at hbase
  | some row =>
    simp only [hrow,bind_eq_ok,require_eq_ok,exists_const,Option.any_some,beq_iff_eq] at hbase ⊢
    obtain ⟨-,hrev,hbase⟩ := hbase
    by_cases hdeleted : row.payloadDeleted = true
    · simp only [hdeleted,if_true] at hbase
      split at hbase
      · cases hbase
        simpa [hdeleted] using hm id
      · cases hbase
    · rw [Bool.not_eq_true] at hdeleted
      simp only [hdeleted,Bool.false_eq_true,if_false,bind_eq_ok] at hbase
      obtain ⟨u',hdeps,⟨first,rs⟩,hselect,hbase⟩ := hbase
      cases hbase
      simp only [ExecutionRetentionRequest.validate,bind_eq_ok,require_eq_ok,exists_const,
        Bool.and_eq_true,bne_iff_ne] at hvalid
      obtain ⟨⟨⟨⟨⟨⟨hnamed,-⟩,hrequested⟩,-⟩,-⟩,-⟩,-⟩ := hvalid
      have hwritten : row.revision ≠ 0 := by
        rw [hrev]
        exact hrequested
      simpa [hdeleted] using sorted_mirrors hm hrow hdeleted hwritten hnamed hselect id

theorem step_mirrors (hm : ∀ id, MirrorsAt payloads d id) (op : StoreOp) (id : Text) :
    MirrorsAt payloads (d.step checks payloads bytes clock op).1 id := by
  cases op with
  | acquire key owner ttl => exact (hm id).lease (.inl ⟨key,owner,ttl,rfl⟩)
  | renew lease ttl => exact (hm id).lease (.inr (.inl ⟨lease,ttl,rfl⟩))
  | release lease => exact (hm id).lease (.inr (.inr ⟨lease,rfl⟩))
  | commit expected lease e =>
    simp only [IndexedDatabase.step]
    cases h : d.commitExecution checks payloads clock expected lease e with
    | error err => exact hm id
    | ok r => exact commitExecution_mirrors hm h id
  | rollover lease source target =>
    simp only [IndexedDatabase.step]
    cases h : d.commitRollover checks payloads clock lease source target with
    | error err => exact hm id
    | ok r => exact commitRollover_mirrors hm h id
  | retain request =>
    simp only [IndexedDatabase.step]
    cases h : d.retainExecution checks payloads bytes clock request with
    | error err => exact hm id
    | ok r => exact retainExecution_mirrors hm h id

theorem step_database (op : StoreOp) : (d.step checks payloads bytes clock op).1.database = d.database ∨
    (d.step checks payloads bytes clock op).1.database =
      (step (indexed checks payloads) bytes clock op d.database).1 := by
  cases op with
  | acquire | renew | release => exact .inr rfl
  | commit expected lease e =>
    simp only [IndexedDatabase.step]
    cases h : d.commitExecution checks payloads clock expected lease e with
    | error err => exact .inl rfl
    | ok r =>
      simp only [IndexedDatabase.commitExecution,bind_eq_ok,Except.ok.injEq] at h
      obtain ⟨⟨db,y⟩,hbase,ix,-,rfl⟩ := h
      exact .inr (by simp only [step,hbase,transact])
  | rollover lease source target =>
    simp only [IndexedDatabase.step]
    cases h : d.commitRollover checks payloads clock lease source target with
    | error err => exact .inl rfl
    | ok r =>
      simp only [IndexedDatabase.commitRollover,bind_eq_ok,Except.ok.injEq] at h
      obtain ⟨⟨db,receipt⟩,hbase,ix,-,ix',-,rfl⟩ := h
      exact .inr (by simp only [step,hbase,transact])
  | retain request =>
    simp only [IndexedDatabase.step]
    cases h : d.retainExecution checks payloads bytes clock request with
    | error err => exact .inl rfl
    | ok r =>
      simp only [IndexedDatabase.retainExecution,bind_eq_ok,Except.ok.injEq] at h
      obtain ⟨⟨db,receipt⟩,hbase,rfl⟩ := h
      exact .inr (by simp only [step,hbase,transact])

theorem rebuildDiscoveryHead_database {diagnostic : Option DiscoveryDiagnostic}
    (h : d.rebuildDiscoveryHead payloads id = .ok (d',diagnostic)) : d'.database = d.database := by
  unfold IndexedDatabase.rebuildDiscoveryHead at h
  split at h
  · cases h
  · split at h
    · cases h
      rfl
    · unfold IndexedDatabase.rebuildLoadedHead at h
      split at h
      · simp only [bind_eq_ok,Except.ok.injEq,Prod.mk.injEq] at h
        obtain ⟨ix,-,rfl,-⟩ := h
        rfl
      · split at h
        · cases h
          rfl
        · cases h

theorem IndexedRun.kept (h : IndexedRun checks payloads bytes d) : Kept d.database := by
  induction h with
  | init => exact fun id => Ledger.empty id
  | step clock op _ ih =>
    rcases step_database op with heq | heq
    · rw [heq]
      exact ih
    · rw [heq]
      exact step_kept ih op
  | rebuild _ hrebuild ih =>
    rw [rebuildDiscoveryHead_database hrebuild]
    exact ih

theorem Kept.written {db : Database} (hk : Kept db) {r : Nat} {x : SealedEnvelope}
    (hx : db.history.get? (id,r) = some x) : r ≠ 0 := by
  obtain ⟨hseal,-,hrev,-⟩ := (hk id).documents r x hx
  rw [← hrev]
  exact hseal.revised

theorem Kept.unwritten {db : Database} (hk : Kept db) (id : Text) : db.history.get? (id,0) = none := by
  cases hx : db.history.get? (id,0) with
  | none => rfl
  | some x => exact absurd rfl (hk.written hx)

theorem loadExecution_live {db : Database} (hk : Kept db) {r : Nat} {x : SealedEnvelope}
    (hhead : headOf db id = (r,false)) (hx : db.history.get? (id,r) = some x) :
    loadExecution db id =
      if RawEnvelope.stable x.envelope then .ok x.reread else fail .executionCorrupt := by
  have hr := hk.written hx
  cases hrow : db.executions.get? id with
  | none =>
    rw [headOf,hrow] at hhead
    exact absurd (congrArg Prod.fst hhead).symm hr
  | some row =>
    rw [headOf_row hrow,Prod.mk.injEq] at hhead
    have hl := hk id
    rw [anchorsOf_row hrow] at hl
    simp only [loadExecution,hrow,hhead.1,hx]
    rw [loadAnchoredEnvelope_eq hl hx (.inl rfl)]

theorem loadExecution_gone {db : Database} {r : Nat} {deleted : Bool} (hhead : headOf db id = (r,deleted))
    (hx : db.history.get? (id,r) = none) :
    ∃ err, loadExecution db id = .error err ∧ discoveryRecordError err = true := by
  cases hrow : db.executions.get? id with
  | none => exact ⟨_,by simp only [loadExecution,hrow]; rfl,by decide +kernel⟩
  | some row =>
    rw [headOf_row hrow,Prod.mk.injEq] at hhead
    simp only [loadExecution,hrow,hhead.1,hx,loadAnchoredEnvelope,decodeRawEnvelope]
    by_cases hzero : r = 0
    · subst hzero
      exact ⟨.of .threadNotFound,rfl,by decide +kernel⟩
    · cases row.payloadDeleted with
      | true => exact ⟨.of .executionCheckpointUnavailable,by simp [hzero,require,fail]; rfl,by decide +kernel⟩
      | false => exact ⟨.of .executionCorrupt,by simp [hzero,require,fail]; rfl,by decide +kernel⟩

theorem readHead_error {err : Err} (h : loadExecution d.database id = .error err) :
    d.readHead payloads id = .error err := by
  simp only [IndexedDatabase.readHead,h]
  rfl

theorem readHead_live (hk : Kept d.database) {r : Nat} {x : SealedEnvelope} {cs : List DueCandidate}
    (hhead : headOf d.database id = (r,false)) (hx : d.database.history.get? (id,r) = some x)
    (hcs : executionCandidates payloads x = .ok cs) :
    d.readHead payloads id =
      if RawEnvelope.stable x.envelope then .ok x.reread else fail .executionCorrupt := by
  simp only [IndexedDatabase.readHead,loadExecution_live hk hhead hx]
  cases hstable : RawEnvelope.stable x.envelope with
  | false => rfl
  | true =>
    have hread := executionCandidates_reread ((hk id).documents r x hx).1 hstable hcs
    simp only [if_true]
    exact bind_eq_ok.mpr ⟨x.reread,rfl,bind_eq_ok.mpr ⟨cs,by rw [hread]; rfl,rfl⟩⟩

inductive Rebuilt (payloads : PayloadCodec) (db : Database) (ix : Discovery) (id : Text) : Prop
  | loaded {x : SealedEnvelope} {cs : List DueCandidate} (load : loadExecution db id = .ok x)
      (candidates : executionCandidates payloads x = .ok cs) (rows : RowsOf ix id cs)
  | setAside {err : Err} (load : loadExecution db id = .error err) (rows : RowsOf ix id [])

theorem rebuildLoadedHead_setAside {err : Err} (h : d.readHead payloads id = .error err)
    (herr : discoveryRecordError err = true) (revision : Nat) :
    d.rebuildLoadedHead payloads id revision =
      .ok (⟨d.database,removeDiscoveryProjection d.discovery id err.message⟩,
        some ⟨id,revision,[],none,err.message⟩) := by
  simp only [IndexedDatabase.rebuildLoadedHead,h,herr,if_true]

theorem rebuildDiscoveryHead_spec (hk : Kept d.database) (hm : MirrorsAt payloads d id) {row : ExecutionRow}
    (hrow : d.database.executions.get? id = some row) :
    ∃ ix diagnostic, d.rebuildDiscoveryHead payloads id = .ok (⟨d.database,ix⟩,diagnostic) ∧
      (∀ id', id' ≠ id → ∀ cs, RowsOf d.discovery id' cs → RowsOf ix id' cs) ∧
      Rebuilt payloads d.database ix id := by
  have hread := headOf_row hrow
  have haside : ∀ err, loadExecution d.database id = .error err → ∀ diagnostic : Text,
      (∀ id', id' ≠ id → ∀ cs, RowsOf d.discovery id' cs →
        RowsOf (removeDiscoveryProjection d.discovery id diagnostic) id' cs) ∧
      Rebuilt payloads d.database (removeDiscoveryProjection d.discovery id diagnostic) id :=
    fun err hload diagnostic => ⟨fun id' hne cs hrows => removeDiscoveryProjection_of_ne _ hne hrows,
      .setAside hload (removeDiscoveryProjection_rows _ _ _)⟩
  simp only [IndexedDatabase.rebuildDiscoveryHead,hrow]
  cases hm with
  | unwritten head rows =>
    obtain ⟨err,hload,herr⟩ := loadExecution_gone head (hk.unwritten id)
    have hlive : row.payloadDeleted = false := congrArg Prod.snd (hread.symm.trans head)
    rw [hlive]
    exact ⟨_,_,rebuildLoadedHead_setAside (readHead_error hload) herr _,haside err hload _⟩
  | deleted head written named gone rows =>
    obtain ⟨err,hload,-⟩ := loadExecution_gone head gone
    have hdeleted : row.payloadDeleted = true := congrArg Prod.snd (hread.symm.trans head)
    rw [hdeleted]
    exact ⟨_,_,rfl,haside err hload _⟩
  | @live r x cs head written document candidates distinct rows =>
    have hlive : row.payloadDeleted = false := congrArg Prod.snd (hread.symm.trans head)
    have hhead := readHead_live hk head document candidates
    have hload := loadExecution_live hk head document
    rw [hlive]
    cases hstable : RawEnvelope.stable x.envelope with
    | false =>
      rw [hstable] at hhead hload
      exact ⟨_,_,rebuildLoadedHead_setAside hhead (by decide +kernel) _,haside _ hload _⟩
    | true =>
      rw [hstable] at hhead hload
      obtain ⟨hseal,hname,-,-⟩ := (hk id).documents r x document
      have hread := executionCandidates_reread hseal hstable candidates
      obtain ⟨ix,hix⟩ := replaceDiscoveryProjection_isOk d.discovery hread distinct
      obtain ⟨cs',hcs',-,hrows,hothers⟩ := replaceDiscoveryProjection_eq_ok hix
      have hid : x.reread.envelope.executionID = id := hseal.reread_executionID.trans hname
      rw [hid] at hrows hothers
      refine ⟨ix,none,?_,hothers,.loaded hload hcs' hrows⟩
      have hhead' : d.readHead payloads id = .ok x.reread := hhead
      simp only [Bool.false_eq_true,if_false,IndexedDatabase.rebuildLoadedHead,hhead']
      exact bind_eq_ok.mpr ⟨ix,hix,rfl⟩

theorem Rebuilt.mirrors {ix : Discovery} (h : Rebuilt payloads d.database ix id) (hk : Kept d.database)
    (hm : MirrorsAt payloads d id) : MirrorsAt payloads ⟨d.database,ix⟩ id := by
  have hempty : (∃ err, loadExecution d.database id = .error err) → RowsOf ix id [] := by
    rintro ⟨err,hload⟩
    cases h with
    | loaded load => rw [hload] at load; cases load
    | setAside load rows => exact rows
  cases hm with
  | unwritten head rows =>
    obtain ⟨err,hload,-⟩ := loadExecution_gone head (hk.unwritten id)
    exact .unwritten head (hempty ⟨err,hload⟩)
  | deleted head written named gone rows =>
    obtain ⟨err,hload,-⟩ := loadExecution_gone head gone
    exact .deleted head written named gone (hempty ⟨err,hload⟩)
  | @live r x cs head written document candidates distinct rows =>
    have hload := loadExecution_live hk head document
    refine .live head written document candidates distinct ?_
    cases hstable : RawEnvelope.stable x.envelope with
    | false =>
      rw [hstable] at hload
      exact .inr ⟨rfl,hempty ⟨_,hload⟩⟩
    | true =>
      rw [hstable,if_pos rfl] at hload
      cases h with
      | loaded load candidates' rows =>
        rw [hload] at load
        cases load
        rw [executionCandidates_reread ((hk id).documents r x document).1 hstable candidates] at candidates'
        cases candidates'
        exact .inl rows
      | setAside load => rw [hload] at load; cases load

theorem rebuildDiscoveryHead_mirrors (hk : Kept d.database) (hm : ∀ id, MirrorsAt payloads d id)
    {diagnostic : Option DiscoveryDiagnostic} (h : d.rebuildDiscoveryHead payloads id = .ok (d',diagnostic))
    (id' : Text) : MirrorsAt payloads d' id' := by
  cases hrow : d.database.executions.get? id with
  | none =>
    simp only [IndexedDatabase.rebuildDiscoveryHead,hrow] at h
    cases h
  | some row =>
    obtain ⟨ix,diagnostic',hok,hothers,hrebuilt⟩ := rebuildDiscoveryHead_spec hk (hm id) hrow
    rw [hok] at h
    cases h
    by_cases hid : id' = id
    · subst hid
      exact hrebuilt.mirrors hk (hm id')
    · exact (hm id').frame (.refl _ _) (hothers id' hid)

theorem IndexedRun.mirrors (h : IndexedRun checks payloads bytes d) (id : Text) : MirrorsAt payloads d id := by
  induction h generalizing id with
  | init => exact .unwritten rfl fun k c _ => by simp
  | step clock op _ ih => exact step_mirrors ih op id
  | rebuild hrun hrebuild ih => exact rebuildDiscoveryHead_mirrors hrun.kept ih hrebuild id

theorem IndexedRun.named (h : IndexedRun checks payloads bytes d) (hwritten : (headOf d.database id).1 ≠ 0) :
    id ≠ [] := by
  cases h.mirrors id with
  | unwritten head =>
    rw [head] at hwritten
    exact absurd rfl hwritten
  | deleted head written named => exact named
  | live head written document =>
    obtain ⟨hseal,hid,-,-⟩ := (h.kept id).documents _ _ document
    rw [← hid]
    exact hseal.named

theorem IndexedRun.loaded_rows (h : IndexedRun checks payloads bytes d) {x : SealedEnvelope}
    (hload : loadExecution d.database id = .ok x) :
    ∃ cs, executionCandidates payloads x = .ok cs ∧ RowsOf d.discovery id cs := by
  have hk := h.kept
  cases h.mirrors id with
  | unwritten head rows =>
    obtain ⟨err,herr,-⟩ := loadExecution_gone head (hk.unwritten id)
    rw [hload] at herr
    cases herr
  | deleted head written named gone rows =>
    obtain ⟨err,herr,-⟩ := loadExecution_gone head gone
    rw [hload] at herr
    cases herr
  | @live r y cs head written document candidates distinct rows =>
    rw [loadExecution_live hk head document] at hload
    split at hload
    · rename_i hstable
      cases hload
      rcases rows with rows | ⟨hbad,-⟩
      · exact ⟨cs,executionCandidates_reread ((hk id).documents r y document).1 hstable candidates,rows⟩
      · rw [hstable] at hbad
        cases hbad
    · cases hload

theorem IndexedRun.deleted_rows (h : IndexedRun checks payloads bytes d) {row : ExecutionRow}
    (hrow : d.database.executions.get? id = some row) (hdeleted : row.payloadDeleted = true) :
    RowsOf d.discovery id [] := by
  have hhead : (headOf d.database id).2 = true := by
    rw [headOf_row hrow]
    exact hdeleted
  cases h.mirrors id with
  | unwritten head rows => exact rows
  | deleted head written named gone rows => exact rows
  | live head =>
    rw [head] at hhead
    cases hhead

end Invariant
end Flowy.Postgres
