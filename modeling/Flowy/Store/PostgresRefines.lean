import Flowy.Anchors
import Flowy.Store.Postgres

/-! Every transaction of the PostgreSQL store is a step of the leased history. -/
namespace Flowy.Postgres

open Leased

section Views

variable (db : Database) (id : Text) (row : ExecutionRow)

theorem get?_setRow (id' : Text) : (db.setRow id row).executions.get? id' =
    if id' = id then some row else db.executions.get? id' :=
  GoMap.get?_set db.executions id id' row

theorem view_setRow : view (db.setRow id row) = { view db with
    fence := Function.update (view db).fence id row.fence
    lease := Function.update (view db).lease id row.lease
    head := Function.update (view db).head id row.revision } := by
  have hupd : ∀ {β : Type} (f : Option ExecutionRow → β) (id' : Text),
      f ((db.setRow id row).executions.get? id') =
        Function.update (fun i => f (db.executions.get? i)) id (f (some row)) id' := by
    intro β f id'
    rw [get?_setRow]
    by_cases h : id' = id
    · subst h
      simp
    · rw [if_neg h,Function.update_of_ne h]
  refine State.ext ?_ ?_ ?_ rfl
  · funext id'
    exact hupd (fun r => r.elim 0 fun row => row.fence) id'
  · funext id'
    exact hupd (fun r => r.bind fun row => row.lease) id'
  · funext id'
    exact hupd (fun r => r.elim 0 fun row => row.revision) id'

theorem view_insertHistory (revision : Nat) (x : SealedEnvelope) :
    view (db.insertHistory id revision x) =
      { view db with history := setHistory (view db).history id revision x } := by
  refine State.ext rfl rfl rfl ?_
  funext id' r
  change (db.history.set (id,revision) x).get? (id',r) = _
  rw [GoMap.get?_set]
  by_cases h : id' = id ∧ r = revision
  · obtain ⟨rfl,rfl⟩ := h
    simp [setHistory]
  · have hne : (id',r) ≠ (id,revision) := fun heq => h (Prod.mk.injEq _ _ _ _ ▸ heq)
    rw [if_neg hne]
    change _ = setHistory (view db).history id revision x id' r
    rw [setHistory_of_ne x fun hid hr => h ⟨hid,hr⟩]
    rfl

theorem view_filterHistory (kept : Nat → Bool) :
    view { db with history := db.history.filter fun key _ => key.1 != id || kept key.2 } =
      { view db with
        history := Function.update (view db).history id
          (fun r => if kept r then (view db).history id r else none) } := by
  refine State.ext rfl rfl rfl ?_
  funext id' r
  change (db.history.filter _).get? (id',r) = Function.update (view db).history id _ id' r
  rw [GoMap.get?_filter_key db.history fun key => key.1 != id || kept key.2]
  by_cases hid : id' = id
  · subst hid
    rw [Function.update_self]
    simp [view]
  · rw [Function.update_of_ne hid,if_pos (by simp [hid])]
    rfl

variable {db} {row}

theorem view_row {id : Text} (h : db.executions.get? id = some row) :
    (view db).fence id = row.fence ∧ (view db).lease id = row.lease ∧ (view db).head id = row.revision := by
  simp [view,h]

end Views

section Leases

variable {row : ExecutionRow} {lease : ExecutionLease} {now : Time}

theorem heldBy_lease (h : row.heldBy lease now = true) :
    ∃ l, row.lease = some l ∧ l.owner = lease.owner ∧ l.incarnation = lease.incarnation ∧
      row.leaseExpiry = some l.expiry ∧ now < l.expiry := by
  simp only [ExecutionRow.heldBy,Bool.and_eq_true,beq_iff_eq,Option.any_eq_true] at h
  obtain ⟨⟨howner,hfence⟩,expiry,hexp,hlive⟩ := h
  exact ⟨⟨lease.owner,row.fence,expiry⟩,by simp [ExecutionRow.lease,howner,hexp],rfl,hfence,hexp,
    (Time.after_iff expiry now).mp hlive⟩

end Leases

section Refinement

variable {checks : PayloadChecks} {bytes : SealedEnvelope → Nat} {clock : Nat → Time}
  {db db' : Database}

theorem acquireExecution_step {id owner : Text} {ttl : Duration} {l : ExecutionLease}
    (h : acquireExecution clock db id owner ttl = .ok (db',l)) :
    Leased.Step (clock 0) (view db) (.acquired id owner l.incarnation) (view db') := by
  simp only [acquireExecution,bind_eq_ok,require_eq_ok,exists_const] at h
  obtain ⟨-,h⟩ := h
  split at h
  · cases h
  · rename_i hfree
    split at h
    · cases h
    · cases h
      have hrow : ∀ row, db.executions.get? id = some row →
          (db.executions.get? id).getD .default = row := fun row hr => by rw [hr]; rfl
      have hfence : (view db).fence id = ((db.executions.get? id).getD .default).fence := by
        cases hr : db.executions.get? id <;> simp [view,hr,ExecutionRow.default]
      have hhead : (view db).head id = ((db.executions.get? id).getD .default).revision := by
        cases hr : db.executions.get? id <;> simp [view,hr,ExecutionRow.default]
      rw [view_setRow]
      have hstep : Leased.Step (clock 0) (view db) (.acquired id owner ((view db).fence id + 1)) _ :=
        .acquire id owner ((clock 1).add (leaseTTL ttl)) ?_
      · rw [hfence] at hstep
        rw [← hhead,Function.update_eq_self]
        exact hstep
      · -- an unexpired lease refuses the update
        intro l hl hlive
        cases hr : db.executions.get? id with
        | none => simp [view,hr] at hl
        | some row =>
          rw [(view_row hr).2.1] at hl
          rw [hrow row hr] at hfree
          unfold ExecutionRow.lease at hl
          split at hl
          · rename_i o e ho he
            cases hl
            exact hfree (by simp [he,(Time.after_iff _ _).mpr hlive])
          · cases hl

theorem renewExecution_step {lease l : ExecutionLease} {ttl : Duration}
    (h : renewExecution clock db lease ttl = .ok (db',l)) :
    Leased.Step (clock 0) (view db) (.renewed lease.executionID lease.owner lease.incarnation) (view db') := by
  simp only [renewExecution,bind_eq_ok,require_eq_ok,exists_const] at h
  obtain ⟨-,h⟩ := h
  cases hr : db.executions.get? lease.executionID with
  | none => simp [hr,fail] at h
  | some row =>
    simp only [hr] at h
    split at h
    · rename_i hheld
      cases h
      obtain ⟨l,hl,howner,hinc,hexp,hlive⟩ := heldBy_lease hheld
      obtain ⟨hfence,hlease,hhead⟩ := view_row hr
      have hstep := Leased.Step.renew (P := SealedEnvelope) lease.executionID l
        ((clock 1).add (leaseTTL ttl)) (hlease.trans hl) hlive
      have hlease' : ({ row with leaseExpiry := some ((clock 1).add (leaseTTL ttl)) } : ExecutionRow).lease =
          some { l with expiry := (clock 1).add (leaseTTL ttl) } := by
        unfold ExecutionRow.lease at hl ⊢
        split at hl
        · rename_i o e ho he
          cases hl
          simp [ho]
        · cases hl
      rw [view_setRow,hlease',← howner,← hinc]
      simp only [← hfence,← hhead,Function.update_eq_self]
      exact hstep
    · cases h

theorem releaseExecution_step {lease : ExecutionLease} {u : Unit}
    (h : releaseExecution db lease = .ok (db',u)) :
    Leased.Step (clock 0) (view db) (.released lease.executionID lease.owner lease.incarnation) (view db') := by
  simp only [releaseExecution,bind_eq_ok,require_eq_ok,exists_const] at h
  obtain ⟨-,h⟩ := h
  cases hr : db.executions.get? lease.executionID with
  | none => simp [hr,fail] at h
  | some row =>
    simp only [hr] at h
    split at h
    · rename_i hown
      cases h
      obtain ⟨hfence,hlease,hhead⟩ := view_row hr
      simp only [Bool.and_eq_true,beq_iff_eq,Bool.or_eq_true,Option.isNone_iff_eq_none] at hown
      rw [view_setRow]
      simp only [← hfence,← hhead,Function.update_eq_self]
      refine Leased.Step.release lease.executionID lease.owner lease.incarnation ?_
      intro l hl
      rw [hlease] at hl
      unfold ExecutionRow.lease at hl
      split at hl
      · rename_i o e ho he
        cases hl
        rcases hown.2 with hsome | hnone
        · exact ⟨Option.some.inj (ho.symm.trans hsome),hown.1⟩
        · rw [ho] at hnone
          cases hnone
      · cases hl
    · cases h

theorem lease_congr {row row' : ExecutionRow} (ho : row'.leaseOwner = row.leaseOwner)
    (he : row'.leaseExpiry = row.leaseExpiry) (hf : row'.fence = row.fence) : row'.lease = row.lease := by
  unfold ExecutionRow.lease
  rw [ho,he,hf]

variable [Sealing]

structure Committed (clock : Nat → Time) (db db' : Database) (expected : Nat) (lease : ExecutionLease)
    (e : RawEnvelope) (x : SealedEnvelope) : Prop where
  row : ∃ row, db.executions.get? lease.executionID = some row ∧
    row.heldBy lease (clock 0) = true ∧ row.heldBy lease (clock 1) = true ∧ row.revision = expected ∧
    validateForkPredecessor db row e = .ok () ∧
    db' = (db.insertHistory lease.executionID (expected + 1) x).setRow lease.executionID (row.committed x)
  bounded : expected < maxInt64
  named : e.executionID = lease.executionID
  sealing : sealExecutionEnvelope { e with revision := expected + 1 } = .ok x

theorem commitExecution_eq_ok {expected : Nat} {lease : ExecutionLease} {e : RawEnvelope}
    {y : SealedEnvelope} (h : commitExecution checks clock db expected lease e = .ok (db',y)) :
    ∃ x, Committed clock db db' expected lease e x ∧ y = x.reread := by
  simp only [commitExecution,bind_eq_ok,require_eq_ok,exists_const] at h
  obtain ⟨hbound,hlease,-,-,-,h⟩ := h
  cases hr : db.executions.get? lease.executionID with
  | none => simp [hr,fail] at h
  | some row =>
    simp only [hr,bind_eq_ok,require_eq_ok,exists_const] at h
    obtain ⟨hheld,hrev,u,hpred,x,hseal,-,-,h⟩ := h
    split at h
    · cases h
    · split at h
      · cases h
      · simp only [bind_eq_ok,require_eq_ok,exists_const] at h
        obtain ⟨hheld',-,-,h⟩ := h
        cases h
        simp only [Bool.and_eq_true,beq_iff_eq] at hlease hrev
        have hx : x.envelope.revision = expected + 1 := by
          rw [(sealExecutionEnvelope_eq_ok hseal).envelope]
        refine ⟨x,⟨⟨row,hr,hheld,hheld',hrev,hpred,?_⟩,of_decide_eq_true hbound,hlease.2,hseal⟩,rfl⟩
        rw [hx,hlease.2]

theorem Committed.step {expected : Nat} {lease : ExecutionLease} {e : RawEnvelope} {x : SealedEnvelope}
    (h : Committed clock db db' expected lease e x) :
    Leased.Step (clock 0) (view db) (.committed lease.executionID lease.owner lease.incarnation) (view db') := by
  obtain ⟨row,hr,hheld,-,hrev,-,rfl⟩ := h.row
  have hrev' : (row.committed x).revision = expected + 1 := by
    rw [ExecutionRow.committed,(sealExecutionEnvelope_eq_ok h.sealing).envelope]
  obtain ⟨l,hl,howner,hinc,hexp,hlive⟩ := heldBy_lease hheld
  obtain ⟨hfence,hlease,hhead⟩ := view_row hr
  have hstep := Leased.Step.commit lease.executionID l x (hlease.trans hl) hlive
  rw [howner,hinc,hhead,hrev] at hstep
  have hlease' : (row.committed x).lease = row.lease := lease_congr rfl rfl rfl
  have hfence' : (row.committed x).fence = row.fence := rfl
  rw [view_setRow,view_insertHistory,hlease',hfence',hrev']
  simp only [← hfence,← hlease,Function.update_eq_self]
  exact hstep

/-- The anchors of a row, as its JSONB columns read back. -/
def ExecutionRow.anchors (row : ExecutionRow) : Anchors :=
  ⟨row.revision,row.forkLineage,row.rolloverIncoming,row.rolloverOutgoing⟩

def rereadAnchors (a : Anchors) : Anchors :=
  ⟨a.revision,a.fork.map ForkLineage.codec.reread,a.incoming.map RolloverReceipt.codec.reread,
    a.outgoing.map RolloverReceipt.codec.reread⟩

structure Loaded (row : ExecutionRow) (revision : Nat) (id : Text) (document x : SealedEnvelope) : Prop where
  reread : x = document.reread
  named : x.envelope.executionID = id
  revision : x.envelope.revision = revision
  anchored : Anchored (rereadAnchors row.anchors) x

theorem loadAnchoredEnvelope_eq_ok {row : ExecutionRow} {revision expected : Nat}
    {payload : Option SealedEnvelope} {id : Text} {x : SealedEnvelope}
    (h : loadAnchoredEnvelope row revision payload id expected = .ok x) :
    ∃ document, payload = some document ∧ Loaded row revision id document x := by
  simp only [loadAnchoredEnvelope,bind_eq_ok,require_eq_ok,exists_const,Except.ok.injEq] at h
  obtain ⟨-,y,hy,u,hfork,u',hlife,rfl⟩ := h
  unfold decodeRawEnvelope at hy
  split at hy
  · split at hy <;> cases hy
  · simp only [bind_eq_ok,require_eq_ok,exists_const,Except.ok.injEq] at hy
    obtain ⟨-,u,hint,rfl⟩ := hy
    obtain ⟨hid,hrev⟩ := validateExecutionIntegrity_address hint
    exact ⟨_,rfl,rfl,hid,hrev,(anchored_iff (rereadAnchors row.anchors) _).mp ⟨hfork,hlife⟩⟩

structure RolledOver (clock : Nat → Time) (db db' : Database) (lease : ExecutionLease)
    (target : SealedEnvelope) (receipt : RolloverReceipt) (row : ExecutionRow)
    (document current transferred created : SealedEnvelope) : Prop where
  found : db.executions.get? lease.executionID = some row
  held : row.heldBy lease (clock 0) = true ∧ row.heldBy lease (clock 1) = true
  head : db.history.get? (lease.executionID,row.revision) = some document
  loaded : Loaded row row.revision lease.executionID document current
  published : Publication current target transferred created receipt
  fresh : db.executions.get? target.envelope.executionID = none
  result : db' = (((db.setRow target.envelope.executionID
      { ExecutionRow.default with revision := 1, rolloverIncoming := some receipt }).insertHistory
        lease.executionID (row.revision + 1) transferred).insertHistory
          target.envelope.executionID 1 created).setRow lease.executionID
            { row with revision := row.revision + 1, rolloverOutgoing := some receipt }

theorem RolledOver.apart {lease : ExecutionLease} {target : SealedEnvelope} {receipt : RolloverReceipt}
    {row : ExecutionRow} {document current transferred created : SealedEnvelope}
    (h : RolledOver clock db db' lease target receipt row document current transferred created) :
    target.envelope.executionID ≠ lease.executionID := by
  rw [← h.loaded.named]
  exact h.published.facts.apart

theorem commitRollover_eq_ok {lease : ExecutionLease} {source : HistoricalCheckpointReference}
    {target : SealedEnvelope} {receipt : RolloverReceipt}
    (h : commitRollover checks clock db lease source target = .ok (db',receipt)) :
    ∃ row document current transferred created,
      RolledOver clock db db' lease target receipt row document current transferred created := by
  simp only [commitRollover,bind_eq_ok] at h
  obtain ⟨⟨row,current⟩,hlock,h⟩ := h
  simp only [lockRolloverSource,bind_eq_ok,require_eq_ok,exists_const,Bool.and_eq_true,beq_iff_eq] at hlock
  obtain ⟨hnames,hlock⟩ := hlock
  have hid : source.executionID = lease.executionID := hnames.1.1.symm
  rw [hid] at hlock h
  cases hr : db.executions.get? lease.executionID with
  | none => simp [hr,fail] at hlock
  | some row' =>
    simp only [hr,bind_eq_ok,require_eq_ok,exists_const,Except.ok.injEq,Prod.mk.injEq] at hlock
    obtain ⟨hheld,-,x,hload,-,rfl,rfl⟩ := hlock
    obtain ⟨document,hdoc,hloaded⟩ := loadAnchoredEnvelope_eq_ok hload
    simp only [require_eq_ok,exists_const] at h
    obtain ⟨⟨transferred,created,receipt'⟩,hpub,hfresh,-,-,-,-,h⟩ := h
    obtain ⟨-,hpair⟩ := prepareExecutionRolloverPublication_eq_ok hpub
    split at h
    · cases h
    · split at h
      · cases h
      · simp only [bind_eq_ok,require_eq_ok,exists_const] at h
        obtain ⟨hheld',-,-,-,-,h⟩ := h
        cases h
        rw [hpair.created_envelope] at hfresh
        refine ⟨row',document,x,transferred,created,hr,⟨hheld,hheld'⟩,hdoc,hloaded,hpair,
          Option.isNone_iff_eq_none.mp hfresh,?_⟩
        rw [hpair.created_envelope,hpair.transferred_envelope,hloaded.revision]

theorem commitRollover_step {lease : ExecutionLease} {source : HistoricalCheckpointReference}
    {target : SealedEnvelope} {receipt : RolloverReceipt}
    (h : commitRollover checks clock db lease source target = .ok (db',receipt)) :
    Leased.Step (clock 0) (view db) (.transferred lease.executionID lease.owner lease.incarnation
      target.envelope.executionID) (view db') := by
  obtain ⟨row,document,current,transferred,created,hroll⟩ := commitRollover_eq_ok h
  have hr := hroll.found
  have hne := hroll.apart
  have hheld := hroll.held.1
  have hfresh := hroll.fresh
  rw [hroll.result]
  obtain ⟨l,hl,howner,hinc,hexp,hlive⟩ := heldBy_lease hheld
  obtain ⟨hfence,hlease,hhead⟩ := view_row hr
  have hunused : (view db).fence target.envelope.executionID = 0 ∧
      (view db).lease target.envelope.executionID = none ∧
      (view db).head target.envelope.executionID = 0 := by simp [view,hfresh]
  have hstep := Leased.Step.transfer lease.executionID target.envelope.executionID l
    transferred created (hlease.trans hl) hlive hne hunused.2.2
  rw [howner,hinc,hhead] at hstep
  have hrow : ({ row with revision := row.revision + 1, rolloverOutgoing := some receipt } :
      ExecutionRow).lease = row.lease := lease_congr rfl rfl rfl
  have hnew : ({ ExecutionRow.default with revision := 1, rolloverIncoming := some receipt } :
      ExecutionRow).lease = none := rfl
  have hnewf : ({ ExecutionRow.default with revision := 1, rolloverIncoming := some receipt } :
      ExecutionRow).fence = 0 := rfl
  rw [view_setRow,view_insertHistory,view_insertHistory,view_setRow,hrow,hnew,hnewf]
  have hf : Function.update (view db).fence target.envelope.executionID 0 = (view db).fence := by
    rw [← hunused.1,Function.update_eq_self]
  simp only [hf,← hunused.2.1,Function.update_eq_self,← hfence,← hlease]
  rw [Function.update_comm hne]
  exact hstep

theorem retainExecution_step {request : ExecutionRetentionRequest} {receipt : ExecutionRetentionReceipt}
    (h : retainExecution checks clock db bytes request = .ok (db',receipt)) :
    Leased.Step (clock 0) (view db) (.retained request.executionID) (view db') := by
  simp only [retainExecution,bind_eq_ok,require_eq_ok,exists_const] at h
  obtain ⟨-,-,-,h⟩ := h
  cases hr : db.executions.get? request.executionID with
  | none => simp [hr,fail] at h
  | some row =>
    simp only [hr,bind_eq_ok,require_eq_ok,exists_const] at h
    obtain ⟨-,-,h⟩ := h
    obtain ⟨hfence,hlease,hhead⟩ := view_row hr
    split at h
    · split at h
      · cases h
        have hstep : Leased.Step (clock 0) (view db) (.retained request.executionID) _ :=
          .retain _ fun _ => true
        simpa using hstep
      · cases h
    · simp only [bind_eq_ok] at h
      obtain ⟨-,-,⟨first,_⟩,-,h⟩ := h
      cases h
      have hstep : Leased.Step (clock 0) (view db) (.retained request.executionID) _ :=
        .retain _ (historyKept request first)
      have hl' : ({ row with payloadDeleted := request.policy.deletePayload } : ExecutionRow).lease =
          row.lease := lease_congr rfl rfl rfl
      rw [view_setRow,hl']
      rw [view_filterHistory]
      simp only [← hfence,← hlease,← hhead,Function.update_eq_self]
      exact hstep

theorem step_refines (op : StoreOp) :
    Leased.Step (clock 0) (view db) (op.event (step checks bytes clock op db).2)
      (view (step checks bytes clock op db).1) := by
  cases op with
  | acquire id owner ttl =>
    simp only [step]
    cases h : acquireExecution clock db id owner ttl with
    | error err => exact .refuse
    | ok r => exact acquireExecution_step h
  | renew lease ttl =>
    simp only [step]
    cases h : renewExecution clock db lease ttl with
    | error err => exact .refuse
    | ok r => exact renewExecution_step h
  | release lease =>
    simp only [step]
    cases h : releaseExecution db lease with
    | error err => exact .refuse
    | ok r => exact releaseExecution_step h
  | commit expected lease e =>
    simp only [step]
    cases h : commitExecution checks clock db expected lease e with
    | error err => exact .refuse
    | ok r =>
      obtain ⟨x,hx,-⟩ := commitExecution_eq_ok h
      exact hx.step
  | rollover lease source target =>
    simp only [step]
    cases h : commitRollover checks clock db lease source target with
    | error err => exact .refuse
    | ok r => exact commitRollover_step h
  | retain request =>
    simp only [step]
    cases h : retainExecution checks clock db bytes request with
    | error err => exact .refuse
    | ok r => exact retainExecution_step h

end Refinement
end Flowy.Postgres
