import Flowy.Store.SingleWriter

/-! Loads from the PostgreSQL store. The anchors of a row and its documents form a ledger in every
reachable database, so a load can only fail at the integrity check. -/
namespace Flowy.Postgres

open Leased

def anchorsOf (db : Database) (id : Text) : Anchors :=
  ((db.executions.get? id).getD .default).anchors

theorem anchorsOf_row {db : Database} {id : Text} {row : ExecutionRow}
    (h : db.executions.get? id = some row) : anchorsOf db id = row.anchors := by
  simp [anchorsOf,h]

theorem anchorsOf_setRow (db : Database) (id : Text) (row : ExecutionRow) :
    anchorsOf (db.setRow id row) = Function.update (anchorsOf db) id row.anchors := by
  funext id'
  unfold anchorsOf
  rw [get?_setRow]
  by_cases h : id' = id
  · subst h
    simp
  · rw [if_neg h,Function.update_of_ne h]

section Invariant

variable [Sealing] {checks : PayloadChecks} {bytes : SealedEnvelope → Nat} {clock : Nat → Time}
  {db db' : Database}

def Kept (db : Database) : Prop := ∀ id, Ledger id (anchorsOf db id) ((view db).history id)

theorem rereadAnchors_eq {id : Text} {a : Anchors} {docs : Nat → Option SealedEnvelope}
    (h : Ledger id a docs) : rereadAnchors a = a := by
  have hfork := map_fixed fun f hf => ForkLineage.reread_of_valid (h.forked f hf)
  have hin := map_fixed fun r hr => RolloverReceipt.reread_of_valid (h.incoming r hr)
  have hout := map_fixed fun r hr => RolloverReceipt.reread_of_valid (h.outgoing r hr).1
  simp only [rereadAnchors,hfork,hin,hout]

theorem Kept.setRow (h : Kept db) {id : Text} {row : ExecutionRow} (hrow : row.anchors = anchorsOf db id) :
    Kept (db.setRow id row) := by
  intro id'
  have hl := h id'
  rwa [anchorsOf_setRow,hrow,Function.update_eq_self]

theorem Kept.write (h : Kept db) {id : Text} {r : Nat} {x : SealedEnvelope} {row : ExecutionRow}
    (hl : Ledger id row.anchors (Function.update ((view db).history id) r (some x))) :
    Kept ((db.insertHistory id r x).setRow id row) := by
  intro id'
  rw [anchorsOf_setRow,view_setRow,view_insertHistory]
  change Ledger id' (Function.update (anchorsOf db) id row.anchors id')
    (setHistory (view db).history id r x id')
  unfold setHistory
  by_cases hid : id' = id
  · subst hid
    simpa using hl
  · rw [Function.update_of_ne hid,Function.update_of_ne hid]
    exact h id'

theorem acquireExecution_kept {id owner : Text} {ttl : Duration} {l : ExecutionLease} (hk : Kept db)
    (h : acquireExecution clock db id owner ttl = .ok (db',l)) : Kept db' := by
  simp only [acquireExecution,bind_eq_ok,require_eq_ok,exists_const] at h
  obtain ⟨-,h⟩ := h
  split at h
  · cases h
  · split at h
    · cases h
    · cases h
      exact hk.setRow rfl

theorem renewExecution_kept {lease l : ExecutionLease} {ttl : Duration} (hk : Kept db)
    (h : renewExecution clock db lease ttl = .ok (db',l)) : Kept db' := by
  simp only [renewExecution,bind_eq_ok,require_eq_ok,exists_const] at h
  obtain ⟨-,h⟩ := h
  cases hr : db.executions.get? lease.executionID with
  | none => simp [hr,fail] at h
  | some row =>
    simp only [hr] at h
    split at h
    · cases h
      exact hk.setRow (anchorsOf_row hr).symm
    · cases h

theorem releaseExecution_kept {lease : ExecutionLease} {u : Unit} (hk : Kept db)
    (h : releaseExecution db lease = .ok (db',u)) : Kept db' := by
  simp only [releaseExecution,bind_eq_ok,require_eq_ok,exists_const] at h
  obtain ⟨-,h⟩ := h
  cases hr : db.executions.get? lease.executionID with
  | none => simp [hr,fail] at h
  | some row =>
    simp only [hr] at h
    split at h
    · cases h
      exact hk.setRow (anchorsOf_row hr).symm
    · cases h

theorem validateForkPredecessor_follows {row : ExecutionRow} {e : RawEnvelope} (hk : Kept db)
    (hr : db.executions.get? e.executionID = some row)
    (h : validateForkPredecessor db row e = .ok ()) : Follows row.anchors e := by
  have hl := hk e.executionID
  rw [anchorsOf_row hr] at hl
  unfold validateForkPredecessor at h
  split at h
  · rename_i hz
    simp only [bind_eq_ok] at h
    obtain ⟨u,hroll,hfork⟩ := h
    exact .first hz hroll hfork
  · rename_i hz
    split at h
    · cases h
    · simp only [bind_eq_ok] at h
      obtain ⟨p,hload,u,hroll,hfork⟩ := h
      obtain ⟨document,-,hloaded⟩ := loadAnchoredEnvelope_eq_ok hload
      have hanch := hloaded.anchored
      rw [rereadAnchors_eq hl] at hanch
      exact .next p (Nat.pos_of_ne_zero hz) hloaded.revision hanch hroll hfork

theorem Committed.kept {expected : Nat} {lease : ExecutionLease} {e : RawEnvelope} {x : SealedEnvelope}
    (hk : Kept db) (h : Committed clock db db' expected lease e x) : Kept db' := by
  obtain ⟨row,hr,-,-,rfl,hpred,rfl⟩ := h.row
  have hl := hk lease.executionID
  rw [anchorsOf_row hr] at hl
  have hf := validateForkPredecessor_follows hk (h.named ▸ hr) hpred
  refine hk.write ?_
  have hcommit := hl.commit h.named hf h.sealing
  have hrev : x.envelope.revision = row.revision + 1 := by
    rw [(sealExecutionEnvelope_eq_ok h.sealing).envelope]
  have hanch : (row.committed x).anchors = row.anchors.committed x := by
    simp only [ExecutionRow.anchors,ExecutionRow.committed,hrev]
    rfl
  rw [hanch]
  exact hcommit

theorem RolledOver.kept {lease : ExecutionLease} {target : SealedEnvelope} {receipt : RolloverReceipt}
    {row : ExecutionRow} {document current transferred created : SealedEnvelope} (hk : Kept db)
    (h : RolledOver clock db db' lease target receipt row document current transferred created) :
    Kept db' := by
  have hl := hk lease.executionID
  rw [anchorsOf_row h.found] at hl
  have hanch := h.loaded.anchored
  rw [rereadAnchors_eq hl] at hanch
  have hpos : row.revision ≠ 0 := by
    have hseal := (hl.documents row.revision document h.head).1
    have hrev := (hl.documents row.revision document h.head).2.2.1
    rw [← hrev]
    exact hseal.revised
  have hhead : ∀ x, (view db).history lease.executionID row.revision = some x → x.reread = current := by
    intro x hx
    have heq : some document = some x := h.head.symm.trans hx
    cases heq
    exact h.loaded.reread.symm
  have hsource := hl.transfer h.published hanch h.loaded.named h.loaded.revision hpos hhead
  have hnone : (view db).history target.envelope.executionID = fun _ => none := by
    have ht := hk target.envelope.executionID
    funext r
    cases hd : (view db).history target.envelope.executionID r with
    | none => rfl
    | some x =>
      obtain ⟨hseal,-,hrev,-⟩ := ht.documents r x hd
      have hle := ht.bounded r x hd
      have hzero : (anchorsOf db target.envelope.executionID).revision = 0 := by
        simp [anchorsOf,h.fresh,ExecutionRow.default,ExecutionRow.anchors]
      exact absurd (by omega) hseal.revised
  intro id
  rw [h.result,anchorsOf_setRow,view_setRow,view_insertHistory,view_insertHistory,view_setRow]
  change Ledger id (Function.update (anchorsOf (db.setRow target.envelope.executionID _))
    lease.executionID _ id) (setHistory (setHistory (view db).history lease.executionID
      (row.revision + 1) transferred) target.envelope.executionID 1 created id)
  rw [anchorsOf_setRow]
  unfold setHistory
  by_cases hid : id = lease.executionID
  · subst hid
    rw [Function.update_self,Function.update_of_ne (Ne.symm h.apart),Function.update_self]
    exact hsource
  · by_cases ht : id = target.envelope.executionID
    · subst ht
      rw [Function.update_of_ne hid,Function.update_self,Function.update_self,
        Function.update_of_ne hid,hnone]
      exact h.published.ledger
    · rw [Function.update_of_ne hid,Function.update_of_ne ht,Function.update_of_ne ht,
        Function.update_of_ne hid]
      exact hk id

theorem retainExecution_kept {request : ExecutionRetentionRequest} {receipt : ExecutionRetentionReceipt}
    (hk : Kept db) (h : retainExecution checks clock db bytes request = .ok (db',receipt)) : Kept db' := by
  simp only [retainExecution,bind_eq_ok,require_eq_ok,exists_const] at h
  obtain ⟨-,-,-,h⟩ := h
  cases hr : db.executions.get? request.executionID with
  | none => simp [hr,fail] at h
  | some row =>
    simp only [hr,bind_eq_ok,require_eq_ok,exists_const] at h
    obtain ⟨-,-,h⟩ := h
    split at h
    · split at h
      · cases h
        exact hk
      · cases h
    · simp only [bind_eq_ok] at h
      obtain ⟨-,-,⟨first,_⟩,-,h⟩ := h
      cases h
      refine Kept.setRow ?_ (anchorsOf_row hr).symm
      intro id
      rw [view_filterHistory]
      change Ledger id (anchorsOf db id) (Function.update (view db).history request.executionID _ id)
      by_cases hid : id = request.executionID
      · subst hid
        rw [Function.update_self]
        exact (hk _).retain (historyKept request first)
      · rw [Function.update_of_ne hid]
        exact hk id

theorem step_kept (hk : Kept db) (op : StoreOp) : Kept (step checks bytes clock op db).1 := by
  cases op with
  | acquire id owner ttl =>
    simp only [step]
    cases h : acquireExecution clock db id owner ttl with
    | error err => exact hk
    | ok r => exact acquireExecution_kept hk h
  | renew lease ttl =>
    simp only [step]
    cases h : renewExecution clock db lease ttl with
    | error err => exact hk
    | ok r => exact renewExecution_kept hk h
  | release lease =>
    simp only [step]
    cases h : releaseExecution db lease with
    | error err => exact hk
    | ok r => exact releaseExecution_kept hk h
  | commit expected lease e =>
    simp only [step]
    cases h : commitExecution checks clock db expected lease e with
    | error err => exact hk
    | ok r =>
      obtain ⟨x,hx,-⟩ := commitExecution_eq_ok h
      exact hx.kept hk
  | rollover lease source target =>
    simp only [step]
    cases h : commitRollover checks clock db lease source target with
    | error err => exact hk
    | ok r =>
      obtain ⟨row,document,current,transferred,created,hroll⟩ := commitRollover_eq_ok h
      exact hroll.kept hk
  | retain request =>
    simp only [step]
    cases h : retainExecution checks clock db bytes request with
    | error err => exact hk
    | ok r => exact retainExecution_kept hk h

/-- With its ledger in order, a load succeeds exactly for a stable document. -/
theorem loadAnchoredEnvelope_eq {row : ExecutionRow} {id : Text} {r expected : Nat}
    {docs : Nat → Option SealedEnvelope} {x : SealedEnvelope} (hl : Ledger id row.anchors docs)
    (hx : docs r = some x) (hexp : expected = 0 ∨ expected = r) :
    loadAnchoredEnvelope row r (some x) id expected =
      if RawEnvelope.stable x.envelope then .ok x.reread else fail .executionCorrupt := by
  obtain ⟨hseal,rfl,rfl,hanch⟩ := hl.documents r x hx
  have hrow := rereadAnchors_eq hl
  have hchecks := (anchored_iff (rereadAnchors row.anchors) x.reread).mpr (hrow.symm ▸ hanch)
  have hguard : (!(expected != 0 && x.envelope.revision != expected)) = true := by
    rcases hexp with rfl | rfl <;> simp
  have hint := hseal.integrity_reread
  simp only [loadAnchoredEnvelope,decodeRawEnvelope,Option.isNone_some,Bool.and_false,Bool.false_and,
    Bool.not_false,hguard,hint,require,if_true]
  cases RawEnvelope.stable x.envelope with
  | false => rfl
  | true =>
    exact bind_eq_ok.mpr ⟨(),rfl,bind_eq_ok.mpr ⟨x.reread,rfl,
      bind_eq_ok.mpr ⟨(),hchecks.1,bind_eq_ok.mpr ⟨(),hchecks.2,rfl⟩⟩⟩⟩

theorem Committed.persists {tr tr' : List (StoreOp × Result StoreReply)} {db'' : Database} {expected : Nat}
    {lease : ExecutionLease} {e : RawEnvelope} {x y : SealedEnvelope}
    (hrun : (store checks bytes).Run tr db)
    (hc : commitExecution checks clock db expected lease e = .ok (db',y))
    (hx : Committed clock db db' expected lease e x) (hlater : (store checks bytes).Steps db' tr' db'')
    (hkept : .retained lease.executionID ∉ events tr') :
    ∃ row, db''.executions.get? lease.executionID = some row ∧ expected + 1 ≤ row.revision ∧
      (view db'').history lease.executionID (expected + 1) = some x := by
  have hstep : (Postgres.step checks bytes clock (.commit expected lease e) db).1 = db' := by
    simp only [Postgres.step,hc,transact]
  have hrun' : (store checks bytes).Run
      (tr ++ [(.commit expected lease e,
        (Postgres.step checks bytes clock (.commit expected lease e) db).2)]) db' := by
    have := Store.Steps.step clock (.commit expected lease e) hrun
    rwa [show ((store checks bytes).step clock (.commit expected lease e) db).1 = db' from hstep] at this
  have hdoc : (view db').history lease.executionID (expected + 1) = some x := by
    obtain ⟨row,-,-,-,-,-,rfl⟩ := hx.row
    rw [view_setRow,view_insertHistory]
    simp [setHistory]
  obtain ⟨hle,hcase⟩ := (postgres_refines checks bytes).payload hrun' hlater hdoc
  have hstay : (view db'').history lease.executionID (expected + 1) = some x := by
    rcases hcase with hsome | ⟨-,hmem⟩
    · exact hsome
    · exact absurd hmem hkept
  have hle' : expected + 1 ≤ (view db'').head lease.executionID := hle
  cases hr : db''.executions.get? lease.executionID with
  | none =>
    simp only [view,hr,Option.elim_none] at hle'
    omega
  | some row =>
    rw [(view_row hr).2.2] at hle'
    exact ⟨row,rfl,hle',hstay⟩

end Invariant

section Example

variable [Sealing]

def sampleClock : Nat → Time := fun _ => ⟨1⟩

end Example
end Flowy.Postgres
