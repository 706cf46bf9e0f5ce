import Flowy.Store.SingleWriter

/-! Retention in the in-memory store: what a request keeps, what it deletes for good, and when it is
refused. Heads, fences and anchors outlive every payload, so a deleted name is never free again. -/
namespace Flowy.Memory

open Leased

/-- How `Start`, `Import` and `Fork` look at the name they are about to create: only an execution that
was never there lets them go on. -/
def targetAbsent (conflict : Sentinel) (loaded : Result SealedEnvelope) : Result Unit :=
  match loaded with
  | .ok _ => fail conflict
  | .error err => if err.is .threadNotFound then .ok () else .error err

section Operations

variable [Sealing] (s : MemoryStore) (id : Text)

def startTargetAbsent : Result Unit := targetAbsent .concurrencyConflict (loadExecution s id)

def importTargetAbsent : Result Unit := targetAbsent .concurrencyConflict (loadExecution s id)

def forkTargetAbsent : Result Unit := targetAbsent .forkTargetConflict (loadExecution s id)

end Operations

/-- A lease that has not expired; a missing lease reads as one with the zero expiry. -/
def MemoryStore.leased (s : MemoryStore) (id : Text) (now : Time) : Bool := (s.lease id).expiresAt.after now

section Frames

variable {s s' : MemoryStore} {id : Text}

structure SameAnchors (id : Text) (s s' : MemoryStore) : Prop where
  head : s'.head id = s.head id
  lineage : s'.lineage.get? id = s.lineage.get? id
  incoming : s'.incoming.get? id = s.incoming.get? id
  outgoing : s'.outgoing.get? id = s.outgoing.get? id

theorem SameAnchors.refl (s : MemoryStore) : SameAnchors id s s := ⟨rfl,rfl,rfl,rfl⟩

theorem SameAnchors.trans {s'' : MemoryStore} (h : SameAnchors id s s') (h' : SameAnchors id s' s'') :
    SameAnchors id s s'' :=
  ⟨h'.head.trans h.head,h'.lineage.trans h.lineage,h'.incoming.trans h.incoming,
    h'.outgoing.trans h.outgoing⟩

structure Untouched (id : Text) (s s' : MemoryStore) : Prop extends SameAnchors id s s' where
  items : s'.items id = s.items id

theorem Untouched.refl (s : MemoryStore) : Untouched id s s := ⟨.refl s,rfl⟩

theorem items_set_of_ne {k : Text} (items : GoMap Nat SealedEnvelope) (h : id ≠ k) :
    ((s.history.set k items).get? id).getD ∅ = s.items id := by
  rw [GoMap.get?_set_of_ne _ _ h]
  rfl

theorem SameAnchors.decode [Sealing] (h : SameAnchors id s s') (data : Option SealedEnvelope) (r : Nat) :
    decodeAnchoredExecution s' data id r = decodeAnchoredExecution s data id r := by
  unfold decodeAnchoredExecution
  rw [h.lineage,h.incoming,h.outgoing]

end Frames

section Requests

variable [Sealing] {checks : PayloadChecks} {clock : Nat → Time} {s s' : MemoryStore}
  {request : ExecutionRetentionRequest} {receipt : ExecutionRetentionReceipt}

theorem validateRetentionProtected_iff {id : Text} {items : GoMap Nat SealedEnvelope} (rs : List Nat) :
    validateRetentionProtected s id items rs = .ok () ↔
      ∀ r ∈ rs, ∃ x, decodeAnchoredExecution s (items.get? r) id r = .ok x := by
  induction rs with
  | nil => simp [validateRetentionProtected]
  | cons r rest ih =>
    simp only [validateRetentionProtected,bind_eq_ok,ih,List.mem_cons,forall_eq_or_imp]
    constructor
    · rintro ⟨x,hx,hrest⟩
      exact ⟨⟨x,hx⟩,hrest⟩
    · rintro ⟨⟨x,hx⟩,hrest⟩
      exact ⟨x,hx,hrest⟩

structure AtBoundary (checks : PayloadChecks) (request : ExecutionRetentionRequest) (source : SealedEnvelope) :
    Prop where
  boundary : validateExecutionLifecycleBoundary checks source = .ok ()
  terminal : request.policy.deletePayload = true → source.envelope.terminal ≠ none

structure Admitted (clock : Nat → Time) (s : MemoryStore) (request : ExecutionRetentionRequest) : Prop where
  valid : request.validate = .ok ()
  unleased : s.leased request.executionID (clock 0) = false
  written : s.head request.executionID ≠ 0
  head : s.head request.executionID = request.revision

structure Sorted (checks : PayloadChecks) (s : MemoryStore) (request : ExecutionRetentionRequest)
    (source : SealedEnvelope) : Prop where
  present : (s.items request.executionID).get? request.revision ≠ none
  head : decodeAnchoredExecution s ((s.items request.executionID).get? request.revision)
    request.executionID request.revision = .ok source
  atBoundary : AtBoundary checks request source
  kept : ∀ r ∈ request.policy.protectedRevisions, ∃ x, decodeAnchoredExecution s
    ((s.items request.executionID).get? r) request.executionID r = .ok x

def removedBy (s : MemoryStore) (request : ExecutionRetentionRequest) : List SealedEnvelope :=
  ((s.items request.executionID).filter fun r _ => !executionRevisionRetained request r).values

def sortedBy (s : MemoryStore) (request : ExecutionRetentionRequest) : MemoryStore :=
  let kept := (s.items request.executionID).filter fun r _ => executionRevisionRetained request r
  { s with history := s.history.set request.executionID kept }

theorem retainExecution_iff :
    retainExecution checks clock s request = .ok (s',receipt) ↔ Admitted clock s request ∧
      (((s.items request.executionID).get? request.revision = none ∧ request.policy.deletePayload = true ∧
          s' = s ∧ receipt = ⟨request.executionID,request.revision,0,0⟩) ∨
        ((∃ source, Sorted checks s request source) ∧ s' = sortedBy s request ∧
          receipt = ⟨request.executionID,request.revision,(removedBy s request).length,
            ((removedBy s request).map documentLength).sum⟩)) := by
  have haccept : Admitted clock s request ↔ request.validate = .ok () ∧
      (!(s.lease request.executionID).expiresAt.after (clock 0)) = true ∧
      (s.head request.executionID != 0) = true ∧
      (s.head request.executionID == request.revision) = true := by
    simp only [Bool.not_eq_true',bne_iff_ne,beq_iff_eq]
    exact ⟨fun h => ⟨h.valid,h.unleased,h.written,h.head⟩,fun ⟨h1,h2,h3,h4⟩ => ⟨h1,h2,h3,h4⟩⟩
  simp only [retainExecution,bind_eq_ok,require_eq_ok,exists_const]
  rw [haccept]
  constructor
  · rintro ⟨u,hvalid,hfree,hwritten,hhead,h⟩
    refine ⟨⟨hvalid,hfree,hwritten,hhead⟩,?_⟩
    cases hd : (s.items request.executionID).get? request.revision with
    | none =>
      rw [hd] at h
      dsimp only at h
      split at h
      · rename_i hdelete
        cases h
        exact .inl ⟨rfl,hdelete,rfl,rfl⟩
      · cases h
    | some document =>
      rw [hd] at h
      simp only [bind_eq_ok,require_eq_ok,exists_const,Except.ok.injEq,Prod.mk.injEq] at h
      obtain ⟨source,hsource,u',hbound,hterminal,u'',hprot,rfl,rfl⟩ := h
      refine .inr ⟨⟨source,by simp [hd],by rw [hd]; exact hsource,⟨hbound,?_⟩,
        (validateRetentionProtected_iff _).mp hprot⟩,rfl,rfl⟩
      intro hdelete hnone
      simp [hdelete,hnone] at hterminal
  · rintro ⟨⟨hvalid,hfree,hwritten,hhead⟩,⟨hnone,hdelete,rfl,rfl⟩ | ⟨⟨source,hs⟩,rfl,rfl⟩⟩
    · exact ⟨(),hvalid,hfree,hwritten,hhead,by simp [hnone,hdelete]⟩
    · refine ⟨(),hvalid,hfree,hwritten,hhead,?_⟩
      obtain ⟨document,hd⟩ := Option.ne_none_iff_exists'.mp hs.present
      have hsource := hs.head
      rw [hd] at hsource ⊢
      simp only [bind_eq_ok,require_eq_ok,exists_const]
      refine ⟨source,hsource,(),hs.atBoundary.boundary,?_,(),
        (validateRetentionProtected_iff _).mpr hs.kept,rfl⟩
      cases hdelete : request.policy.deletePayload with
      | false => rfl
      | true =>
        have := hs.atBoundary.terminal hdelete
        cases hterminal : source.envelope.terminal with
        | none => exact absurd hterminal this
        | some t => rfl

omit [Sealing] in
theorem sortedBy_items : (sortedBy s request).items request.executionID =
    (s.items request.executionID).filter fun r _ => executionRevisionRetained request r := by
  simp only [sortedBy,MemoryStore.items,GoMap.get?_set_self,Option.getD_some]

omit [Sealing] in
theorem sortedBy_get? (r : Nat) : ((sortedBy s request).items request.executionID).get? r =
    if executionRevisionRetained request r then (s.items request.executionID).get? r else none := by
  rw [sortedBy_items]
  exact GoMap.get?_filter_key _ (executionRevisionRetained request) r

omit [Sealing] in
theorem executionRevisionRetained_of_named (h : request.policy.deletePayload = false) {r : Nat}
    (hr : r ∈ request.revision :: request.policy.protectedRevisions) :
    executionRevisionRetained request r = true := by
  have hnamed : (r == request.revision || request.policy.protectedRevisions.contains r) = true := by
    simpa using hr
  simp only [executionRevisionRetained,h,hnamed,if_true]
  rfl

omit [Sealing] in
theorem executionRevisionRetained_of_delete (h : request.policy.deletePayload = true) (r : Nat) :
    executionRevisionRetained request r = false := by
  simp [executionRevisionRetained,h]

theorem retainExecution_sameAnchors (h : retainExecution checks clock s request = .ok (s',receipt)) (id : Text) :
    SameAnchors id s s' := by
  obtain ⟨-,⟨-,-,rfl,-⟩ | ⟨-,rfl,-⟩⟩ := retainExecution_iff.mp h
  · exact .refl _
  · exact ⟨rfl,rfl,rfl,rfl⟩

omit [Sealing] in
theorem protected_bounds (h : request.validate = .ok ()) {r : Nat}
    (hr : r ∈ request.policy.protectedRevisions) : r ≠ 0 ∧ r ≤ request.revision := by
  simp only [ExecutionRetentionRequest.validate,bind_eq_ok,require_eq_ok,exists_const] at h
  exact validProtectedRevisions_bounds h.2.2 r hr

theorem loadCheckpoint_of_bounds {id : Text} {r : Nat} (hr : r ≠ 0 ∧ r ≤ s.head id) :
    loadCheckpoint s id r = decodeAnchoredExecution s ((s.items id).get? r) id r := by
  rw [loadCheckpoint,if_neg hr.1,if_neg (Nat.not_lt.mpr hr.2)]

theorem loadExecution_of_written {id : Text} (h : s.head id ≠ 0) :
    loadExecution s id = decodeAnchoredExecution s ((s.items id).get? (s.head id)) id (s.head id) := by
  rw [loadExecution,if_neg h]

theorem retainExecution_loads (h : retainExecution checks clock s request = .ok (s',receipt))
    (hkeep : request.policy.deletePayload = false) :
    (∃ x, loadExecution s request.executionID = .ok x ∧ loadExecution s' request.executionID = .ok x) ∧
      ∀ r ∈ request.policy.protectedRevisions, ∃ x, loadCheckpoint s request.executionID r = .ok x ∧
        loadCheckpoint s' request.executionID r = .ok x := by
  have hsame := retainExecution_sameAnchors h request.executionID
  obtain ⟨haccept,⟨-,hdelete,-⟩ | ⟨⟨source,hs⟩,rfl,-⟩⟩ := retainExecution_iff.mp h
  · rw [hkeep] at hdelete
    cases hdelete
  have hstay : ∀ r ∈ request.revision :: request.policy.protectedRevisions,
      decodeAnchoredExecution (sortedBy s request) (((sortedBy s request).items request.executionID).get? r)
        request.executionID r =
        decodeAnchoredExecution s ((s.items request.executionID).get? r) request.executionID r := by
    intro r hr
    rw [hsame.decode,sortedBy_get?,if_pos (executionRevisionRetained_of_named hkeep hr)]
  constructor
  · refine ⟨source,?_,?_⟩
    · rw [loadExecution_of_written haccept.written,haccept.head]
      exact hs.head
    · rw [loadExecution_of_written (hsame.head ▸ haccept.written),hsame.head,haccept.head]
      exact (hstay _ List.mem_cons_self).trans hs.head
  · intro r hr
    obtain ⟨x,hx⟩ := hs.kept r hr
    have hbounds := protected_bounds haccept.valid hr
    rw [← haccept.head] at hbounds
    refine ⟨x,?_,?_⟩
    · rw [loadCheckpoint_of_bounds hbounds]
      exact hx
    · rw [loadCheckpoint_of_bounds (hsame.head.symm ▸ hbounds)]
      exact (hstay r (List.mem_cons_of_mem _ hr)).trans hx

theorem retainExecution_refused
    (h : s.leased request.executionID (clock 0) = true ∨
      s.head request.executionID ≠ request.revision ∨
      ((s.items request.executionID).get? (s.head request.executionID) ≠ none ∧
        ∀ source, loadExecution s request.executionID = .ok source → ¬ AtBoundary checks request source)) :
    ∃ err, step checks clock s (.retain request) = (s,.error err) := by
  cases hr : retainExecution checks clock s request with
  | error err => exact ⟨err,by simp only [step,hr,transact]⟩
  | ok r =>
    obtain ⟨s',receipt⟩ := r
    obtain ⟨haccept,hcase⟩ := retainExecution_iff.mp hr
    rcases h with hlive | hhead | ⟨hpresent,hbound⟩
    · rw [haccept.unleased] at hlive
      cases hlive
    · exact absurd haccept.head hhead
    · rw [haccept.head] at hpresent
      rcases hcase with ⟨hnone,-⟩ | ⟨⟨source,hs⟩,-⟩
      · exact absurd hnone hpresent
      · refine absurd hs.atBoundary (hbound source ?_)
        rw [loadExecution_of_written haccept.written,haccept.head]
        exact hs.head

end Requests

section Runs

variable [Sealing] {checks : PayloadChecks} {clock : Nat → Time} {s s' : MemoryStore} {id : Text}
  {tr tr' : List (StoreOp × Result StoreReply)}

theorem step_reads_head {op : StoreOp} (h : (op.event (step checks clock s op).2).writesTo id ≠ 0) :
    s.head id = 0 ∨ (s.items id).get? (s.head id) ≠ none := by
  cases op with
  | acquire | renew | release | retain =>
    simp only [step,transact] at h
    split at h <;> exact absurd rfl h
  | commit expected lease e =>
    cases hc : commitExecution clock s expected lease e with
    | error err =>
      simp only [step,hc,transact] at h
      exact absurd rfl h
    | ok r =>
      simp only [step,hc,transact,StoreOp.event,Event.writesTo,ne_eq,ite_eq_right_iff,one_ne_zero,
        imp_false,not_not] at h
      simp only [commitExecution,bind_eq_ok,require_eq_ok,exists_const,Bool.and_eq_true,beq_iff_eq] at hc
      obtain ⟨-,⟨-,hname⟩,-,-,-,hhead,previous,hprev,-⟩ := hc
      rw [hname,h] at hhead hprev
      rw [hhead]
      unfold loadPrevious at hprev
      split at hprev
      · simp only [bind_eq_ok] at hprev
        obtain ⟨stored,hstored,-⟩ := hprev
        refine .inr fun hnone => ?_
        rw [hnone] at hstored
        cases hstored
      · rename_i hzero
        exact .inl (by omega)
  | rollover lease source target =>
    cases hc : commitRollover checks clock s lease source target with
    | error err =>
      simp only [step,hc,transact] at h
      exact absurd rfl h
    | ok r =>
      simp only [step,hc,transact,StoreOp.event,Event.writesTo,ne_eq,ite_eq_right_iff,one_ne_zero,
        imp_false,not_not] at h
      simp only [commitRollover,bind_eq_ok,require_eq_ok,exists_const,Bool.and_eq_true,beq_iff_eq] at hc
      obtain ⟨⟨-,hname⟩,-,hhead,-,current,hload,-,⟨hunused,-⟩,-⟩ := hc
      rcases h with rfl | rfl
      · rw [hname,hhead]
        refine .inr fun hnone => ?_
        rw [hnone] at hload
        cases hload
      · exact .inl hunused

omit [Sealing] in
theorem acquireExecution_untouched {key owner : Text} {ttl : Duration} {l : ExecutionLease}
    (h : acquireExecution clock s key owner ttl = .ok (s',l)) : Untouched id s s' := by
  unfold acquireExecution at h
  split at h
  · cases h
  split at h
  · cases h
  split at h
  · cases h
  cases h
  exact ⟨⟨rfl,rfl,rfl,rfl⟩,rfl⟩

omit [Sealing] in
theorem renewExecution_untouched {lease l : ExecutionLease} {ttl : Duration}
    (h : renewExecution clock s lease ttl = .ok (s',l)) : Untouched id s s' := by
  unfold renewExecution at h
  split at h
  · cases h
  simp only [bind_eq_ok,require_eq_ok,exists_const] at h
  obtain ⟨-,h⟩ := h
  cases h
  exact ⟨⟨rfl,rfl,rfl,rfl⟩,rfl⟩

omit [Sealing] in
theorem releaseExecution_untouched {lease : ExecutionLease} {u : Unit}
    (h : releaseExecution s lease = .ok (s',u)) : Untouched id s s' := by
  unfold releaseExecution at h
  cases hl : s.leases.get? lease.executionID with
  | none =>
    simp only [hl] at h
    split at h
    · cases h
      exact .refl s
    · cases h
  | some current =>
    simp only [hl] at h
    split at h
    · cases h
    · cases h
      exact ⟨⟨rfl,rfl,rfl,rfl⟩,rfl⟩

theorem commitExecution_untouched {expected : Nat} {lease : ExecutionLease} {e : RawEnvelope}
    {y : SealedEnvelope} (h : commitExecution clock s expected lease e = .ok (s',y))
    (hid : lease.executionID ≠ id) : Untouched id s s' := by
  simp only [commitExecution,bind_eq_ok,require_eq_ok,exists_const,Bool.and_eq_true,beq_iff_eq,
    Except.ok.injEq,Prod.mk.injEq] at h
  obtain ⟨-,⟨-,hname⟩,-,-,-,-,-,-,-,-,-,-,x,-,-,-,result,-,rfl,-⟩ := h
  have hne : id ≠ e.executionID := fun heq => hid (hname ▸ heq.symm)
  refine ⟨⟨?_,?_,rfl,rfl⟩,items_set_of_ne _ hne⟩
  · simp only [MemoryStore.head,GoMap.get?_set_of_ne _ _ hne]
  · dsimp only
    split
    · exact GoMap.get?_set_of_ne _ _ hne
    · rfl

theorem commitRollover_untouched {lease : ExecutionLease} {source : HistoricalCheckpointReference}
    {target : SealedEnvelope} {receipt : RolloverReceipt}
    (h : commitRollover checks clock s lease source target = .ok (s',receipt))
    (hid : lease.executionID ≠ id) (htarget : target.envelope.executionID ≠ id) : Untouched id s s' := by
  simp only [commitRollover,bind_eq_ok,require_eq_ok,exists_const,Bool.and_eq_true,beq_iff_eq,
    Except.ok.injEq] at h
  obtain ⟨⟨-,hname⟩,-,-,-,current,-,-,-,⟨transferred,created,receipt'⟩,hpub,h⟩ := h
  simp only [Prod.mk.injEq] at h
  obtain ⟨-,-,-,-,rfl,-⟩ := h
  obtain ⟨-,hpair⟩ := prepareExecutionRolloverPublication_eq_ok hpub
  have hs : id ≠ source.executionID := fun heq => hid (hname ▸ heq.symm)
  have ht : id ≠ created.envelope.executionID := by
    rw [hpair.created_envelope]
    exact htarget.symm
  refine ⟨⟨?_,rfl,GoMap.get?_set_of_ne _ _ ht,GoMap.get?_set_of_ne _ _ hs⟩,?_⟩
  · simp only [MemoryStore.head,GoMap.get?_set_of_ne _ _ ht,GoMap.get?_set_of_ne _ _ hs]
  · simp only [MemoryStore.items,GoMap.get?_set_of_ne _ _ ht,GoMap.get?_set_of_ne _ _ hs]

theorem retainExecution_untouched {request : ExecutionRetentionRequest} {receipt : ExecutionRetentionReceipt}
    (id : Text) (h : retainExecution checks clock s request = .ok (s',receipt)) :
    Untouched id s s' ∨ (request.executionID = id ∧ s' = sortedBy s request) := by
  have hsame := retainExecution_sameAnchors h id
  obtain ⟨-,⟨-,-,rfl,-⟩ | ⟨-,rfl,-⟩⟩ := retainExecution_iff.mp h
  · exact .inl (.refl _)
  · by_cases hid : request.executionID = id
    · exact .inr ⟨hid,rfl⟩
    · exact .inl ⟨hsame,items_set_of_ne _ (Ne.symm hid)⟩

theorem step_frame {op : StoreOp} (h : (op.event (step checks clock s op).2).writesTo id = 0) :
    Untouched id s (step checks clock s op).1 ∨
      ∃ request reply, op = .retain request ∧ (step checks clock s op).2 = .ok reply ∧
        request.executionID = id ∧ (step checks clock s op).1 = sortedBy s request := by
  cases op with
  | acquire key owner ttl =>
    simp only [step]
    cases hc : acquireExecution clock s key owner ttl with
    | error err => exact .inl (.refl s)
    | ok r => exact .inl (acquireExecution_untouched hc)
  | renew lease ttl =>
    simp only [step]
    cases hc : renewExecution clock s lease ttl with
    | error err => exact .inl (.refl s)
    | ok r => exact .inl (renewExecution_untouched hc)
  | release lease =>
    simp only [step]
    cases hc : releaseExecution s lease with
    | error err => exact .inl (.refl s)
    | ok r => exact .inl (releaseExecution_untouched hc)
  | commit expected lease e =>
    simp only [step] at h ⊢
    cases hc : commitExecution clock s expected lease e with
    | error err => exact .inl (.refl s)
    | ok r =>
      simp only [hc,transact,StoreOp.event,Event.writesTo,ite_eq_right_iff,one_ne_zero,imp_false] at h
      exact .inl (commitExecution_untouched hc h)
  | rollover lease source target =>
    simp only [step] at h ⊢
    cases hc : commitRollover checks clock s lease source target with
    | error err => exact .inl (.refl s)
    | ok r =>
      simp only [hc,transact,StoreOp.event,Event.writesTo,ite_eq_right_iff,one_ne_zero,imp_false,
        not_or] at h
      exact .inl (commitRollover_untouched hc h.1 h.2)
  | retain request =>
    simp only [step]
    cases hc : retainExecution checks clock s request with
    | error err => exact .inl (.refl s)
    | ok r =>
      rcases retainExecution_untouched id hc with hsame | ⟨hid,hsorted⟩
      · exact .inl hsame
      · exact .inr ⟨request,_,rfl,rfl,hid,hsorted⟩

def Spares (request : ExecutionRetentionRequest) (tr : List (StoreOp × Result StoreReply)) : Prop :=
  request.policy.deletePayload = false → ∀ other reply, (.retain other,.ok reply) ∈ tr →
    other.executionID = request.executionID →
    ∀ r ∈ request.revision :: request.policy.protectedRevisions, executionRevisionRetained other r = true

structure Survives (request : ExecutionRetentionRequest) (s s' : MemoryStore) : Prop where
  anchors : SameAnchors request.executionID s s'
  fewer : ∀ r, (s'.items request.executionID).get? r = none ∨
    (s'.items request.executionID).get? r = (s.items request.executionID).get? r
  named : request.policy.deletePayload = false →
    ∀ r ∈ request.revision :: request.policy.protectedRevisions,
      (s'.items request.executionID).get? r = (s.items request.executionID).get? r

variable {request : ExecutionRetentionRequest} {receipt : ExecutionRetentionReceipt}

omit [Sealing] in
theorem Survives.refl (s : MemoryStore) : Survives request s s :=
  ⟨.refl s,fun _ => .inr rfl,fun _ _ _ => rfl⟩

theorem Survives.next {op : StoreOp} (h : Survives request s s')
    (hquiet : (op.event (step checks clock s' op).2).writesTo request.executionID = 0)
    (hspares : Spares request [(op,(step checks clock s' op).2)]) :
    Survives request s (step checks clock s' op).1 := by
  rcases step_frame hquiet with hsame | ⟨other,reply,rfl,hreply,hid,hsorted⟩
  · refine ⟨h.anchors.trans hsame.toSameAnchors,?_,?_⟩ <;> rw [hsame.items]
    · exact h.fewer
    · exact h.named
  · have hget : ∀ r, ((step checks clock s' (.retain other)).1.items request.executionID).get? r =
        if executionRevisionRetained other r then (s'.items request.executionID).get? r else none := by
      intro r
      rw [hsorted,← hid]
      exact sortedBy_get? r
    have hanchors : SameAnchors request.executionID s' (step checks clock s' (.retain other)).1 := by
      rw [hsorted]
      exact ⟨rfl,rfl,rfl,rfl⟩
    refine ⟨h.anchors.trans hanchors,?_,?_⟩
    · intro r
      rw [hget]
      split
      · exact h.fewer r
      · exact .inl rfl
    · intro hkeep r hr
      rw [hget,if_pos (hspares hkeep other reply (by simp [hreply]) hid r hr)]
      exact h.named hkeep r hr

theorem Survives.steps {s₁ s₂ : (store checks).State} (h : (store checks).Steps s₁ tr s₂)
    (hquiet : writes (events tr) request.executionID = 0) (hspares : Spares request tr) :
    Survives request s₁ s₂ := by
  induction h with
  | refl => exact .refl s₁
  | @step tr s clock op hs ih =>
    have hw := hquiet
    simp only [writes,events_append,List.map_append,List.map_cons,List.map_nil,List.sum_append,
      List.sum_singleton,Nat.add_eq_zero_iff] at hw
    have hbefore : Survives request s₁ s := ih hw.1 fun hkeep other reply hmem =>
      hspares hkeep other reply (List.mem_append_left _ hmem)
    exact hbefore.next hw.2 fun hkeep other reply hmem =>
      hspares hkeep other reply (List.mem_append_right _ hmem)

theorem retainExecution_retained (h : retainExecution checks clock s request = .ok (s',receipt))
    (hkeep : request.policy.deletePayload = false) {r : Nat}
    (hr : executionRevisionRetained request r = false) : (s'.items request.executionID).get? r = none := by
  obtain ⟨-,⟨-,hdelete,-⟩ | ⟨-,rfl,-⟩⟩ := retainExecution_iff.mp h
  · rw [hkeep] at hdelete
    cases hdelete
  · rw [sortedBy_get?,hr]
    rfl

theorem retainExecution_deletes (h : retainExecution checks clock s request = .ok (s',receipt))
    (hdelete : request.policy.deletePayload = true) :
    (s'.items request.executionID).get? request.revision = none := by
  obtain ⟨-,⟨hnone,-,rfl,-⟩ | ⟨-,rfl,-⟩⟩ := retainExecution_iff.mp h
  · exact hnone
  · rw [sortedBy_get?,executionRevisionRetained_of_delete hdelete]
    rfl

omit [Sealing] in
theorem sortedBy_of_retained
    (h : ∀ r, executionRevisionRetained request r = false → (s.items request.executionID).get? r = none) :
    removedBy s request = [] ∧ ∀ id r, ((sortedBy s request).items id).get? r = (s.items id).get? r := by
  constructor
  · refine List.eq_nil_iff_forall_not_mem.mpr fun x hx => ?_
    obtain ⟨r,hr⟩ := (GoMap.mem_values_iff _ x).mp hx
    have hget := GoMap.get?_filter_key (s.items request.executionID)
      (fun r => !executionRevisionRetained request r) r
    rw [hget] at hr
    cases hret : executionRevisionRetained request r with
    | true => simp [hret] at hr
    | false => simp [hret,h r hret] at hr
  · intro id r
    by_cases hid : id = request.executionID
    · subst hid
      rw [sortedBy_get?]
      cases hret : executionRevisionRetained request r with
      | true => rfl
      | false => exact (h r hret).symm
    · exact congrArg (GoMap.get? · r) (items_set_of_ne _ hid)

theorem retainExecution_repeats {s₁ s₂ : MemoryStore} {clock' : Nat → Time}
    (h : retainExecution checks clock s request = .ok (s₁,receipt)) (hs : Survives request s₁ s₂)
    (hfree : s₂.leased request.executionID (clock' 0) = false) :
    ∃ s₃, retainExecution checks clock' s₂ request = .ok (s₃,⟨request.executionID,request.revision,0,0⟩) ∧
      ∀ id r, (s₃.items id).get? r = (s₂.items id).get? r := by
  have hsame := (retainExecution_sameAnchors h request.executionID).trans hs.anchors
  obtain ⟨haccept,hcase⟩ := retainExecution_iff.mp h
  have haccept' : Admitted clock' s₂ request :=
    ⟨haccept.valid,hfree,hsame.head ▸ haccept.written,hsame.head.trans haccept.head⟩
  cases hdelete : request.policy.deletePayload with
  | true =>
    have hnone : (s₂.items request.executionID).get? request.revision = none := by
      rcases hs.fewer request.revision with hnone | heq
      · exact hnone
      · exact heq.trans (retainExecution_deletes h hdelete)
    exact ⟨s₂,retainExecution_iff.mpr ⟨haccept',.inl ⟨hnone,hdelete,rfl,rfl⟩⟩,fun _ _ => rfl⟩
  | false =>
    rcases hcase with ⟨-,habsurd,-⟩ | ⟨⟨source,hsorted⟩,rfl,-⟩
    · rw [hdelete] at habsurd
      cases habsurd
    have hget : ∀ r ∈ request.revision :: request.policy.protectedRevisions,
        (s₂.items request.executionID).get? r = (s.items request.executionID).get? r := by
      intro r hr
      rw [hs.named hdelete r hr,sortedBy_get?,if_pos (executionRevisionRetained_of_named hdelete hr)]
    have hagain : Sorted checks s₂ request source := by
      refine ⟨?_,?_,hsorted.atBoundary,fun r hr => ?_⟩
      · rw [hget _ List.mem_cons_self]
        exact hsorted.present
      · rw [hget _ List.mem_cons_self,hsame.decode]
        exact hsorted.head
      · rw [hget r (List.mem_cons_of_mem _ hr)]
        obtain ⟨x,hx⟩ := hsorted.kept r hr
        exact ⟨x,(hsame.decode _ _).trans hx⟩
    have hgone : ∀ r, executionRevisionRetained request r = false →
        (s₂.items request.executionID).get? r = none := by
      intro r hr
      rcases hs.fewer r with hnone | heq
      · exact hnone
      · exact heq.trans (retainExecution_retained h hdelete hr)
    obtain ⟨hremoved,hitems⟩ := sortedBy_of_retained hgone
    refine ⟨sortedBy s₂ request,retainExecution_iff.mpr ⟨haccept',.inr ⟨⟨source,hagain⟩,rfl,?_⟩⟩,hitems⟩
    rw [hremoved]
    rfl

end Runs

section Authority

variable [Sealing]

structure KeepsAuthority (checks : PayloadChecks) : Prop where
  /-- A request that does not delete the execution leaves its head and protected revisions loadable. -/
  loads : ∀ tr s, (store checks).Run tr s → ∀ clock request s' receipt,
    retainExecution checks clock s request = .ok (s',receipt) → request.policy.deletePayload = false →
    (∃ x, loadExecution s request.executionID = .ok x ∧ loadExecution s' request.executionID = .ok x) ∧
      ∀ r ∈ request.policy.protectedRevisions, ∃ x, loadCheckpoint s request.executionID r = .ok x ∧
        loadCheckpoint s' request.executionID r = .ok x
  /-- A deleted revision is unavailable from then on, as a checkpoint and as a head. -/
  unavailable : ∀ tr s, (store checks).Run tr s → ∀ clock request s' receipt,
    retainExecution checks clock s request = .ok (s',receipt) →
    ∀ r, (s.items request.executionID).get? r ≠ none → (s'.items request.executionID).get? r = none →
    ∀ tr' s'', (store checks).Steps s' tr' s'' →
      loadCheckpoint s'' request.executionID r = fail .executionCheckpointUnavailable ∧
        (s''.head request.executionID = r →
          loadExecution s'' request.executionID = fail .executionCheckpointUnavailable)
  /-- A name whose payload was deleted keeps its head: no operation writes to it again, and `Start`,
  `Import` and `Fork` find it taken. -/
  deleted : ∀ tr s, (store checks).Run tr s → ∀ clock request s' receipt,
    retainExecution checks clock s request = .ok (s',receipt) → request.policy.deletePayload = true →
    ∀ tr' s'', (store checks).Steps s' tr' s'' →
      s''.head request.executionID = request.revision ∧
        (∀ (clock : Nat → Time) (op : StoreOp), (op.event (step checks clock s'' op).2).writesTo request.executionID = 0) ∧
        startTargetAbsent s'' request.executionID = fail .executionCheckpointUnavailable ∧
        importTargetAbsent s'' request.executionID = fail .executionCheckpointUnavailable ∧
        forkTargetAbsent s'' request.executionID = fail .executionCheckpointUnavailable
  /-- A refused request changes nothing. -/
  refused : ∀ s clock request, (s.leased request.executionID (clock 0) = true ∨
      s.head request.executionID ≠ request.revision ∨
      ((s.items request.executionID).get? (s.head request.executionID) ≠ none ∧
        ∀ source, loadExecution s request.executionID = .ok source → ¬ AtBoundary checks request source)) →
    ∃ err, step checks clock s (.retain request) = (s,.error err)
  /-- A request repeated before the next write deletes nothing, unless another request has taken
  revisions it names. -/
  repeated : ∀ tr s, (store checks).Run tr s → ∀ clock request s₁ receipt,
    retainExecution checks clock s request = .ok (s₁,receipt) →
    ∀ tr' s₂, (store checks).Steps s₁ tr' s₂ → writes (events tr') request.executionID = 0 →
      Spares request tr' → ∀ clock', s₂.leased request.executionID (clock' 0) = false →
      ∃ s₃, retainExecution checks clock' s₂ request =
          .ok (s₃,⟨request.executionID,request.revision,0,0⟩) ∧
        ∀ id r, (s₃.items id).get? r = (s₂.items id).get? r

variable {checks : PayloadChecks} {clock : Nat → Time} {s s' : MemoryStore}
  {tr tr' : List (StoreOp × Result StoreReply)} {request : ExecutionRetentionRequest}
  {receipt : ExecutionRetentionReceipt}

theorem retainExecution_run (hrun : (store checks).Run tr s)
    (h : retainExecution checks clock s request = .ok (s',receipt)) : ∃ tr, (store checks).Run tr s' := by
  have hstep : (step checks clock s (.retain request)).1 = s' := by simp only [step,h,transact]
  exact ⟨_,hstep ▸ hrun.step clock (.retain request)⟩

theorem loadExecution_absent {id : Text} (hhead : s.head id ≠ 0)
    (hnone : (s.items id).get? (s.head id) = none) :
    loadExecution s id = fail .executionCheckpointUnavailable := by
  rw [loadExecution_of_written hhead,hnone]
  rfl

theorem deleted_unavailable (hrun : (store checks).Run tr s)
    (h : retainExecution checks clock s request = .ok (s',receipt)) {r : Nat}
    (hsome : (s.items request.executionID).get? r ≠ none)
    (hnone : (s'.items request.executionID).get? r = none) {s'' : MemoryStore}
    (hlater : (store checks).Steps s' tr' s'') :
    loadCheckpoint s'' request.executionID r = fail .executionCheckpointUnavailable ∧
      (s''.head request.executionID = r →
        loadExecution s'' request.executionID = fail .executionCheckpointUnavailable) := by
  obtain ⟨x,hx⟩ := Option.ne_none_iff_exists'.mp hsome
  obtain ⟨hpos,hle⟩ := ((memory_refines checks).traced hrun).stored request.executionID r x hx
  obtain ⟨tr₁,hrun'⟩ := retainExecution_run hrun h
  have hhead : s'.head request.executionID = s.head request.executionID :=
    (retainExecution_sameAnchors h request.executionID).head
  have hbound : r ≤ s'.head request.executionID := hhead.symm ▸ hle
  obtain ⟨hle',hnone'⟩ := (memory_refines checks).absent hrun' hlater ⟨hpos,hbound⟩ hnone
  have hgone : (s''.items request.executionID).get? r = none := hnone'
  refine ⟨?_,?_⟩
  · rw [loadCheckpoint_of_bounds ⟨Nat.ne_of_gt hpos,hle'⟩,hgone]
    rfl
  · rintro rfl
    exact loadExecution_absent (Nat.ne_of_gt hpos) hgone

theorem deleted_stays (hrun : (store checks).Run tr s)
    (h : retainExecution checks clock s request = .ok (s',receipt))
    (hdelete : request.policy.deletePayload = true) {s'' : MemoryStore}
    (hlater : (store checks).Steps s' tr' s'') :
    s''.head request.executionID = request.revision ∧ s''.head request.executionID ≠ 0 ∧
      (s''.items request.executionID).get? (s''.head request.executionID) = none := by
  have haccept := (retainExecution_iff.mp h).1
  have hhead : s'.head request.executionID = s.head request.executionID :=
    (retainExecution_sameAnchors h request.executionID).head
  have hne : s'.head request.executionID ≠ 0 := hhead ▸ haccept.written
  have hrev : s'.head request.executionID = request.revision := hhead.trans haccept.head
  obtain ⟨tr₁,hrun'⟩ := retainExecution_run hrun h
  have hnone : (s'.items request.executionID).get? (s'.head request.executionID) = none := by
    rw [hrev]
    exact retainExecution_deletes h hdelete
  obtain ⟨hsame,hgone⟩ := (memory_refines checks).dead (fun _ _ _ _ hw => step_reads_head hw) hrun' hlater
    hne hnone
  have hsame' : s''.head request.executionID = s'.head request.executionID := hsame
  exact ⟨hsame'.trans hrev,hsame'.symm ▸ hne,hgone⟩

theorem retention_keeps_authority (checks : PayloadChecks) : KeepsAuthority checks where
  loads _ _ _ _ _ _ _ h hkeep := retainExecution_loads h hkeep
  unavailable _ _ hrun _ _ _ _ h _ hsome hnone _ _ hlater := deleted_unavailable hrun h hsome hnone hlater
  deleted _ _ hrun _ _ _ _ h hdelete _ s'' hlater := by
    obtain ⟨hrev,hne,hgone⟩ := deleted_stays hrun h hdelete hlater
    have hload := loadExecution_absent hne hgone
    refine ⟨hrev,?_,?_,?_,?_⟩
    · intro clock op
      by_contra hwrites
      rcases step_reads_head hwrites with hzero | hpresent
      · exact hne hzero
      · exact hpresent hgone
    · unfold startTargetAbsent
      rw [hload]
      rfl
    · unfold importTargetAbsent
      rw [hload]
      rfl
    · unfold forkTargetAbsent
      rw [hload]
      rfl
  refused _ _ _ h := retainExecution_refused h
  repeated _ _ _ _ _ _ _ h _ _ hlater hquiet hspares _ hfree :=
    retainExecution_repeats h (Survives.steps hlater hquiet hspares) hfree

end Authority

section Example

attribute [local instance] Sealing.hex

def completedStore : MemoryStore :=
  (store sampleChecks).script
    [(fun _ => ⟨1⟩,.acquire (ascii "x") (ascii "w") 1000),
      (fun _ => ⟨1⟩,.commit 0 sampleLease
        { rawStart (ascii "x") none with terminal := some ⟨.completed,ascii "done",none⟩ }),
      (fun _ => ⟨1⟩,.release sampleLease)] ⟨∅,∅,∅,∅,∅,∅,∅⟩

def keepHead : ExecutionRetentionRequest := ⟨ascii "x",1,⟨ascii "keep",0,false,[]⟩⟩

def deleteHead : ExecutionRetentionRequest := ⟨ascii "x",1,⟨ascii "drop",0,true,[]⟩⟩

def keepDeleteKeep : Result (MemoryStore × MemoryStore × Result Unit) := do
  let (kept,_) ← retainExecution sampleChecks (fun _ => ⟨1⟩) completedStore keepHead
  let (dropped,_) ← retainExecution sampleChecks (fun _ => ⟨1⟩) kept deleteHead
  .ok (kept,dropped,(retainExecution sampleChecks (fun _ => ⟨1⟩) dropped keepHead).map fun _ => ())

theorem completedStore_run : ∃ tr, (store sampleChecks).Run tr completedStore :=
  Store.Steps.of_script _ .refl

theorem keepDeleteKeep_eq : ∃ kept dropped receipt receipt',
    retainExecution sampleChecks (fun _ => ⟨1⟩) completedStore keepHead = .ok (kept,receipt) ∧
      retainExecution sampleChecks (fun _ => ⟨1⟩) kept deleteHead = .ok (dropped,receipt') ∧
      retainExecution sampleChecks (fun _ => ⟨1⟩) dropped keepHead =
        fail .executionCheckpointUnavailable := by
  have heval : keepDeleteKeep.toOption.any
      (fun r => decide (r.2.2 = fail .executionCheckpointUnavailable)) = true := by decide +kernel
  obtain ⟨⟨kept,dropped,again⟩,hrun,hagain⟩ := exists_of_toOption_any heval
  simp only [keepDeleteKeep,bind_eq_ok,Except.ok.injEq,Prod.mk.injEq] at hrun
  obtain ⟨⟨kept',receipt⟩,hkept,⟨dropped',receipt'⟩,hdropped,rfl,rfl,rfl⟩ := hrun
  refine ⟨kept',dropped',receipt,receipt',hkept,hdropped,?_⟩
  have herr := of_decide_eq_true hagain
  cases hlast : retainExecution sampleChecks (fun _ => ⟨1⟩) dropped' keepHead with
  | error err =>
    rw [hlast] at herr
    cases herr
    rfl
  | ok r =>
    rw [hlast] at herr
    cases herr

/-- A request that succeeded is refused when it is repeated, with no write and no lease in between:
another request has deleted the payload. -/
theorem repeated_request_refused :
    ∃ tr s kept receipt tr' dropped, (store sampleChecks).Run tr s ∧
      retainExecution sampleChecks (fun _ => ⟨1⟩) s keepHead = .ok (kept,receipt) ∧
      (store sampleChecks).Steps kept tr' dropped ∧ writes (events tr') keepHead.executionID = 0 ∧
      dropped.leased keepHead.executionID ⟨1⟩ = false ∧
      retainExecution sampleChecks (fun _ => ⟨1⟩) dropped keepHead =
        fail .executionCheckpointUnavailable := by
  obtain ⟨tr,hrun⟩ := completedStore_run
  obtain ⟨kept,dropped,receipt,receipt',hkept,hdropped,hagain⟩ := keepDeleteKeep_eq
  have hstep : (store sampleChecks).step (fun _ => ⟨1⟩) (.retain deleteHead) kept =
      (dropped,.ok (.retained receipt')) := by
    simp only [store,step,hdropped,transact]
  have hsteps := Store.Steps.step (fun _ => ⟨1⟩) (.retain deleteHead)
    (Store.Steps.refl : (store sampleChecks).Steps kept [] kept)
  rw [hstep] at hsteps
  refine ⟨tr,completedStore,kept,receipt,_,dropped,hrun,hkept,hsteps,rfl,?_,hagain⟩
  have haccept := (retainExecution_iff.mp hdropped).1
  have hleases : dropped.leases = kept.leases := by
    obtain ⟨-,⟨-,-,rfl,-⟩ | ⟨-,rfl,-⟩⟩ := retainExecution_iff.mp hdropped <;> rfl
  have hfree : kept.leased (ascii "x") ⟨1⟩ = false := haccept.unleased
  rw [MemoryStore.leased,MemoryStore.lease] at hfree ⊢
  rw [hleases]
  exact hfree

/-- The deleted name is taken: a fork into it finds its checkpoint unavailable. -/
theorem retention_keeps_authority_deleted :
    ∃ kept dropped receipt, retainExecution sampleChecks (fun _ => ⟨1⟩) kept deleteHead =
        .ok (dropped,receipt) ∧
      forkTargetAbsent dropped (ascii "x") = fail .executionCheckpointUnavailable := by
  obtain ⟨tr,hrun⟩ := completedStore_run
  obtain ⟨kept,dropped,receipt,receipt',hkept,hdropped,-⟩ := keepDeleteKeep_eq
  obtain ⟨tr',hrun'⟩ := retainExecution_run hrun hkept
  have hdeleted := (retention_keeps_authority sampleChecks).deleted tr' kept hrun' _ _ _ _ hdropped rfl
    [] dropped .refl
  exact ⟨kept,dropped,receipt',hdropped,hdeleted.2.2.2.2⟩

end Example
end Flowy.Memory
