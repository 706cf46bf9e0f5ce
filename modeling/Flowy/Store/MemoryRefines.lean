import Flowy.Store.Memory

/-! Every operation of the in-memory store is a step of the leased history. -/
namespace Flowy.Memory

open Leased

section Views

variable {s : MemoryStore}

theorem getD_set {V : Type} (m : GoMap Text V) (id : Text) (v d : V) :
    (fun i => ((m.set id v).get? i).getD d) = Function.update (fun i => (m.get? i).getD d) id v := by
  funext i
  rw [GoMap.get?_set]
  by_cases h : i = id
  · subst h
    simp
  · rw [if_neg h,Function.update_of_ne h]

theorem view_lease_set (m : GoMap Text ExecutionLease) (id : Text) (l : ExecutionLease) :
    (fun i => ((m.set id l).get? i).map fun l => (⟨l.owner,l.incarnation,l.expiresAt⟩ : Lease Text Time)) =
      Function.update (fun i => (m.get? i).map fun l => ⟨l.owner,l.incarnation,l.expiresAt⟩) id
        (some ⟨l.owner,l.incarnation,l.expiresAt⟩) := by
  funext i
  rw [GoMap.get?_set]
  by_cases h : i = id
  · subst h
    simp
  · rw [if_neg h,Function.update_of_ne h]

def documents (h : GoMap Text (GoMap Nat SealedEnvelope)) (id : Text) (r : Nat) : Option SealedEnvelope :=
  ((h.get? id).getD ∅).get? r

theorem documents_set (h : GoMap Text (GoMap Nat SealedEnvelope)) (id : Text)
    (items : GoMap Nat SealedEnvelope) :
    documents (h.set id items) = Function.update (documents h) id items.get? := by
  funext i r
  unfold documents
  rw [GoMap.get?_set]
  by_cases hi : i = id
  · subst hi
    simp
  · rw [if_neg hi,Function.update_of_ne hi]

theorem get?_set_eq_update (items : GoMap Nat SealedEnvelope) (r : Nat) (x : SealedEnvelope) :
    (items.set r x).get? = Function.update items.get? r (some x) := by
  funext n
  rw [GoMap.get?_set]
  by_cases hn : n = r
  · subst hn
    simp
  · rw [if_neg hn,Function.update_of_ne hn]

theorem documents_add (s : MemoryStore) (id : Text) (r : Nat) (x : SealedEnvelope) :
    documents (s.history.set id ((s.items id).set r x)) = setHistory (documents s.history) id r x := by
  rw [documents_set,get?_set_eq_update]
  rfl

theorem held_lease {lease : ExecutionLease} {now : Time} (h : s.held lease now = true) :
    ∃ l, (view s).lease lease.executionID = some l ∧ l.owner = lease.owner ∧
      l.incarnation = lease.incarnation ∧ now < l.expiry := by
  simp only [MemoryStore.held,Bool.and_eq_true,bne_iff_ne,beq_iff_eq] at h
  obtain ⟨⟨⟨hne,howner⟩,hinc⟩,hlive⟩ := h
  unfold MemoryStore.lease at howner hinc hlive
  cases hl : s.leases.get? lease.executionID with
  | none =>
    rw [hl] at hinc
    exact absurd hinc.symm hne
  | some current =>
    rw [hl] at howner hinc hlive
    exact ⟨⟨current.owner,current.incarnation,current.expiresAt⟩,by simp [view,hl],howner,hinc,
      (Time.after_iff _ _).mp hlive⟩

end Views

section Refinement

variable {checks : PayloadChecks} {clock : Nat → Time} {s s' : MemoryStore}

theorem acquireExecution_step {id owner : Text} {ttl : Duration} {l : ExecutionLease}
    (h : acquireExecution clock s id owner ttl = .ok (s',l)) :
    Leased.Step (clock 0) (view s) (.acquired id owner l.incarnation) (view s') := by
  unfold acquireExecution at h
  split at h
  · cases h
  split at h
  · cases h
  rename_i hfree
  split at h
  · cases h
  cases h
  have hview : view { s with
      fences := s.fences.set id (s.fence id + 1)
      leases := s.leases.set id ⟨id,owner,s.fence id + 1,(clock 1).add ttl⟩ } =
      { view s with
        fence := Function.update (view s).fence id (s.fence id + 1)
        lease := Function.update (view s).lease id (some ⟨owner,s.fence id + 1,(clock 1).add ttl⟩) } :=
    State.ext (getD_set s.fences id (s.fence id + 1) 0)
      (view_lease_set s.leases id ⟨id,owner,s.fence id + 1,(clock 1).add ttl⟩) rfl rfl
  rw [hview]
  refine Leased.Step.acquire (s := view s) id owner ((clock 1).add ttl) ?_
  · intro l hl hlive
    cases hr : s.leases.get? id with
    | none => simp [view,hr] at hl
    | some current =>
      simp only [view,hr,Option.map_some,Option.some.injEq] at hl
      subst hl
      simp only [MemoryStore.lease,hr,Option.getD_some] at hfree
      exact hfree ((Time.after_iff _ _).mpr hlive)

theorem renewExecution_step {lease l : ExecutionLease} {ttl : Duration}
    (h : renewExecution clock s lease ttl = .ok (s',l)) :
    Leased.Step (clock 0) (view s) (.renewed lease.executionID lease.owner lease.incarnation) (view s') := by
  unfold renewExecution at h
  split at h
  · cases h
  simp only [bind_eq_ok,require_eq_ok,exists_const] at h
  obtain ⟨hheld,h⟩ := h
  cases h
  obtain ⟨l,hl,howner,hinc,hlive⟩ := held_lease hheld
  have hstep := Leased.Step.renew (P := SealedEnvelope) lease.executionID l
    ((clock 1).add ttl) hl hlive
  have hset := view_lease_set s.leases lease.executionID { lease with expiresAt := (clock 1).add ttl }
  rw [howner,hinc] at hstep
  convert hstep using 1
  exact State.ext rfl hset rfl rfl

theorem releaseExecution_step {lease : ExecutionLease} {u : Unit}
    (h : releaseExecution s lease = .ok (s',u)) :
    Leased.Step (clock 0) (view s) (.released lease.executionID lease.owner lease.incarnation) (view s') := by
  unfold releaseExecution at h
  cases hl : s.leases.get? lease.executionID with
  | none =>
    simp only [hl] at h
    split at h
    · cases h
      have hnone : (view s).lease lease.executionID = none := by simp [view,hl]
      have hstep : Leased.Step (clock 0) (view s)
          (.released lease.executionID lease.owner lease.incarnation) _ :=
        .release _ _ _ fun l hl' => by rw [hnone] at hl'; cases hl'
      rwa [← hnone,Function.update_eq_self] at hstep
    · cases h
  | some current =>
    simp only [hl] at h
    split at h
    · cases h
    · rename_i hown
      cases h
      simp only [Bool.or_eq_true,bne_iff_ne,not_or,not_not] at hown
      have hstep : Leased.Step (clock 0) (view s)
          (.released lease.executionID lease.owner lease.incarnation) _ :=
        .release _ _ _ fun l hl' => by
          simp only [view,hl,Option.map_some,Option.some.injEq] at hl'
          subst hl'
          exact hown
      convert hstep using 1
      refine State.ext rfl ?_ rfl rfl
      funext i
      change ((s.leases.delete lease.executionID).get? i).map _ =
        Function.update (view s).lease lease.executionID none i
      rw [GoMap.get?_delete]
      by_cases hi : i = lease.executionID
      · subst hi
        simp
      · rw [if_neg hi,Function.update_of_ne hi]
        rfl

variable [Sealing]

theorem commitExecution_step {expected : Nat} {lease : ExecutionLease} {e : RawEnvelope}
    {y : SealedEnvelope} (h : commitExecution clock s expected lease e = .ok (s',y)) :
    Leased.Step (clock 0) (view s) (.committed lease.executionID lease.owner lease.incarnation) (view s') := by
  simp only [commitExecution,bind_eq_ok,require_eq_ok,exists_const,Bool.and_eq_true,beq_iff_eq,
    Except.ok.injEq,Prod.mk.injEq] at h
  obtain ⟨-,⟨hheld,hname⟩,-,-,-,hhead,-,-,-,-,-,-,x,hseal,-,-,-,-,rfl,-⟩ := h
  have hx : x.envelope.revision = expected + 1 := by
    rw [(sealExecutionEnvelope_eq_ok hseal).envelope]
  have hhead' : (view s).head lease.executionID = expected := hname ▸ hhead
  obtain ⟨l,hl,howner,hinc,hlive⟩ := held_lease hheld
  have hstep := Leased.Step.commit lease.executionID l x hl hlive
  rw [howner,hinc,hhead'] at hstep
  convert hstep using 1
  rw [hx,hname]
  exact State.ext rfl rfl (getD_set s.heads lease.executionID (expected + 1) 0)
    (documents_add s lease.executionID (expected + 1) x)

theorem decodeAnchoredExecution_address {data : Option SealedEnvelope} {id : Text} {revision : Nat}
    {x : SealedEnvelope} (h : decodeAnchoredExecution s data id revision = .ok x) :
    x.envelope.executionID = id ∧ x.envelope.revision = revision := by
  cases data with
  | none => cases h
  | some document =>
    simp only [decodeAnchoredExecution,decodeExecution,bind_eq_ok,Except.ok.injEq] at h
    obtain ⟨y,⟨u,hint,rfl⟩,-,-,-,-,rfl⟩ := h
    exact validateExecutionIntegrity_address hint

/-- The target's whole map is replaced; nothing is lost because an unused name has no history. -/
theorem commitRollover_step {lease : ExecutionLease} {source : HistoricalCheckpointReference}
    {target : SealedEnvelope} {receipt : RolloverReceipt}
    (hstored : ∀ id r p, (view s).history id r = some p → 0 < r ∧ r ≤ (view s).head id)
    (h : commitRollover checks clock s lease source target = .ok (s',receipt)) :
    Leased.Step (clock 0) (view s) (.transferred lease.executionID lease.owner lease.incarnation
      target.envelope.executionID) (view s') := by
  simp only [commitRollover,bind_eq_ok,require_eq_ok,exists_const,Bool.and_eq_true,beq_iff_eq,
    Except.ok.injEq] at h
  obtain ⟨⟨hheld,hname⟩,-,hhead,-,current,hload,-,⟨hunused,-⟩,⟨transferred,created,receipt'⟩,hpub,h⟩ := h
  simp only [Prod.mk.injEq] at h
  obtain ⟨-,-,-,-,rfl,-⟩ := h
  obtain ⟨-,hpair⟩ := prepareExecutionRolloverPublication_eq_ok hpub
  obtain ⟨hcid,hcrev⟩ := decodeAnchoredExecution_address hload
  have hne : target.envelope.executionID ≠ lease.executionID := by
    rw [hname,← hcid]
    exact hpair.facts.apart
  have hhead' : (view s).head lease.executionID = source.revision := hname ▸ hhead
  obtain ⟨l,hl,howner,hinc,hlive⟩ := held_lease hheld
  have hstep := Leased.Step.transfer lease.executionID target.envelope.executionID l
    transferred created hl hlive hne hunused
  rw [howner,hinc,hhead'] at hstep
  convert hstep using 1
  rw [hpair.created_envelope,hpair.transferred_envelope,hcrev,← hname]
  have hnone : ∀ r, documents s.history target.envelope.executionID r = none := by
    intro r
    cases hd : documents s.history target.envelope.executionID r with
    | none => rfl
    | some p =>
      have hr := hstored _ r p hd
      have hzero : (view s).head target.envelope.executionID = 0 := hunused
      omega
  refine State.ext rfl rfl ?_ ?_
  · have h1 := getD_set (s.heads.set lease.executionID (source.revision + 1))
      target.envelope.executionID 1 0
    have h2 := getD_set s.heads lease.executionID (source.revision + 1) 0
    exact h1.trans (congrArg (fun f => Function.update f target.envelope.executionID 1) h2)
  · change documents ((s.history.set lease.executionID
      ((s.items lease.executionID).set (source.revision + 1) transferred)).set
        target.envelope.executionID ((∅ : GoMap Nat SealedEnvelope).set 1 created)) =
      setHistory (setHistory (documents s.history) lease.executionID (source.revision + 1) transferred)
        target.envelope.executionID 1 created
    rw [documents_set,documents_add,get?_set_eq_update]
    unfold setHistory
    rw [Function.update_of_ne hne,funext hnone]
    rfl

theorem retainExecution_step {request : ExecutionRetentionRequest} {receipt : ExecutionRetentionReceipt}
    (h : retainExecution checks clock s request = .ok (s',receipt)) :
    Leased.Step (clock 0) (view s) (.retained request.executionID) (view s') := by
  simp only [retainExecution,bind_eq_ok,require_eq_ok,exists_const] at h
  obtain ⟨-,-,-,-,-,h⟩ := h
  split at h
  · split at h
    · cases h
      have hstep : Leased.Step (clock 0) (view s) (.retained request.executionID) _ :=
        .retain _ fun _ => true
      simpa using hstep
    · cases h
  · simp only [bind_eq_ok,require_eq_ok,exists_const,Except.ok.injEq,Prod.mk.injEq] at h
    obtain ⟨-,-,-,-,-,-,-,rfl,-⟩ := h
    have hstep : Leased.Step (clock 0) (view s) (.retained request.executionID) _ :=
      .retain _ (executionRevisionRetained request)
    convert hstep using 1
    refine State.ext rfl rfl rfl ?_
    change documents (s.history.set request.executionID ((s.items request.executionID).filter
      fun r _ => executionRevisionRetained request r)) = Function.update (documents s.history)
        request.executionID fun r => if executionRevisionRetained request r then
          documents s.history request.executionID r else none
    rw [documents_set]
    congr 1
    funext r
    exact GoMap.get?_filter_key _ (executionRevisionRetained request) r

theorem step_refines (hstored : ∀ id r p, (view s).history id r = some p → 0 < r ∧ r ≤ (view s).head id)
    (op : StoreOp) :
    Leased.Step (clock 0) (view s) (op.event (step checks clock s op).2) (view (step checks clock s op).1) := by
  cases op with
  | acquire id owner ttl =>
    simp only [step]
    cases h : acquireExecution clock s id owner ttl with
    | error err => exact .refuse
    | ok r => exact acquireExecution_step h
  | renew lease ttl =>
    simp only [step]
    cases h : renewExecution clock s lease ttl with
    | error err => exact .refuse
    | ok r => exact renewExecution_step h
  | release lease =>
    simp only [step]
    cases h : releaseExecution s lease with
    | error err => exact .refuse
    | ok r => exact releaseExecution_step h
  | commit expected lease e =>
    simp only [step]
    cases h : commitExecution clock s expected lease e with
    | error err => exact .refuse
    | ok r => exact commitExecution_step h
  | rollover lease source target =>
    simp only [step]
    cases h : commitRollover checks clock s lease source target with
    | error err => exact .refuse
    | ok r => exact commitRollover_step hstored h
  | retain request =>
    simp only [step]
    cases h : retainExecution checks clock s request with
    | error err => exact .refuse
    | ok r => exact retainExecution_step h

end Refinement
end Flowy.Memory
