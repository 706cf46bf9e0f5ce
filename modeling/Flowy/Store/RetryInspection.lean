import Flowy.Activity.NextAttempt
import Flowy.MigratedTarget
import Flowy.Store.Candidates

/-! Inspection of pending retries against the runtime: the listed records are those that a call with the
same request can start again, each from its deadline on. -/
namespace Flowy.Postgres

open Json

section Calls

variable [Sealing] {C W : Type}

/-- `forkActivityRequest`: a fake fork replaces the callbacks, a live one authorizes each of them. -/
def forkActivityRequest (fork : Option ForkLineage) (policy : Option ForkExecutionPolicy)
    (request : ActivityRequest) : Result ActivityRequest := do
  if ForkLineage.isFake fork then
    require (policy.any fun p => p.fakes) .forkPolicy
    .ok { request with reconcile := false, classify := false }
  else .ok request

structure ActivityRequest.Fits (request : ActivityRequest) (record : ActivityRecord) : Prop where
  key : request.key = record.key
  input : Sha256.sum request.input = record.inputDigest
  implementation : request.implementation = record.implementation
  retry : request.retry = record.retry

/-- A call at time `t` commits a further attempt of the record `identity`. -/
def CommitsRetry (incarnation : Nat) (envelope : ExecutionEnvelope Journal C W)
    (policy : Option ForkExecutionPolicy) (identity : Text) (request : ActivityRequest) (t : Time) : Prop :=
  ∃ request' journal record target, forkActivityRequest envelope.fork policy request = .ok request' ∧
    callActivity incarnation envelope request' t = .start journal record ∧ record.identity = identity ∧
    record.attempts ≠ [] ∧ persistActivity envelope journal (startAttempt incarnation t record) = .ok target

omit [Sealing] in
theorem preparedActivityError_none_iff {record : ActivityRecord} {t : Time} (hne : record.attempts ≠ []) :
    preparedActivityError record t = none ↔ record.state = .prepared ∧
      (record.attempts.length : Int) < record.retry.maxAttempts ∧ record.retry.safeRetryContract ≠ [] ∧
      record.nextAttemptAt.isZero = false ∧ t.before record.nextAttemptAt = false := by
  unfold preparedActivityError
  cases hs : record.state with
  | prepared =>
    simp only [reduceCtorEq,if_false,not_true_eq_false,ne_eq,if_neg hne]
    split
    · rename_i hbad
      simp only [Bool.or_eq_true,decide_eq_true_eq,beq_iff_eq] at hbad
      simp only [reduceCtorEq,false_iff]
      rintro ⟨-,hroom,hcontract,hzero,-⟩
      rcases hbad with (hbad | hbad) | hbad
      · omega
      · exact hcontract hbad
      · rw [hzero] at hbad
        cases hbad
    · rename_i hgood
      simp only [Bool.or_eq_true,decide_eq_true_eq,beq_iff_eq,not_or,Bool.not_eq_true] at hgood
      obtain ⟨⟨hroom,hcontract⟩,hzero⟩ := hgood
      split
      · rename_i hearly
        simp [hearly]
      · rename_i hdue
        simp only [true_and,true_iff]
        exact ⟨by omega,hcontract,hzero,Bool.eq_false_iff.mpr hdue⟩
  | running | completed | failed | unknown => simp

variable {e : ExecutionEnvelope Journal C W} {record : ActivityRecord} {request : ActivityRequest}
  {identity : Text} {i : Nat} {t : Time}

theorem callActivity_start {journal : Journal} (h : callActivity i e request t = .start journal record) :
    preparedActivityError record t = none := by
  unfold callActivity at h
  split at h
  · cases h
  · split at h
    · cases h
    · split at h
      · cases h
      split at h
      · cases h
      split at h
      · unfold recoverActivity at h
        split at h
        · split at h
          · cases h
          · split at h <;> cases h
        · split at h <;> cases h
      · split at h
        · cases h
        · rename_i hready
          cases h
          exact hready

theorem callActivity_of_ready (hadm : AdmittedJournal e) (hr : e.journal.get? identity = some record)
    (hfits : ActivityRequest.Fits request record) (hs : record.state = .prepared)
    (hready : preparedActivityError record t = none) :
    callActivity i e request t = .start e.journal record := by
  have hbound : boundActivityIdentity e request.key = identity := by
    rw [hfits.key]
    exact (hadm.bound identity record hr (by simp [activityUnresolved,hs])).2
  simp [callActivity,executionActivityJournal_iff.mpr ⟨rfl,hadm⟩,hbound,hr,hfits.input,hfits.implementation,
    hfits.retry,hs,hready]

theorem persistActivity_of_valid (hmarshal : ∀ id r, e.journal.get? id = some r → r.marshals = true)
    (hv : validActivityRecord record = true) (hm : record.marshals = true) :
    ∃ target, persistActivity e e.journal record = .ok target := by
  have hall : (e.journal.set record.identity record).all (fun _ r => r.marshals) = true := by
    rw [GoMap.all_iff]
    intro id r hr
    rw [GoMap.get?_set] at hr
    split at hr
    · cases hr
      exact hm
    · exact hmarshal id r hr
  simp only [persistActivity,validateActivityRecord,hv,require,if_true,marshalJournal,hall,bind,Except.bind]
  exact ⟨_,rfl⟩

omit [Sealing] in
theorem startAttempt_marshals (h : record.marshals = true) (ht : t.inYears1To9999 = true) :
    (startAttempt i t record).marshals = true := by
  have hnow : t.marshals = true := by
    simp only [Time.inYears1To9999,Time.marshals,Bool.and_eq_true,decide_eq_true_eq] at ht ⊢
    have hyear : (0 : Int) ≤ 366 * CivilTime.nsPerDay := by decide
    exact ⟨by omega,ht.2⟩
  have hzero : Time.zero.marshals = true := by decide
  simp only [ActivityRecord.marshals,Bool.and_eq_true] at h ⊢
  simp only [startAttempt,List.all_append,List.all_cons,List.all_nil,hnow,hzero,Option.all_none,Bool.and_true]
  exact ⟨⟨trivial,h.1.2⟩,h.2⟩

structure AwaitsRetry (e : ExecutionEnvelope Journal C W) (record : ActivityRecord) : Prop where
  activation : record.activation = e.activation
  state : record.state = .prepared
  attempted : record.attempts ≠ []
  scheduled : record.nextAttemptAt.isZero = false
  room : (record.attempts.length : Int) < record.retry.maxAttempts
  contract : record.retry.safeRetryContract ≠ []

/-- The two conditions agree: what the runtime starts again is what the inspection lists. -/
theorem commitsRetry_iff (hadm : AdmittedJournal e) (hfork : e.fork = none)
    (hmarshal : ∀ id r, e.journal.get? id = some r → r.marshals = true)
    (hr : e.journal.get? identity = some record) (hfits : ActivityRequest.Fits request record) (hi : i ≠ 0)
    (ht : t.inYears1To9999 = true) (policy : Option ForkExecutionPolicy) :
    CommitsRetry i e policy identity request t ↔
      AwaitsRetry e record ∧ t.before record.nextAttemptAt = false := by
  have hrequest : forkActivityRequest e.fork policy request = .ok request := by
    rw [hfork]
    rfl
  constructor
  · rintro ⟨request',journal,record',target,hfork',hcall,hid,hne,-⟩
    rw [hrequest] at hfork'
    cases hfork'
    have hfound := (callActivity_found i e request t).1
    rw [hcall] at hfound
    have hsame := hfound.2.1
    rw [hid,hr] at hsame
    cases hsame
    obtain ⟨hs,hroom,hcontract,hzero,hdue⟩ := (preparedActivityError_none_iff hne).mp (callActivity_start hcall)
    exact ⟨⟨(hadm.bound identity record hr (by simp [activityUnresolved,hs])).1,hs,hne,hzero,hroom,hcontract⟩,hdue⟩
  · rintro ⟨h,hdue⟩
    have hready : preparedActivityError record t = none :=
      (preparedActivityError_none_iff h.attempted).mpr ⟨h.state,h.room,h.contract,h.scheduled,hdue⟩
    obtain ⟨target,htarget⟩ := persistActivity_of_valid hmarshal
      (startAttempt_valid (hadm.valid identity record hr) h.state h.attempted hi hdue)
      (startAttempt_marshals (i := i) (hmarshal identity record hr) ht)
    exact ⟨request,e.journal,record,target,hrequest,callActivity_of_ready hadm hr hfits h.state hready,
      hadm.keyed identity record hr,h.attempted,htarget⟩

end Calls

section Inspected

variable [Sealing] {payloads : PayloadCodec} {x : SealedEnvelope}

def PayloadCodec.Writable (payloads : PayloadCodec) : Prop :=
  ∀ payload journal, payloads.readJournal payload = .ok journal →
    ∀ id (r : ActivityRecord), journal.get? id = some r → r.marshals = true

structure Inspectable (payloads : PayloadCodec) (x : SealedEnvelope) : Prop where
  integrity : validateExecutionIntegrity x x.envelope.executionID x.envelope.revision = .ok ()
  descriptor : x.envelope.descriptor.validate = .ok ()
  collections : payloads.validateExecutionCollections x.envelope = .ok ()
  metadata : validateExecutionSourceMetadata x.envelope = .ok ()

/-- The inspection foretells what a call with the request of a record does at any time `t`. -/
structure PredictsDispatch (x : SealedEnvelope) (journal : Journal) (retries : List PendingActivityRetry) :
    Prop where
  ascending : retries.Pairwise fun q q' => q.identity < q'.identity
  /-- Every entry describes a record of the journal. -/
  entries : ∀ q ∈ retries, ∃ record, journal.get? q.identity = some record ∧
    q = pendingRetry x.envelope q.identity record
  exact : ∀ identity record, journal.get? identity = some record → ∀ request,
    ActivityRequest.Fits request record → ∀ i ≠ 0, ∀ policy,
      ((∃ q ∈ retries, q.identity = identity) ↔ ∃ t : Time, t.inYears1To9999 = true ∧
        CommitsRetry i (RawEnvelope.withJournal x.envelope journal) policy identity request t)
  ready : ∀ q ∈ retries, ∀ record, journal.get? q.identity = some record → ∀ request,
    ActivityRequest.Fits request record → ∀ i ≠ 0, ∀ policy, ∀ t : Time, t.inYears1To9999 = true →
      (CommitsRetry i (RawEnvelope.withJournal x.envelope journal) policy q.identity request t ↔
        t.before q.deadline = false)

omit [Sealing] in
theorem retryPending_iff (journal : Journal) {record : ActivityRecord} :
    retryPending x.envelope record = true ↔ AwaitsRetry (RawEnvelope.withJournal x.envelope journal) record := by
  simp only [retryPending,Bool.and_eq_true,beq_iff_eq,Bool.not_eq_true',List.isEmpty_eq_false_iff,
    decide_eq_true_eq,bne_iff_ne]
  exact ⟨fun ⟨⟨⟨⟨⟨h1,h2⟩,h3⟩,h4⟩,h5⟩,h6⟩ => ⟨h1,h2,h3,h4,h5,h6⟩,
    fun h => ⟨⟨⟨⟨⟨h.activation,h.state⟩,h.attempted⟩,h.scheduled⟩,h.room⟩,h.contract⟩⟩

theorem inspection_predicts_dispatch (hcodec : PayloadCodec.Writable payloads) (h : Inspectable payloads x)
    (hterminal : x.envelope.terminal = none) (hfork : x.envelope.fork = none) :
    ∃ journal retries, payloads.readJournal x.envelope.journal = .ok journal ∧
      inspectPendingActivityRetries payloads x = .ok retries ∧ PredictsDispatch x journal retries := by
  have hcollections := h.collections
  simp only [PayloadCodec.validateExecutionCollections,bind_eq_ok] at hcollections
  obtain ⟨-,-,-,-,journal,hread,journal',hjournal,-⟩ := hcollections
  obtain ⟨hsame,hadm⟩ := executionActivityJournal_iff.mp hjournal
  obtain rfl : journal = journal' := hsame.symm
  have hmarshal := hcodec _ _ hread
  let listed := ((sortedEntries journal).filter fun e => retryPending x.envelope e.2).map fun e =>
    pendingRetry x.envelope e.1 e.2
  have hlisted : ∀ q, q ∈ listed ↔ ∃ record, journal.get? q.identity = some record ∧
      retryPending x.envelope record = true ∧ q = pendingRetry x.envelope q.identity record := by
    intro q
    constructor
    · intro hq
      obtain ⟨⟨identity,record⟩,he,rfl⟩ := List.mem_map.mp hq
      obtain ⟨hmem,hpending⟩ := List.mem_filter.mp he
      exact ⟨record,(mem_sortedEntries journal _).mp hmem,hpending,rfl⟩
    · rintro ⟨record,hr,hpending,hq⟩
      exact List.mem_map.mpr ⟨⟨q.identity,record⟩,
        List.mem_filter.mpr ⟨(mem_sortedEntries journal ⟨q.identity,record⟩).mpr hr,hpending⟩,hq.symm⟩
  refine ⟨journal,listed,hread,?_,?_,?_,?_,?_⟩
  · simp only [inspectPendingActivityRetries,h.integrity,h.descriptor,h.collections,h.metadata,hterminal,hread,
      hjournal,bind,Except.bind,Option.isSome_none,Bool.false_eq_true,if_false]
    rfl
  · exact List.pairwise_map.mpr ((sortedEntries_ascending journal).filter _)
  · intro q hq
    obtain ⟨record,hr,-,heq⟩ := (hlisted q).mp hq
    exact ⟨record,hr,heq⟩
  · intro identity record hr request hfits i hi policy
    constructor
    · rintro ⟨q,hq,rfl⟩
      obtain ⟨record',hr',hpending,-⟩ := (hlisted q).mp hq
      rw [hr] at hr'
      cases hr'
      have hwaits := (retryPending_iff journal).mp hpending
      -- the deadline itself is a time at which the attempt starts
      have htime := (ValidRecord.of_valid (hadm.valid _ record hr)).nextAttemptAt_valid hwaits.state hwaits.scheduled
      have hyears : record.nextAttemptAt.inYears1To9999 = true := by
        simp only [activityScheduleTimeValid,Bool.and_eq_true] at htime
        exact htime.2
      exact ⟨record.nextAttemptAt,hyears,(commitsRetry_iff hadm hfork hmarshal hr hfits hi hyears policy).mpr
        ⟨hwaits,by simp [Time.before]⟩⟩
    · rintro ⟨t,ht,hcommits⟩
      have hwaits := ((commitsRetry_iff hadm hfork hmarshal hr hfits hi ht policy).mp hcommits).1
      exact ⟨pendingRetry x.envelope identity record,
        (hlisted _).mpr ⟨record,hr,(retryPending_iff journal).mpr hwaits,rfl⟩,rfl⟩
  · intro q hq record hr request hfits i hi policy t ht
    obtain ⟨record',hr',hpending,heq⟩ := (hlisted q).mp hq
    rw [hr] at hr'
    cases hr'
    have hwaits := (retryPending_iff journal).mp hpending
    rw [commitsRetry_iff hadm hfork hmarshal hr hfits hi ht policy,heq]
    exact ⟨fun h => h.2,fun hdue => ⟨hwaits,hdue⟩⟩

end Inspected

section Example

attribute [local instance] Sealing.hex

def retriedRecord : ActivityRecord :=
  recordActivityFailure (startAttempt 1 ⟨1⟩ (prepareActivity startedExecution sampleRequest))
    (.of .activityFailed) ⟨.retryable,.zero⟩ ⟨2⟩ none

def retriedJournal : Journal := GoMap.set ∅ retriedRecord.identity retriedRecord

def retriedPayloads : PayloadCodec := samplePayloads [retriedJournal] []

def retriedEnvelope : Result SealedEnvelope :=
  sealExecutionEnvelope { preparedStart retriedJournal with revision := 1 }

theorem retriedPayloads_writable : PayloadCodec.Writable retriedPayloads := by
  intro payload journal hread id r hr
  simp only [PayloadCodec.readJournal,retriedPayloads,samplePayloads] at hread
  split at hread
  · cases hread
    cases hr
  · obtain rfl := List.mem_singleton.mp (readKnown_eq_ok hread).1
    have hall : retriedJournal.all (fun _ r => r.marshals) = true := by decide +kernel
    exact (GoMap.all_iff _ _).mp hall id r hr

theorem inspection_predicts_dispatch_once : ∃ x retries, retriedEnvelope = .ok x ∧
    inspectPendingActivityRetries retriedPayloads x = .ok retries ∧
    retries.map (fun q => (q.attempts,q.deadline)) = [(1,retriedRecord.nextAttemptAt)] ∧
    PredictsDispatch x retriedJournal retries := by
  have heval : retriedEnvelope.toOption.any (fun x =>
      (validateExecutionIntegrity x x.envelope.executionID x.envelope.revision).isOk &&
        x.envelope.descriptor.validate.isOk &&
        (retriedPayloads.validateExecutionCollections x.envelope).isOk &&
        (validateExecutionSourceMetadata x.envelope).isOk && x.envelope.terminal.isNone &&
        x.envelope.fork.isNone && x.envelope.journal == journalText retriedJournal &&
        (inspectPendingActivityRetries retriedPayloads x).toOption.any fun retries =>
          retries.map (fun q => (q.attempts,q.deadline)) == [(1,retriedRecord.nextAttemptAt)]) = true := by
    decide +kernel
  obtain ⟨x,hx,hcheck⟩ := exists_of_toOption_any heval
  simp only [Bool.and_eq_true,Option.isNone_iff_eq_none,beq_iff_eq] at hcheck
  obtain ⟨⟨⟨⟨⟨⟨⟨h1,h2⟩,h3⟩,h4⟩,hterminal⟩,hfork⟩,hjournal⟩,hlisted⟩ := hcheck
  obtain ⟨listed,hlist,hshape⟩ := exists_of_toOption_any hlisted
  obtain ⟨journal,retries,hread,hinspect,hpredicts⟩ := inspection_predicts_dispatch retriedPayloads_writable
    ⟨isOk_iff.mp h1,isOk_iff.mp h2,isOk_iff.mp h3,isOk_iff.mp h4⟩ hterminal hfork
  rw [hinspect] at hlist
  cases hlist
  rw [hjournal] at hread
  have hknown : retriedPayloads.readJournal (journalText retriedJournal) = .ok retriedJournal := by
    decide +kernel
  cases hknown.symm.trans hread
  exact ⟨x,listed,hx,hinspect,beq_iff_eq.mp hshape,hpredicts⟩

end Example
end Flowy.Postgres
