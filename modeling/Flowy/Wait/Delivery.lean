import Flowy.Checkpoint
import Flowy.Lifecycle

/-! Deliveries to a wait and its cancellation. Each loads the execution under a lease of its own,
arbitrates on one record and commits at most one successor. -/
namespace Flowy

/-- What the decision operations read of their runner; `backend` is what the store can do as a wait
backend, if it is one. -/
structure WaitRunner where
  descriptor : ExecutionDescriptor
  backend : Option WaitCapabilityProfile
  waitProfile : Option WaitCapabilityProfile
  hasNode : ExecutionPointer → Bool

/-- Pure host work of a delivery. -/
structure WaitDeliveryContract (T : Type) where
  matcherLabel : Text
  payloadCodec : Text
  continuationLabel : Text
  matchPayload : Option (Bytes → Result Bool)
  apply : Option (T → WaitDelivery → Result T)

structure ResumeToken where
  threadID : Text
  snapshotRevision : Nat
deriving DecidableEq, Repr

section Checks

def WaitDeliveryContract.check {T : Type} (contract : WaitDeliveryContract T) (spec : DurableWaitSpec) :
    Result Unit :=
  require (contract.matcherLabel == spec.matcherLabel && contract.payloadCodec == spec.payloadCodec &&
    contract.continuationLabel == spec.continuationLabel) .executionIncompatible

/-- The profile is the runner's own and the backend still has it. -/
def WaitRunner.provides (r : WaitRunner) (profile : WaitCapabilityProfile) : Bool :=
  r.waitProfile == some profile && r.backend == some profile

def WaitRunner.checkRuntimeProfile (r : WaitRunner) (profile : Option WaitCapabilityProfile) :
    Result Unit :=
  require (profile.all r.provides) .executionCapability

def findWaitGeneration (waits : Waits) (generation : Text) : Result (Text × DurableWaitRecord) :=
  if waits.isEmpty then fail .waitNotArmed
  else match waits.entries.find? fun entry => entry.2.generation == generation with
    | some entry => .ok (entry.1,entry.2)
    | none => fail .waitUnknown

theorem findWaitGeneration_eq_ok {waits : Waits} {generation identity : Text}
    {record : DurableWaitRecord} (h : findWaitGeneration waits generation = .ok (identity,record)) :
    waits.get? identity = some record ∧ record.generation = generation := by
  unfold findWaitGeneration at h
  split at h
  · cases h
  split at h
  · rename_i entry hfind
    cases h
    exact ⟨(GoMap.mem_entries_iff _ _ _).mp (List.mem_of_find?_eq_some hfind),
      by simpa using List.find?_some hfind⟩
  · cases h

def WaitDelivery.check (delivery : WaitDelivery) (executionID : Text) : Result Unit :=
  require (executionID != [] && delivery.generation != [] && delivery.id != [] &&
    validRuntimeText [executionID,delivery.generation,delivery.id,delivery.correlationID]) .waitInvalid

def WaitCancellation.check (request : WaitCancellation) (token : ResumeToken) : Result Unit :=
  require (token.threadID != [] && token.snapshotRevision != 0 && request.generation != [] &&
    request.id != [] && validRuntimeText [token.threadID,request.generation,request.id,request.reason,
      request.evidence] && request.reason != [] && request.evidence != []) .waitInvalid

/-- `ValidateExecutionIntegrity` of a loaded envelope. Its digest was checked by the load. -/
def validateLoadedIntegrity (source : Execution) (id : Text) : Result Unit :=
  require (id != [] && source.revision != 0 && source.executionID == id && validRuntimeText [id] &&
    validMigrationText source.progress && source.progress.executionPointer != []) .executionCorrupt

variable [Sha256]

def WaitRunner.waitDeliverySource (r : WaitRunner) (source : Execution) (id generation : Text) :
    Result Waits := do
  validateLoadedIntegrity source id
  let waits ← validateExecutionCollectionsWithWaits source
  validateExecutionSourceMetadata source
  r.checkRuntimeProfile source.runtimeProfile
  let (_,record) ← findWaitGeneration waits generation
  require (r.provides record.profile) .executionCapability
  source.descriptor.check r.descriptor
  require (r.hasNode source.progress.executionPointer) .executionIncompatible
  require (r.hasNode record.spec.eventPointer && r.hasNode record.spec.timeoutPointer)
    .executionIncompatible
  .ok waits

theorem waitDeliverySource_eq_ok {r : WaitRunner} {source : Execution} {id generation : Text}
    {waits : Waits} (h : r.waitDeliverySource source id generation = .ok waits) :
    waits = source.waits ∧ AdmittedWaits source ∧ AdmittedJournal source ∧ AdmittedGroups source ∧
      0 < source.revision ∧ source.executionID = id := by
  simp only [WaitRunner.waitDeliverySource,validateLoadedIntegrity,
    validateExecutionCollectionsWithWaits,bind_eq_ok,require_eq_ok,exists_const,Bool.and_eq_true,bne_iff_ne,beq_iff_eq] at h
  obtain ⟨⟨⟨⟨⟨⟨-,hrev⟩,hid⟩,-⟩,-⟩,-⟩,waits',⟨-,-,journal,hj,groups,hg,hw⟩,_,-,_,-,_,-,-,
    _,-,-,-,hok⟩ := h
  cases hok
  obtain ⟨rfl,hwaits⟩ := executionWaits_iff.mp hw
  exact ⟨rfl,hwaits,(executionActivityJournal_iff.mp hj).2,(executionChildGroups_iff.mp hg).2,
    Nat.pos_of_ne_zero hrev,hid⟩

end Checks

section Deliver

variable [Sha256] {T E : Type}

/-- `prepareWaitDelivery`. A first pass with `matched = false` finds replays and invalid requests
before the host's matcher runs; `ctx k` is the `k`-th look at the context of the session. -/
def prepareWaitDelivery (ctx : Nat → Result Unit) (incarnation : Nat) (now : Time) (source : Execution)
    (record : DurableWaitRecord) (delivery : WaitDelivery) (contract : WaitDeliveryContract T) :
    Result (DurableWaitRecord × WaitDecision × Bool) := do
  let first ← prepareWaitDecision record delivery source.revision incarnation now false
  if first.2.2 = true ∨ record.state ≠ .armed ∨ delivery.kind ≠ .event then .ok first
  else match contract.matchPayload with
    | none => fail .waitInvalid
    | some matcher => do
      ctx 0
      let matched ← matcher delivery.payload
      ctx 1
      prepareWaitDecision record delivery source.revision incarnation now matched

/-- The winner's continuation: a new activation at the pointer of its kind. -/
def continueWait (target : Execution) (spec : DurableWaitSpec) (kind : WaitDeliveryKind)
    (state : Bytes) : Execution :=
  { target with
    activation := target.activation + 1
    progress := { target.progress with
      statePayload := state
      executionPointer := if kind = .timer then spec.timeoutPointer else spec.eventPointer
      journalReferences := ∅
      childGroupReferences := ∅ } }

def applyWaitContinuation (codecs : Codecs T E) (ctx : Nat → Result Unit) (target : Execution)
    (spec : DurableWaitSpec) (delivery : WaitDelivery) (contract : WaitDeliveryContract T) :
    Result Execution :=
  match contract.apply with
  | none => fail .waitInvalid
  | some apply => do
    require (target.activation != maxRevision) .waitInvalid
    ctx 2
    let state ← codecs.unmarshalState target.progress.statePayload
    ctx 3
    let state ← apply state delivery
    ctx 4
    let encoded ← codecs.marshalState state
    .ok (continueWait target spec delivery.kind encoded)

/-- `DeliverWait` under its lease: the decision, and the successor unless it is a replay. -/
def deliverWait (r : WaitRunner) (codecs : Codecs T E) (ctx : Nat → Result Unit) (incarnation : Nat)
    (now : Time) (source : Execution) (executionID : Text) (delivery : WaitDelivery)
    (contract : WaitDeliveryContract T) : Result (WaitDecision × Option Execution) := do
  delivery.check executionID
  let waits ← r.waitDeliverySource source executionID delivery.generation
  let (identity,record) ← findWaitGeneration waits delivery.generation
  contract.check record.spec
  let (targetRecord,decision,replay) ←
    prepareWaitDelivery ctx incarnation now source record delivery contract
  if replay = true then .ok (decision,none)
  else
    let target ← if decision.status = .accepted then
        applyWaitContinuation codecs ctx source record.spec delivery contract
      else .ok source
    let waits ← marshalWaits (waits.set identity targetRecord)
    ctx 5
    .ok (decision,some { target with waits := waits })

variable {r : WaitRunner} {codecs : Codecs T E} {ctx : Nat → Result Unit} {i : Nat} {now : Time}
  {source t : Execution} {delivery : WaitDelivery} {contract : WaitDeliveryContract T}
  {decision : WaitDecision}

theorem prepareWaitDelivery_eq_ok {record target : DurableWaitRecord} {replay : Bool}
    (h : prepareWaitDelivery ctx i now source record delivery contract = .ok (target,decision,replay)) :
    ∃ matched, prepareWaitDecision record delivery source.revision i now matched =
      .ok (target,decision,replay) := by
  unfold prepareWaitDelivery at h
  obtain ⟨first,hfirst,h⟩ := bind_eq_ok.mp h
  split at h
  · cases h
    exact ⟨false,hfirst⟩
  · cases hm : contract.matchPayload with
    | none =>
      rw [hm] at h
      cases h
    | some matcher =>
      simp only [hm,bind_eq_ok] at h
      obtain ⟨_,-,matched,-,_,-,h⟩ := h
      exact ⟨matched,h⟩

omit [Sha256] in
theorem applyWaitContinuation_eq_ok {spec : DurableWaitSpec}
    (h : applyWaitContinuation codecs ctx source spec delivery contract = .ok t) :
    ∃ state, t = continueWait source spec delivery.kind state := by
  unfold applyWaitContinuation at h
  cases ha : contract.apply with
  | none =>
    rw [ha] at h
    cases h
  | some apply =>
    simp only [ha,bind_eq_ok,require_eq_ok,exists_const,Except.ok.injEq] at h
    obtain ⟨-,_,-,_,-,_,-,_,-,_,-,encoded,-,rfl⟩ := h
    exact ⟨encoded,rfl⟩

structure Delivered (i : Nat) (now : Time) (source : Execution) (delivery : WaitDelivery)
    (decision : WaitDecision) (t : Execution) : Prop where
  waits : AdmittedWaits source
  journal : AdmittedJournal source
  groups : AdmittedGroups source
  positive : 0 < source.revision
  decided : ∃ identity record matched, source.waits.get? identity = some record ∧
    record.generation = delivery.generation ∧ NewDecision record source.revision decision ∧
    decision = delivery.decision record source.revision i now matched ∧
    ((decision.status ≠ .accepted ∧
        t = { source with waits := source.waits.set identity (record.decided decision) }) ∨
      (decision.status = .accepted ∧ ∃ state, t = { continueWait source record.spec delivery.kind state
        with waits := source.waits.set identity (record.decided decision) }))

theorem deliverWait_eq_ok {id : Text} {target : Option Execution}
    (h : deliverWait r codecs ctx i now source id delivery contract = .ok (decision,target)) :
    (target = none ∧ ∃ identity record, source.waits.get? identity = some record ∧
        record.generation = delivery.generation ∧ record.decisions.get? delivery.id = some decision) ∨
      ∃ t, target = some t ∧ Delivered i now source delivery decision t := by
  simp only [deliverWait,WaitDelivery.check,bind_eq_ok,require_eq_ok,exists_const] at h
  obtain ⟨-,waits,hsource,⟨identity,record⟩,hfind,_,-,⟨targetRecord,d,replay⟩,hprep,h⟩ := h
  obtain ⟨rfl,hwaits,hjournal,hgroups,hrev,-⟩ := waitDeliverySource_eq_ok hsource
  obtain ⟨hget,hgen⟩ := findWaitGeneration_eq_ok hfind
  obtain ⟨matched,hprep⟩ := prepareWaitDelivery_eq_ok hprep
  obtain ⟨-,-,hcase⟩ := prepareWaitDecision_eq_ok hprep
  rcases hcase with ⟨rfl,rfl,hold⟩ | ⟨rfl,rfl,hnew,hdec⟩
  · simp only [if_true,Except.ok.injEq,Prod.mk.injEq] at h
    obtain ⟨rfl,rfl⟩ := h
    exact .inl ⟨rfl,identity,targetRecord,hget,hgen,hold⟩
  · have hdelivered : ∀ t, _ → Delivered i now source delivery d t := fun t ht =>
      ⟨hwaits,hjournal,hgroups,hrev,identity,record,matched,hget,hgen,hnew,hdec,ht⟩
    simp only [Bool.false_eq_true,if_false] at h
    split at h
    · rename_i hacc
      simp only [bind_eq_ok,Except.ok.injEq,Prod.mk.injEq] at h
      obtain ⟨target',htarget,waits',hmar,_,-,rfl,rfl⟩ := h
      obtain ⟨state,rfl⟩ := applyWaitContinuation_eq_ok htarget
      rw [marshalWaits_eq_ok hmar]
      exact .inr ⟨_,rfl,hdelivered _ (.inr ⟨hacc,state,rfl⟩)⟩
    · rename_i hacc
      simp only [bind_eq_ok,Except.ok.injEq,Prod.mk.injEq] at h
      obtain ⟨target',rfl,waits',hmar,_,-,rfl,rfl⟩ := h
      rw [marshalWaits_eq_ok hmar]
      exact .inr ⟨_,rfl,hdelivered _ (.inl ⟨hacc,rfl⟩)⟩

end Deliver

section CancelWait

variable [Sha256]

def validateWaitCancellationRequest (source : Execution) (record : DurableWaitRecord)
    (token : ResumeToken) (request : WaitCancellation) : Result Unit :=
  if token.snapshotRevision < record.armRevision ∨ token.snapshotRevision > source.revision then
    fail .waitStale
  else match record.state with
    | .canceled => match record.cancellation with
      | none => fail .waitConflict
      | some prior => do
        require (prior.id == request.id) .waitCanceled
        require (prior.reason == request.reason && prior.evidence == request.evidence) .waitConflict
    | .expired => fail .waitExpired
    | .resolved | .unset => fail .waitConflict
    | .armed => do
      require source.terminal.isNone .waitConflict
      require (token.snapshotRevision == source.revision) .waitStale
      require (source.revision != maxRevision) .waitInvalid

def canceledWaitTerminal (reason : Text) : ExecutionTerminal :=
  ⟨.failed,durableWaitCanceledReason,some ⟨durableWaitCanceledReason ++ ascii ": " ++ reason⟩⟩

/-- `CancelWait` under its lease; `none` is a replay. `wall` is the time `markSegmentFailed` takes,
which is not the injected clock's. -/
def cancelWait (r : WaitRunner) (ctx : Result Unit) (incarnation : Nat) (now wall : Time)
    (source : Execution) (token : ResumeToken) (request : WaitCancellation) :
    Result (Option Execution) := do
  request.check token
  let waits ← r.waitDeliverySource source token.threadID request.generation
  let (identity,record) ← findWaitGeneration waits request.generation
  validateWaitCancellationRequest source record token request
  if record.state = .canceled then .ok none
  else
    require (!now.isZero) .waitInvalid
    let cancel := ⟨request.id,request.reason,request.evidence,source.revision,incarnation,now⟩
    let waits ← marshalWaits (waits.set identity (record.canceledBy cancel))
    ctx
    .ok (some { source with
      waits := waits
      terminal := some (canceledWaitTerminal request.reason)
      runMeta := markSegmentFailed wall source.runMeta })

structure Canceled (i : Nat) (now wall : Time) (source : Execution) (request : WaitCancellation)
    (t : Execution) : Prop where
  waits : AdmittedWaits source
  journal : AdmittedJournal source
  groups : AdmittedGroups source
  positive : 0 < source.revision
  clocked : now.isZero = false
  canceled : ∃ identity record, source.waits.get? identity = some record ∧ record.state = .armed ∧
    record.generation = request.generation ∧
    (0 < i → NewCancellation source.revision
      ⟨request.id,request.reason,request.evidence,source.revision,i,now⟩) ∧
    t = { source with
      waits := source.waits.set identity (record.canceledBy
        ⟨request.id,request.reason,request.evidence,source.revision,i,now⟩)
      terminal := some (canceledWaitTerminal request.reason)
      runMeta := markSegmentFailed wall source.runMeta }

omit [Sha256] in
theorem validateWaitCancellationRequest_eq_ok {source : Execution} {record : DurableWaitRecord}
    {token : ResumeToken} {request : WaitCancellation}
    (h : validateWaitCancellationRequest source record token request = .ok ()) :
    record.state = .armed ∨ (record.state = .canceled ∧ ∃ prior, record.cancellation = some prior ∧
      prior.id = request.id ∧ prior.reason = request.reason ∧ prior.evidence = request.evidence) := by
  unfold validateWaitCancellationRequest at h
  split at h
  · cases h
  cases hs : record.state with
  | armed => exact .inl rfl
  | canceled =>
    rw [hs] at h
    cases hc : record.cancellation with
    | none =>
      rw [hc] at h
      cases h
    | some prior =>
      simp only [hc,bind_eq_ok,require_eq_ok,exists_const,Bool.and_eq_true,beq_iff_eq] at h
      exact .inr ⟨rfl,prior,rfl,h.1,h.2.1,h.2.2⟩
  | expired | resolved | unset =>
    rw [hs] at h
    cases h

theorem cancelWait_eq_ok {r : WaitRunner} {ctx : Result Unit} {i : Nat} {now wall : Time}
    {source : Execution} {token : ResumeToken} {request : WaitCancellation} {target : Option Execution}
    (h : cancelWait r ctx i now wall source token request = .ok target) :
    (target = none ∧ ∃ identity record prior, source.waits.get? identity = some record ∧
        record.generation = request.generation ∧ record.state = .canceled ∧
        record.cancellation = some prior ∧ prior.id = request.id ∧ prior.reason = request.reason ∧
        prior.evidence = request.evidence) ∨
      ∃ t, target = some t ∧ Canceled i now wall source request t := by
  simp only [cancelWait,WaitCancellation.check,bind_eq_ok,require_eq_ok,exists_const,
    Bool.and_eq_true,bne_iff_ne] at h
  obtain ⟨⟨⟨⟨-,hid⟩,htext⟩,hreason⟩,hevidence⟩ := h.1
  obtain ⟨-,waits,hsource,⟨identity,record⟩,hfind,_,hreq,h⟩ := h
  obtain ⟨rfl,hwaits,hjournal,hgroups,hrev,-⟩ := waitDeliverySource_eq_ok hsource
  obtain ⟨hget,hgen⟩ := findWaitGeneration_eq_ok hfind
  split at h
  · rename_i hs
    cases h
    rcases validateWaitCancellationRequest_eq_ok hreq with harmed | ⟨-,prior,hprior⟩
    · rw [hs] at harmed
      cases harmed
    · exact .inl ⟨rfl,identity,record,prior,hget,hgen,hs,hprior⟩
  · rename_i hs
    simp only [bind_eq_ok,require_eq_ok,exists_const,Except.ok.injEq,Bool.not_eq_true'] at h
    obtain ⟨hnow,waits',hmar,_,-,rfl⟩ := h
    rw [marshalWaits_eq_ok hmar]
    have harmed := (validateWaitCancellationRequest_eq_ok hreq).resolve_right fun hc => hs hc.1
    refine .inr ⟨_,rfl,hwaits,hjournal,hgroups,hrev,hnow,identity,record,hget,harmed,hgen,?_,rfl⟩
    intro hi
    have hparts : validRuntimeText [request.id,request.reason,request.evidence] = true := by
      simp only [validRuntimeText,List.all_cons,List.all_nil,Bool.and_true,Bool.and_eq_true] at htext ⊢
      exact ⟨htext.2.2.1,htext.2.2.2.1,htext.2.2.2.2⟩
    exact ⟨hid,hreason,hevidence,rfl,Nat.pos_iff_ne_zero.mp hi,hnow,hparts⟩

end CancelWait
end Flowy
