import Flowy.Activity.Call
import Flowy.Child.Readmit
import Flowy.Wait.Arbitration
import Flowy.Graph.Directive

/-! The checkpointer of a running execution: saves, step commits, armed waits and terminal failures.
Each is a locked section that works on the cached envelope and proposes one successor. None of
them reads the journal, the groups or the waits it carries over before it publishes them again. -/
namespace Flowy

/-- An envelope with its collections decoded. -/
abbrev Execution := ExecutionEnvelope Journal ChildGroups Waits

structure Codecs (T E : Type) where
  marshalState : T → Result Bytes
  unmarshalState : Bytes → Result T
  marshalEffects : List E → Result Bytes
  unmarshalEffects : Bytes → Result (List E)

structure Snapshot (T E : Type) where
  threadID : Text
  executionPointer : ExecutionPointer
  state : T
  runMeta : RunMetadata
  effects : List E

structure RunResult (T E : Type) where
  state : T
  status : RunStatus
  effects : List E
  runMeta : RunMetadata
  executionPointer : ExecutionPointer
  reason : Text

structure DirectiveStep (T E : Type) where
  nextNode : Text
  result : Option (RunResult T E)
  err : Option Err
  terminal : Bool

/-- What a locked section asks of storage. An `unencodable` snapshot sets `persistenceFailed`, and
so does a `commit` that storage refuses. -/
inductive Proposal
  | skip
  | refuse (err : Err)
  | unencodable (err : Err)
  | commit (target : Execution)
deriving DecidableEq

section Sections

variable {T E : Type} (codecs : Codecs T E)

def Snapshot.store (snapshot : Snapshot T E) (state effects : Bytes) (target : Execution) : Execution :=
  { target with
    progress := { target.progress with
      statePayload := state
      executionPointer := snapshot.executionPointer }
    effectsPayload := effects
    runMeta := snapshot.runMeta }

def persistSnapshot (target : Execution) (snapshot : Snapshot T E) : Proposal :=
  match codecs.marshalState snapshot.state with
  | .error err => .unencodable err
  | .ok state =>
    match codecs.marshalEffects snapshot.effects with
    | .error err => .unencodable err
    | .ok effects => .commit (snapshot.store state effects target)

def propose (checked : Result (Option (Execution × Snapshot T E))) : Proposal :=
  match checked with
  | .error err => .refuse err
  | .ok none => .skip
  | .ok (some (target,snapshot)) => persistSnapshot codecs target snapshot

theorem propose_eq_commit {checked : Result (Option (Execution × Snapshot T E))} {t : Execution} :
    propose codecs checked = .commit t ↔ ∃ target snapshot state effects,
      checked = .ok (some (target,snapshot)) ∧ codecs.marshalState snapshot.state = .ok state ∧
      codecs.marshalEffects snapshot.effects = .ok effects ∧ t = snapshot.store state effects target := by
  unfold propose
  constructor
  · intro h
    split at h
    · cases h
    · cases h
    · rename_i target snapshot
      unfold persistSnapshot at h
      split at h
      · cases h
      · rename_i state hstate
        split at h
        · cases h
        · rename_i effects heffects
          cases h
          exact ⟨target,snapshot,state,effects,rfl,hstate,heffects,rfl⟩
  · rintro ⟨target,snapshot,state,effects,rfl,hstate,heffects,rfl⟩
    simp only [persistSnapshot,hstate,heffects]

/-- The errors after which a run may be tried again. -/
def recoverableExecutionFailure (err : Err) : Bool :=
  [Sentinel.activityConflict,.activityUnknown,.activityBusy,.activityRetryPending,.activityFailed,
    .activityAttemptsExhausted,.activityScheduleInvalid,.leaseLost,.concurrencyConflict,
    .executionCapability,.canceled,.deadlineExceeded,.waitInvalid,.waitConflict,.waitStale,
    .waitUnresolved,.waitRegistration].any fun s => err.is s

def markSegmentFailed (now : Time) (runMeta : RunMetadata) : RunMetadata :=
  { runMeta with segment := { runMeta.segment with endTime := now, endReason := .fail } }

/-- A record of the current activation that does not let the cursor move. -/
def resolvedActivity (envelope : Execution) (record : ActivityRecord) : Result Unit :=
  if record.activation ≠ envelope.activation then .ok ()
  else match record.state with
    | .running => fail .activityBusy
    | .unknown => fail .activityUnknown
    | .prepared =>
      if record.attempts ≠ [] then .error (activityRecordError record) else fail .activityConflict
    -- the host may handle a definitive failure without redispatch
    | .failed => if record.classification = some .ambiguous then fail .activityUnknown else .ok ()
    | .completed => .ok ()

variable [Sha256]

def resolvedActivities (envelope : Execution) : Result Unit := do
  let waits ← executionWaits envelope
  require (waits.all fun _ wait => wait.state != .armed) .waitUnresolved
  resolvedChildGroups envelope
  let journal ← executionActivityJournal envelope
  journal.values.forM (resolvedActivity envelope)

/-- What every load of an execution checks of its collections. -/
def validateExecutionCollectionsWithWaits (envelope : Execution) : Result Waits := do
  require (validMigrationText envelope.progress) .executionCorrupt
  require (envelope.runtimeProfile.all fun profile => profile.validate.isOk) .executionCorrupt
  let _ ← executionActivityJournal envelope
  let _ ← executionChildGroups envelope
  executionWaits envelope

def validateExecutionCollections (envelope : Execution) : Result Unit := do
  let _ ← validateExecutionCollectionsWithWaits envelope
  .ok ()

/-- `saveLocked`; the caller names the revision of the step it works in. -/
def saveChecked (envelope : Execution) (stepRevision expectedRevision : Nat) (snapshot : Snapshot T E) :
    Result (Option (Execution × Snapshot T E)) := do
  require (expectedRevision == stepRevision && snapshot.threadID == envelope.executionID)
    .concurrencyConflict
  resolvedActivities envelope
  .ok (some (envelope,snapshot))

/-- A move to another node, or any step but a retry in place, opens a new activation. -/
def advanceActivation (envelope : Execution) (directive : DirectiveKind) (pointer : ExecutionPointer)
    (target : Execution) : Execution :=
  if directive ≠ .retry ∨ pointer ≠ envelope.progress.executionPointer then
    { target with
      activation := target.activation + 1
      progress := { target.progress with journalReferences := ∅, childGroupReferences := ∅ } }
  else target

/-- `commitStepLocked`. -/
def commitStepChecked (envelope : Execution) (step : DirectiveStep T E) (directive : DirectiveKind)
    (state : T) (runMeta : RunMetadata) (effects : List E) :
    Result (Option (Execution × Snapshot T E)) :=
  -- an await has saved its state together with the arm
  if directive = .wait then .ok none
  else do
    resolvedActivities envelope
    if step.terminal then
      match step.result with
      | none => match step.err with
        | none => .ok none
        | some err => .error err
      | some result =>
        if result.status ≠ .completed ∧ result.status ≠ .failed then .ok none
        else
          let target := { envelope with
            terminal := some (makeExecutionTerminal result.status result.reason step.err) }
          .ok (some (advanceActivation envelope directive result.executionPointer target,
            ⟨envelope.executionID,result.executionPointer,state,result.runMeta,effects⟩))
    else
      .ok (some (advanceActivation envelope directive step.nextNode envelope,
        ⟨envelope.executionID,step.nextNode,state,runMeta,effects⟩))

/-- `commitRunFailureLocked`; `live` is that the context has no error. -/
def commitRunFailureChecked (envelope : Execution) (live persistenceFailed : Bool)
    (result : RunResult T E) (runErr : Err) (now : Time) : Result (Option (Execution × Snapshot T E)) :=
  if live && !persistenceFailed && envelope.terminal.isNone && !recoverableExecutionFailure runErr &&
      (resolvedActivities envelope).isOk then
    .ok (some ({ envelope with terminal := some ⟨.failed,result.reason,some ⟨runErr.message⟩⟩ },
      ⟨envelope.executionID,result.executionPointer,result.state,markSegmentFailed now result.runMeta,
        result.effects⟩))
  else .ok none

/-- `armWaitLocked`; `backend` is what the wait backend of the store can do. -/
def armWaitChecked (backend profile : Option WaitCapabilityProfile) (envelope : Execution)
    (stepRevision expectedRevision : Nat) (snapshot : Snapshot T E) (spec : DurableWaitSpec) :
    Result (Option (Execution × Snapshot T E)) :=
  match backend with
  | none => fail .executionCapability
  | some capabilities => do
    require (profile == some capabilities) .executionCapability
    require (expectedRevision == stepRevision && snapshot.threadID == envelope.executionID &&
      snapshot.executionPointer == envelope.progress.executionPointer) .concurrencyConflict
    require (envelope.revision != maxRevision) .waitInvalid
    resolvedActivities envelope
    let record ← planDurableWait envelope.executionID snapshot.executionPointer envelope.activation
      (envelope.revision + 1) spec capabilities
    let waits ← executionWaits envelope
    require (waits.get? record.identity).isNone .waitConflict
    let waits ← marshalWaits (waits.set record.identity record)
    .ok (some ({ envelope with waits := waits },snapshot))

/-- The commits a running execution makes through its checkpointer. -/
inductive CheckpointCommit (envelope target : Execution) : Prop
  | save (stepRevision expectedRevision : Nat) (snapshot : Snapshot T E)
      (h : propose codecs (saveChecked envelope stepRevision expectedRevision snapshot) = .commit target)
  | step (step : DirectiveStep T E) (directive : DirectiveKind) (state : T) (runMeta : RunMetadata)
      (effects : List E)
      (h : propose codecs (commitStepChecked envelope step directive state runMeta effects) =
        .commit target)
  | failure (live persistenceFailed : Bool) (result : RunResult T E) (runErr : Err) (now : Time)
      (h : propose codecs (commitRunFailureChecked envelope live persistenceFailed result runErr now) =
        .commit target)
  | arm (backend profile : Option WaitCapabilityProfile) (stepRevision expectedRevision : Nat)
      (snapshot : Snapshot T E) (spec : DurableWaitSpec)
      (h : propose codecs (armWaitChecked backend profile envelope stepRevision expectedRevision
        snapshot spec) = .commit target)

end Sections

section Resolved

variable {envelope : Execution}

theorem resolvedActivity_eq_ok {record : ActivityRecord}
    (h : resolvedActivity envelope record = .ok ()) (ha : record.activation = envelope.activation) :
    activityUnresolved record.state = false := by
  unfold resolvedActivity at h
  rw [if_neg (not_not.mpr ha)] at h
  cases hs : record.state with
  | completed | failed => rfl
  | running | unknown => simp [hs,fail] at h
  | prepared =>
    rw [hs] at h
    dsimp only at h
    split at h <;> cases h

variable [Sha256]

structure Resolved (envelope : Execution) : Prop where
  waits : AdmittedWaits envelope
  groups : AdmittedGroups envelope
  journal : AdmittedJournal envelope
  unarmed : ∀ identity wait, envelope.waits.get? identity = some wait → wait.state ≠ .armed
  merged : ∀ identity group, envelope.children.get? identity = some group → group.unmerged = false
  closed : ∀ identity record, envelope.journal.get? identity = some record →
    activityUnresolved record.state = false

omit [Sha256] in
theorem forM_eq_ok {α : Type} {f : α → Result Unit} {xs : List α} :
    xs.forM f = .ok () ↔ ∀ x ∈ xs, f x = .ok () := by
  induction xs with
  | nil => simp [pure,Except.pure]
  | cons x xs ih =>
    rw [show (x :: xs).forM f = (f x >>= fun _ => xs.forM f) from rfl,bind_eq_ok,ih,
      List.forall_mem_cons]
    exact ⟨fun ⟨_,hx,hxs⟩ => ⟨hx,hxs⟩,fun ⟨hx,hxs⟩ => ⟨(),hx,hxs⟩⟩

/-- Unresolved work belongs to the current activation, so the check rules it out everywhere. -/
theorem resolvedActivities_eq_ok (h : resolvedActivities envelope = .ok ()) : Resolved envelope := by
  simp only [resolvedActivities,resolvedChildGroups,bind_eq_ok,require_eq_ok,exists_const,
    GoMap.all_iff,bne_iff_ne] at h
  obtain ⟨waits,hwaits,hunarmed,⟨groups,hgroups,hmerged⟩,journal,hjournal,hclosed⟩ := h
  obtain ⟨rfl,hw⟩ := executionWaits_iff.mp hwaits
  obtain ⟨rfl,hg⟩ := executionChildGroups_iff.mp hgroups
  obtain ⟨rfl,hj⟩ := executionActivityJournal_iff.mp hjournal
  refine ⟨hw,hg,hj,hunarmed,fun identity group hget => ?_,fun identity record hget => ?_⟩
  · cases hun : group.unmerged with
    | false => rfl
    | true =>
      have hcur := hg.current identity group hget hun
      simp only [currentChildGroup,Bool.and_eq_true,beq_iff_eq] at hcur
      have hm := hmerged identity group hget
      simp [hcur.1.2,hun] at hm
  · cases hun : activityUnresolved record.state with
    | false => rfl
    | true =>
      have hact := (hj.bound identity record hget hun).1
      have hok := forM_eq_ok.mp hclosed record ((GoMap.mem_values_iff _ _).mpr ⟨identity,hget⟩)
      rw [resolvedActivity_eq_ok hok hact] at hun
      cases hun

end Resolved

section Carried

variable [Sha256] {e t : Execution}

/-- What every checkpoint carries over, and the two ways it can scope the bindings of a migration. -/
structure Carried (e t : Execution) : Prop where
  executionID : t.executionID = e.executionID
  revision : t.revision = e.revision
  descriptor : t.descriptor = e.descriptor
  runtimeProfile : t.runtimeProfile = e.runtimeProfile
  journal : t.journal = e.journal
  children : t.children = e.children
  migration : t.migration = e.migration
  importProvenance : t.importProvenance = e.importProvenance
  rollover : t.rollover = e.rollover
  transfer : t.transfer = e.transfer
  fork : t.fork = e.fork
  scope : (t.activation = e.activation ∧
      t.progress.journalReferences = e.progress.journalReferences ∧
      t.progress.childGroupReferences = e.progress.childGroupReferences) ∨
    (t.activation = e.activation + 1 ∧ t.progress.journalReferences = ∅ ∧
      t.progress.childGroupReferences = ∅)

omit [Sha256] in
theorem Carried.store {T E : Type} {target : Execution} (h : Carried e target) (snapshot : Snapshot T E)
    (state effects : Bytes) : Carried e (snapshot.store state effects target) :=
  ⟨h.executionID,h.revision,h.descriptor,h.runtimeProfile,h.journal,h.children,h.migration,
    h.importProvenance,h.rollover,h.transfer,h.fork,h.scope⟩

omit [Sha256] in
theorem Carried.advance (h : Carried e t) (ha : t.activation = e.activation) (directive : DirectiveKind)
    (pointer : ExecutionPointer) : Carried e (advanceActivation e directive pointer t) := by
  unfold advanceActivation
  split
  · exact ⟨h.executionID,h.revision,h.descriptor,h.runtimeProfile,h.journal,h.children,h.migration,
      h.importProvenance,h.rollover,h.transfer,h.fork,.inr ⟨congrArg (· + 1) ha,rfl,rfl⟩⟩
  · exact h

omit [Sha256] in
theorem Carried.refl (e : Execution) : Carried e e :=
  ⟨rfl,rfl,rfl,rfl,rfl,rfl,rfl,rfl,rfl,rfl,rfl,.inl ⟨rfl,rfl,rfl⟩⟩

omit [Sha256] in
theorem Carried.terminal (h : Carried e t) (terminal : Option ExecutionTerminal) :
    Carried e { t with terminal := terminal } :=
  ⟨h.executionID,h.revision,h.descriptor,h.runtimeProfile,h.journal,h.children,h.migration,
    h.importProvenance,h.rollover,h.transfer,h.fork,h.scope⟩

variable {T E : Type} {codecs : Codecs T E}

theorem commitStepChecked_eq_ok {step : DirectiveStep T E} {directive : DirectiveKind} {state : T}
    {runMeta : RunMetadata} {effects : List E} {target : Execution} {snapshot : Snapshot T E}
    (h : commitStepChecked e step directive state runMeta effects = .ok (some (target,snapshot))) :
    Resolved e ∧ Carried e target ∧ target.waits = e.waits := by
  have hwaits : ∀ (pointer : ExecutionPointer) (terminal : Option ExecutionTerminal),
      (advanceActivation e directive pointer { e with terminal := terminal }).waits = e.waits := by
    intro pointer terminal
    unfold advanceActivation
    split <;> rfl
  have hcarried : ∀ (pointer : ExecutionPointer) (terminal : Option ExecutionTerminal),
      Carried e (advanceActivation e directive pointer { e with terminal := terminal }) :=
    fun pointer terminal => ((Carried.refl e).terminal terminal).advance rfl directive pointer
  unfold commitStepChecked at h
  split at h
  · cases h
  obtain ⟨⟨⟩,hres,h⟩ := bind_eq_ok.mp h
  refine ⟨resolvedActivities_eq_ok hres,?_⟩
  split at h
  · split at h
    · split at h <;> cases h
    · split at h
      · cases h
      · cases h
        exact ⟨hcarried _ _,hwaits _ _⟩
  · cases h
    exact ⟨hcarried _ e.terminal,hwaits _ e.terminal⟩

structure NewlyArmed (e : Execution) (record : DurableWaitRecord) : Prop where
  fresh : e.waits.get? record.identity = none
  plan : ∃ spec profile, planDurableWait e.executionID e.progress.executionPointer e.activation
    (e.revision + 1) spec profile = .ok record

theorem armWaitChecked_eq_ok {backend profile : Option WaitCapabilityProfile}
    {stepRevision expectedRevision : Nat} {snapshot snapshot' : Snapshot T E} {spec : DurableWaitSpec}
    {target : Execution}
    (h : armWaitChecked backend profile e stepRevision expectedRevision snapshot spec =
      .ok (some (target,snapshot'))) :
    Resolved e ∧ snapshot' = snapshot ∧
      snapshot.executionPointer = e.progress.executionPointer ∧ ∃ record, NewlyArmed e record ∧
        target = { e with waits := e.waits.set record.identity record } := by
  unfold armWaitChecked at h
  cases backend with
  | none => cases h
  | some capabilities =>
    simp only [bind_eq_ok,require_eq_ok,exists_const,Bool.and_eq_true,beq_iff_eq,Except.ok.injEq,
      Option.some.injEq,Prod.mk.injEq,Option.isNone_iff_eq_none] at h
    obtain ⟨-,⟨-,hptr⟩,-,⟨⟩,hres,record,hplan,waits,hwaits,hnone,waits',hmar,rfl,rfl⟩ := h
    obtain ⟨rfl,-⟩ := executionWaits_iff.mp hwaits
    rw [hptr] at hplan
    refine ⟨resolvedActivities_eq_ok hres,rfl,hptr,record,⟨hnone,spec,capabilities,hplan⟩,?_⟩
    rw [marshalWaits_eq_ok hmar]

theorem CheckpointCommit.carried (h : CheckpointCommit codecs e t) : Resolved e ∧ Carried e t := by
  cases h with
  | save stepRevision expectedRevision snapshot h =>
    obtain ⟨target,snapshot',state,effects,hok,-,-,rfl⟩ := (propose_eq_commit codecs).mp h
    simp only [saveChecked,bind_eq_ok,require_eq_ok,exists_const,Except.ok.injEq,Option.some.injEq,
      Prod.mk.injEq] at hok
    obtain ⟨-,⟨⟩,hres,rfl,rfl⟩ := hok
    exact ⟨resolvedActivities_eq_ok hres,(Carried.refl e).store _ _ _⟩
  | step step directive state runMeta effects h =>
    obtain ⟨target,snapshot,state',effects',hok,-,-,rfl⟩ := (propose_eq_commit codecs).mp h
    obtain ⟨hres,hcar,-⟩ := commitStepChecked_eq_ok hok
    exact ⟨hres,hcar.store _ _ _⟩
  | failure live persistenceFailed result runErr now h =>
    obtain ⟨target,snapshot,state,effects,hok,-,-,rfl⟩ := (propose_eq_commit codecs).mp h
    unfold commitRunFailureChecked at hok
    split at hok
    · rename_i hcan
      cases hok
      simp only [Bool.and_eq_true,isOk_iff] at hcan
      exact ⟨resolvedActivities_eq_ok hcan.2,((Carried.refl e).terminal _).store _ _ _⟩
    · cases hok
  | arm backend profile stepRevision expectedRevision snapshot spec h =>
    obtain ⟨target,snapshot',state,effects,hok,-,-,rfl⟩ := (propose_eq_commit codecs).mp h
    obtain ⟨hres,rfl,-,record,-,rfl⟩ := armWaitChecked_eq_ok hok
    exact ⟨hres,⟨rfl,rfl,rfl,rfl,rfl,rfl,rfl,rfl,rfl,rfl,rfl,.inl ⟨rfl,rfl,rfl⟩⟩⟩

omit [Sha256] in
theorem Carried.activation_le (h : Carried e t) : e.activation ≤ t.activation := by
  rcases h.scope with ⟨ha,-⟩ | ⟨ha,-⟩ <;> omega

theorem Carried.admittedGroups (h : Carried e t) (hres : Resolved e) {revision : Nat}
    (hle : e.revision ≤ revision) : AdmittedGroups { t with revision := revision } := by
  refine ⟨?_,fun identity group hget => ?_,fun key identity hkey => ?_,fun identity group hget hun => ?_,?_⟩
  · rw [h.children]
    exact hres.groups.decisions
  · rw [h.children] at hget
    exact hres.groups.later hget h.executionID h.activation_le hle
  · rcases h.scope with ⟨ha,-,href⟩ | ⟨-,-,href⟩
    · obtain ⟨group,hget,hk,hact⟩ := hres.groups.references key identity (by rw [← href]; exact hkey)
      exact ⟨group,by rw [h.children]; exact hget,hk,by rw [ha]; exact hact⟩
    · rw [href] at hkey
      cases hkey
  · rw [h.children] at hget
    rw [hres.merged identity group hget] at hun
    cases hun
  · rw [h.children]
    exact hres.groups.ledger

theorem Carried.admittedJournal (h : Carried e t) (hres : Resolved e) {revision : Nat}
    (hle : e.revision ≤ revision) : AdmittedJournal { t with revision := revision } := by
  refine ⟨?_,?_,fun id r hr => ?_,fun id r hr hun => ?_,fun key id hkey => ?_⟩
  · rw [h.journal]
    exact hres.journal.keyed
  · rw [h.journal]
    exact hres.journal.valid
  · rw [h.journal] at hr
    exact admissibleActivity_later h.fork h.executionID h.activation_le hle (hres.journal.admissible id r hr)
  · rw [h.journal] at hr
    rw [hres.closed id r hr] at hun
    cases hun
  · rcases h.scope with ⟨ha,href,-⟩ | ⟨-,href,-⟩
    · obtain ⟨r,hget,hk,hact⟩ := hres.journal.referenced key id (by rw [← href]; exact hkey)
      exact ⟨r,by rw [h.journal]; exact hget,hk,by rw [ha]; exact hact⟩
    · rw [href] at hkey
      cases hkey

end Carried
end Flowy
