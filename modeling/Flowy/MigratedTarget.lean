import Flowy.Migration
import Flowy.PayloadText
import Flowy.Wait.Delivery
import Flowy.Store.Memory
import Flowy.Store.PostgresRefines
import Flowy.Readmission

/-! The target of a migration: the source envelope under the transforms of a chain, checked and
committed when an execution is resumed under another descriptor. -/
namespace Flowy

inductive TransformCall
  | progress (id : Text) (input : ExecutionProgress)
  | effects (id : Text) (input : Bytes)

/-- A result, and the host functions that were called on the way to it. -/
structure Called (α : Type) where
  calls : List TransformCall
  result : Result α

namespace Called

variable {α β : Type}

def lift (r : Result α) : Called α := ⟨[],r⟩

def call (c : TransformCall) (r : Result α) : Called α := ⟨[c],r⟩

def bind (x : Called α) (f : α → Called β) : Called β :=
  match x.result with
  | .error err => ⟨x.calls,.error err⟩
  | .ok a => ⟨x.calls ++ (f a).calls,(f a).result⟩

instance : Monad Called where
  pure a := lift (.ok a)
  bind := bind

def mapError (f : Err → Err) (x : Called α) : Called α := ⟨x.calls,x.result.mapError f⟩

@[simp] theorem lift_result (r : Result α) : (lift r).result = r := rfl

@[simp] theorem pure_result (a : α) : (pure a : Called α).result = .ok a := rfl

theorem bind_result {x : Called α} {f : α → Called β} {b : β} :
    (x >>= f).result = .ok b ↔ ∃ a, x.result = .ok a ∧ (f a).result = .ok b := by
  change (bind x f).result = .ok b ↔ _
  unfold bind
  cases hx : x.result <;> simp

theorem lift_bind (r : Result α) (f : α → Called β) :
    (lift r >>= f) = match r with
      | .error err => lift (.error err)
      | .ok a => f a := by
  cases r <;> rfl

end Called

section Prepare

/-- `fmt.Errorf("%w: " + label + "%s: %w", ErrMigrationInvalid, id, err)`. -/
def transformError (label : String) (id : Text) (err : Err) : Err :=
  ⟨Sentinel.migrationInvalid.message ++ ascii ": " ++ ascii label ++ id ++ ascii ": " ++ err.message,
    .migrationInvalid :: err.wraps⟩

def transformEffects (migration : ExecutionMigration) (effects : Bytes) : Called Bytes :=
  match migration.effectsTransform with
  | none => pure effects
  | some transform =>
    .call (.effects migration.id effects) ((transform effects).mapError (transformError "effects " migration.id))

def applyExecutionMigration (result : SealedEnvelope) (migration : ExecutionMigration) :
    Called SealedEnvelope :=
  match migration.transform with
  -- the registry holds no entry without a transform
  | none => .lift (fail .migrationInvalid)
  | some transform => do
    let progress ← .call (.progress migration.id result.envelope.progress)
      ((transform result.envelope.progress).mapError (transformError "" migration.id))
    let effects ← transformEffects migration result.envelope.effectsPayload
    pure { result with envelope := { result.envelope with
      progress := progress, effectsPayload := effects, descriptor := migration.target } }

def applyExecutionMigrations (result : SealedEnvelope) (ids : List Text) :
    List ExecutionMigration → Called (SealedEnvelope × List Text)
  | [] => pure (result,ids)
  | migration :: rest => do
    let result ← applyExecutionMigration result migration
    applyExecutionMigrations result (ids ++ [migration.id]) rest

def ExecutionMigration.convertsEffects (migration : ExecutionMigration) : Bool :=
  migration.source.effectsCodec == migration.target.effectsCodec || migration.effectsTransform.isSome

/-- The whole chain is checked before any host function runs. -/
def validateEffectsMigrationChain : List ExecutionMigration → Result Unit
  | [] => .ok ()
  | migration :: rest =>
    if migration.convertsEffects then validateEffectsMigrationChain rest
    else .error ⟨Sentinel.migrationInvalid.message ++ ascii ": effects transform required: " ++ migration.id,
      [.migrationInvalid]⟩

variable [Sealing]

def prepareExecutionMigration (source : SealedEnvelope) (target : ExecutionDescriptor)
    (registry : List ExecutionMigration) (validatePointer : Option (ExecutionPointer → Result Unit)) :
    Called SealedEnvelope :=
  match validatePointer with
  | none => .lift (fail .migrationInvalid)
  | some validatePointer => do
    .lift ((validateExecutionIntegrity source source.envelope.executionID source.envelope.revision).mapError
      (Err.join (.of .migrationInvalid)))
    .lift source.envelope.descriptor.validate
    .lift target.validate
    let chain ← .lift (executionMigrationChain source.envelope.descriptor target registry)
    .lift (validateEffectsMigrationChain chain)
    let (result,ids) ← applyExecutionMigrations source [] chain
    .lift (require (result.envelope.progress.executionPointer != [] &&
      validMigrationText result.envelope.progress) .migrationInvalid)
    .lift ((validatePointer result.envelope.progress.executionPointer).mapError fun err =>
      (Err.of .migrationInvalid).wrap (.label "target pointer: " err))
    if chain.isEmpty then pure result
    else pure { result with envelope := { result.envelope with
      migration := some ⟨source.envelope.revision,source.digest,ids⟩ } }

def SealedEnvelope.represented (source : SealedEnvelope) (descriptor : ExecutionDescriptor)
    (progress : ExecutionProgress) (effects : Bytes) : SealedEnvelope :=
  { source with envelope := { source.envelope with
    descriptor := descriptor, progress := progress, effectsPayload := effects } }

def SealedEnvelope.provenance (source : SealedEnvelope) (chain : List ExecutionMigration) :
    Option MigrationProvenance :=
  if chain.isEmpty then source.envelope.migration
  else some ⟨source.envelope.revision,source.digest,chain.map ExecutionMigration.id⟩

variable {source result : SealedEnvelope} {target : ExecutionDescriptor} {chain registry : List ExecutionMigration}
  {ids ids' : List Text} {validatePointer : Option (ExecutionPointer → Result Unit)}

omit [Sealing] in
theorem applyExecutionMigration_eq_ok {migration : ExecutionMigration}
    (h : (applyExecutionMigration source migration).result = .ok result) :
    ∃ progress effects, result = source.represented migration.target progress effects := by
  unfold applyExecutionMigration at h
  split at h
  · cases h
  · simp only [Called.bind_result,Called.pure_result,Except.ok.injEq] at h
    obtain ⟨progress,-,effects,-,rfl⟩ := h
    exact ⟨progress,effects,rfl⟩

omit [Sealing] in
theorem applyExecutionMigrations_eq_ok (hpath : MigrationPath registry source.envelope.descriptor chain target)
    (h : (applyExecutionMigrations source ids chain).result = .ok (result,ids')) :
    ids' = ids ++ chain.map ExecutionMigration.id ∧
      ∃ progress effects, result = source.represented target progress effects := by
  induction chain generalizing source ids with
  | nil =>
    cases hpath
    cases h
    exact ⟨by simp,_,_,rfl⟩
  | cons migration rest ih =>
    simp only [applyExecutionMigrations,Called.bind_result] at h
    obtain ⟨next,hnext,h⟩ := h
    obtain ⟨progress,effects,rfl⟩ := applyExecutionMigration_eq_ok hnext
    cases hpath with
    | cons first hrest =>
      have hnext : MigrationPath registry
        (source.represented migration.target progress effects).envelope.descriptor rest target := hrest
      obtain ⟨rfl,progress',effects',rfl⟩ := ih hnext h
      exact ⟨by simp,progress',effects',rfl⟩

structure Prepared (source result : SealedEnvelope) (target : ExecutionDescriptor)
    (registry chain : List ExecutionMigration) : Prop where
  integrity : validateExecutionIntegrity source source.envelope.executionID source.envelope.revision = .ok ()
  resolved : executionMigrationChain source.envelope.descriptor target registry = .ok chain
  effects : validateEffectsMigrationChain chain = .ok ()
  text : validMigrationText result.envelope.progress = true
  pointed : result.envelope.progress.executionPointer ≠ []
  frame : result = { source with envelope := { source.envelope with
    descriptor := target
    progress := result.envelope.progress
    effectsPayload := result.envelope.effectsPayload
    migration := source.provenance chain } }

theorem prepareExecutionMigration_eq_ok
    (h : (prepareExecutionMigration source target registry validatePointer).result = .ok result) :
    ∃ chain, Prepared source result target registry chain := by
  unfold prepareExecutionMigration at h
  split at h
  · cases h
  simp only [Called.bind_result,Called.lift_result,mapError_eq_ok,require_eq_ok,exists_const,
    Bool.and_eq_true,bne_iff_ne] at h
  obtain ⟨⟨⟩,hint,⟨⟩,-,⟨⟩,-,chain,hchain,⟨⟩,heffects,⟨middle,ids⟩,happly,⟨hpoint,htext⟩,⟨⟩,-,h⟩ := h
  obtain ⟨rfl,progress,effects,rfl⟩ :=
    applyExecutionMigrations_eq_ok (executionMigrationChain_eq_ok.mp hchain).2.1 happly
  suffices hresult : validMigrationText result.envelope.progress = true ∧
      result.envelope.progress.executionPointer ≠ [] ∧ result = { source with envelope :=
        { source.envelope with
          descriptor := target
          progress := result.envelope.progress
          effectsPayload := result.envelope.effectsPayload
          migration := source.provenance chain } } from
    ⟨chain,hint,hchain,heffects,hresult.1,hresult.2.1,hresult.2.2⟩
  cases hempty : chain.isEmpty with
  | true =>
    simp only [hempty,if_true,Called.pure_result,Except.ok.injEq] at h
    subst h
    refine ⟨htext,hpoint,?_⟩
    simp [SealedEnvelope.provenance,hempty,SealedEnvelope.represented]
  | false =>
    simp only [hempty,Bool.false_eq_true,if_false,Called.pure_result,Except.ok.injEq] at h
    subst h
    refine ⟨htext,hpoint,?_⟩
    simp [SealedEnvelope.provenance,hempty,SealedEnvelope.represented]

theorem prepareExecutionMigration_calls (validatePointer : Option (ExecutionPointer → Result Unit))
    (h : ∀ chain, executionMigrationChain source.envelope.descriptor target registry = .ok chain →
      validateEffectsMigrationChain chain ≠ .ok ()) :
    ∃ err, prepareExecutionMigration source target registry validatePointer = ⟨[],.error err⟩ := by
  unfold prepareExecutionMigration
  cases validatePointer with
  | none => exact ⟨_,rfl⟩
  | some validatePointer =>
    simp only [Called.lift_bind]
    cases (validateExecutionIntegrity source source.envelope.executionID source.envelope.revision).mapError
      (Err.join (.of .migrationInvalid)) with
    | error err => exact ⟨err,rfl⟩
    | ok _ =>
      cases source.envelope.descriptor.validate with
      | error err => exact ⟨err,rfl⟩
      | ok _ =>
        cases target.validate with
        | error err => exact ⟨err,rfl⟩
        | ok _ =>
          cases hchain : executionMigrationChain source.envelope.descriptor target registry with
          | error err => exact ⟨err,rfl⟩
          | ok chain =>
            cases heffects : validateEffectsMigrationChain chain with
            | error err => exact ⟨err,by simp only [heffects]; rfl⟩
            | ok _ => exact absurd heffects (h chain hchain)

omit [Sealing] in
theorem validateEffectsMigrationChain_eq_ok :
    validateEffectsMigrationChain chain = .ok () ↔ ∀ m ∈ chain, m.convertsEffects = true := by
  induction chain with
  | nil => simp [validateEffectsMigrationChain]
  | cons m rest ih =>
    rw [validateEffectsMigrationChain,List.forall_mem_cons]
    cases hm : m.convertsEffects with
    | true => simpa using ih
    | false => simp

end Prepare

section Resume

structure ForkExecutionPolicy where
  label : Text
  mode : ForkActivityMode
  fakes : Bool
  authorize : Option (ForkLineage → Result Unit)

structure ResumeRunner (T E : Type) extends WaitRunner where
  codecs : Codecs T E
  migrations : List ExecutionMigration
  forkPolicy : Option ForkExecutionPolicy

variable [Sealing]

def checkForkPolicy (policy : Option ForkExecutionPolicy) (ctx : Result Unit) :
    Option ForkLineage → Result Unit
  | none => .ok ()
  | some lineage => do
    lineage.validate
    match policy with
    | none => fail .forkPolicy
    | some policy =>
      if policy.label ≠ lineage.policyLabel ∨ policy.mode ≠ lineage.mode then fail .forkPolicy
      else if lineage.mode = .fake then require policy.fakes .forkPolicy
      else match policy.authorize with
        | none => fail .forkPolicy
        | some authorize => do
          (authorize lineage).mapError (Err.join (.of .forkPolicy))
          ctx

variable {T E : Type}

namespace ResumeRunner

variable (r : ResumeRunner T E) (payloads : PayloadCodec)

def validatePointer (pointer : ExecutionPointer) : Result Unit :=
  require (r.hasNode pointer) .resumeStartNodeNotFound

def validateTargetCodecs (e : RawEnvelope) : Result Unit := do
  let _ ← (r.codecs.unmarshalState e.progress.statePayload).mapError (Err.label "target state: ")
  let _ ← (r.codecs.unmarshalEffects e.effectsPayload).mapError (Err.label "target effects: ")
  .ok ()

def checkArmedWaitCompatibility (e : RawEnvelope) : Result Unit := do
  r.checkRuntimeProfile e.runtimeProfile
  let waits ← payloads.executionWaits e
  (armedWaits waits).forM fun record => do
    require (r.provides record.profile) .executionCapability
    require (r.hasNode record.spec.eventPointer && r.hasNode record.spec.timeoutPointer)
      .executionIncompatible

/-- `commit` is the store's `CommitExecution` under the lease of the session, `ctx k` the `k`-th look
at its context. -/
def prepareMigratedTarget (ctx : Nat → Result Unit) (commit : Nat → RawEnvelope → Result SealedEnvelope)
    (source : SealedEnvelope) : Called SealedEnvelope := do
  let target ← (prepareExecutionMigration source r.descriptor r.migrations (some r.validatePointer)).mapError
    (Err.join (.of .executionIncompatible))
  .lift ((payloads.validateExecutionCollections target.envelope).mapError (Err.join (.of .migrationInvalid)))
  .lift ((r.validateTargetCodecs target.envelope).mapError (Err.join (.of .migrationInvalid)))
  .lift (ctx 2)
  .lift (commit source.envelope.revision target.envelope)

/-- `load` is what `LoadExecution` returned. -/
def prepareResume (ctx : Nat → Result Unit) (load : Result SealedEnvelope)
    (commit : Nat → RawEnvelope → Result SealedEnvelope) (token : ResumeToken) : Called SealedEnvelope := do
  let source ← .lift load
  .lift (ctx 0)
  .lift (validateExecutionIntegrity source token.threadID source.envelope.revision)
  .lift (require (token.snapshotRevision != 0 && source.envelope.revision == token.snapshotRevision)
    .concurrencyConflict)
  .lift (payloads.validateExecutionCollections source.envelope)
  .lift (r.checkArmedWaitCompatibility payloads source.envelope)
  .lift (validateExecutionSourceMetadata source.envelope)
  .lift (checkForkPolicy r.forkPolicy (ctx 1) source.envelope.fork)
  match source.envelope.descriptor.check r.descriptor with
  | .error err =>
    if source.envelope.descriptor.validate.isOk then r.prepareMigratedTarget payloads ctx commit source
    else .lift (.error err)
  | .ok () => do
    .lift (r.validatePointer source.envelope.progress.executionPointer)
    pure source

end ResumeRunner

/-- The open work of `source` is found again in `target`: by its original key, under its original
identity, and at an unmoved cursor if a wait is armed. -/
structure KeepsOpenWork (payloads : PayloadCodec) (source target : RawEnvelope) : Prop where
  activities : ∀ journal, payloads.readJournal source.journal = .ok journal →
    payloads.readJournal target.journal = .ok journal ∧
    ∀ identity record, journal.get? identity = some record → activityUnresolved record.state = true →
      record.identity = identity ∧ record.activation = target.activation ∧
        boundActivityIdentity (RawEnvelope.withJournal target journal) record.key = identity
  groups : ∀ groups, payloads.readChildren source.children = .ok groups →
    payloads.readChildren target.children = .ok groups ∧
    ∀ identity group, groups.get? identity = some group → group.unmerged = true →
      group.identity = identity ∧ group.activation = target.activation ∧
        boundChildGroupIdentity (RawEnvelope.withChildren target groups) group.plan.key = identity
  cursor : ∀ waits, payloads.executionWaits source = .ok waits → armedWaits waits ≠ [] →
    target.progress.executionPointer = source.progress.executionPointer

variable {payloads : PayloadCodec} {source target : RawEnvelope}

theorem validateExecutionCollections_payloads (h : payloads.validateExecutionCollections target = .ok ()) :
    (∃ journal, payloads.readJournal target.journal = .ok journal ∧
      AdmittedJournal (RawEnvelope.withJournal target journal)) ∧
    (∃ groups, payloads.readChildren target.children = .ok groups ∧
      AdmittedGroups (RawEnvelope.withChildren target groups)) ∧
    ∃ waits, payloads.readWaits target.waits = .ok waits ∧
      AdmittedWaits (RawEnvelope.withWaits target waits) := by
  simp only [PayloadCodec.validateExecutionCollections,PayloadCodec.executionWaits,bind_eq_ok,
    require_eq_ok,exists_const] at h
  obtain ⟨-,-,journal,hj,journal',hadm,groups,hg,groups',hgadm,waits',⟨waits,hw,hwadm⟩,-⟩ := h
  exact ⟨⟨journal,hj,(executionActivityJournal_iff.mp hadm).2⟩,
    ⟨groups,hg,(executionChildGroups_iff.mp hgadm).2⟩,⟨waits,hw,(executionWaits_iff.mp hwadm).2⟩⟩

theorem KeepsOpenWork.of_valid (h : payloads.validateExecutionCollections target = .ok ())
    (hjournal : target.journal = source.journal) (hchildren : target.children = source.children)
    (hwaits : target.waits = source.waits) : KeepsOpenWork payloads source target := by
  obtain ⟨⟨journal,hj,hadm⟩,⟨groups,hg,hgadm⟩,⟨waits,hw,hwadm⟩⟩ := validateExecutionCollections_payloads h
  refine ⟨?_,?_,?_⟩
  · intro journal' hread
    rw [← hjournal,hj] at hread
    cases hread
    refine ⟨hj,fun identity record hr hopen => ?_⟩
    obtain ⟨hact,hbound⟩ := hadm.bound identity record hr hopen
    exact ⟨hadm.keyed identity record hr,hact,hbound⟩
  · intro groups' hread
    rw [← hchildren,hg] at hread
    cases hread
    refine ⟨hg,fun identity group hgroup hopen => ?_⟩
    have hcur := hgadm.current identity group hgroup hopen
    have hid := hgadm.admitted identity group hgroup
    simp only [currentChildGroup,admittedChildGroup,Bool.and_eq_true,beq_iff_eq] at hcur hid
    have hkeyed : group.identity = identity := hid.1.1.1.1.2.symm
    exact ⟨hkeyed,hcur.1.2,hcur.2.trans hkeyed⟩
  · intro waits' hsource harmed
    simp only [PayloadCodec.executionWaits,bind_eq_ok,← hwaits,hw,Except.ok.injEq,exists_eq_left',
      executionWaits_iff] at hsource
    obtain ⟨rfl,hsadm⟩ := hsource
    obtain ⟨record,hrecord⟩ := List.exists_mem_of_ne_nil _ harmed
    obtain ⟨hvalue,hstate⟩ := List.mem_filter.mp hrecord
    obtain ⟨identity,hget⟩ := (GoMap.mem_values_iff _ _).mp hvalue
    have hstate := beq_iff_eq.mp hstate
    exact (hwadm.current identity record hget hstate).2.2.symm.trans
      (hsadm.current identity record hget hstate).2.2

/-- A store answers a commit with what it has sealed, read back. -/
def SealsCommits (commit : Nat → RawEnvelope → Result SealedEnvelope) : Prop :=
  ∀ revision e committed, commit revision e = .ok committed →
    ∃ x, sealExecutionEnvelope { e with revision := revision + 1 } = .ok x ∧ committed = x.reread

theorem memory_seals (clock : Nat → Time) (s : Memory.MemoryStore) (lease : ExecutionLease) :
    SealsCommits fun revision e => (Memory.commitExecution clock s revision lease e).map Prod.snd := by
  intro revision e committed h
  obtain ⟨⟨s',x⟩,hcommit,rfl⟩ := map_eq_ok.mp h
  simp only [Memory.commitExecution,Memory.decodeExecution,bind_eq_ok,require_eq_ok,exists_const,
    Except.ok.injEq,Prod.mk.injEq] at hcommit
  obtain ⟨-,-,-,-,-,-,-,-,-,-,-,-,x',hseal,-,-,y,⟨-,-,rfl⟩,-,rfl⟩ := hcommit
  exact ⟨x',hseal,rfl⟩

theorem postgres_seals (checks : PayloadChecks) (clock : Nat → Time) (db : Postgres.Database)
    (lease : ExecutionLease) :
    SealsCommits fun revision e => (Postgres.commitExecution checks clock db revision lease e).map Prod.snd := by
  intro revision e committed h
  obtain ⟨⟨db',x⟩,hcommit,rfl⟩ := map_eq_ok.mp h
  obtain ⟨x',hx,rfl⟩ := Postgres.commitExecution_eq_ok hcommit
  exact ⟨x',hx.sealing,rfl⟩

theorem KeepsOpenWork.sealed {revision : Nat} {x : SealedEnvelope}
    (hseal : sealExecutionEnvelope { target with revision := revision } = .ok x)
    (h : KeepsOpenWork payloads source target) : KeepsOpenWork payloads source x.reread.envelope := by
  have hfacts := sealExecutionEnvelope_eq_ok hseal
  have hprogress : x.reread.envelope.progress = target.progress := hfacts.reread_progress
  have hid : x.reread.envelope.executionID = target.executionID := hfacts.reread_executionID
  have hsame : x.reread.envelope.journal = target.journal ∧ x.reread.envelope.children = target.children ∧
      x.reread.envelope.activation = target.activation := by
    change x.envelope.journal = _ ∧ x.envelope.children = _ ∧ x.envelope.activation = _
    rw [hfacts.envelope]
    exact ⟨rfl,rfl,rfl⟩
  obtain ⟨hjournal,hchildren,hact⟩ := hsame
  refine ⟨fun journal hread => ?_,fun groups hread => ?_,fun waits hread harmed => ?_⟩
  · obtain ⟨hj,hopen⟩ := h.activities journal hread
    rw [hjournal,hact]
    refine ⟨hj,fun identity record hr hu => ?_⟩
    obtain ⟨h1,h2,h3⟩ := hopen identity record hr hu
    refine ⟨h1,h2,?_⟩
    rw [← h3]
    simp only [boundActivityIdentity,activityIdentity,RawEnvelope.withJournal,hprogress,hid,hact]
  · obtain ⟨hg,hopen⟩ := h.groups groups hread
    rw [hchildren,hact]
    refine ⟨hg,fun identity group hgr hu => ?_⟩
    obtain ⟨h1,h2,h3⟩ := hopen identity group hgr hu
    refine ⟨h1,h2,?_⟩
    rw [← h3]
    simp only [boundChildGroupIdentity,RawEnvelope.withChildren,hprogress,hid,hact]
  · rw [hprogress]
    exact h.cursor waits hread harmed

theorem prepareMigratedTarget_eq_ok {r : ResumeRunner T E} {ctx : Nat → Result Unit}
    {commit : Nat → RawEnvelope → Result SealedEnvelope} {x committed : SealedEnvelope}
    (h : (r.prepareMigratedTarget payloads ctx commit x).result = .ok committed) :
    ∃ result, (prepareExecutionMigration x r.descriptor r.migrations (some r.validatePointer)).result = .ok result ∧
      payloads.validateExecutionCollections result.envelope = .ok () ∧
      commit x.envelope.revision result.envelope = .ok committed := by
  simp only [ResumeRunner.prepareMigratedTarget,Called.mapError,Called.bind_result,Called.lift_result,
    mapError_eq_ok] at h
  obtain ⟨result,hresult,⟨⟩,hvalid,⟨⟩,-,⟨⟩,-,hcommit⟩ := h
  exact ⟨result,hresult,hvalid,hcommit⟩

theorem prepareResume_source {r : ResumeRunner T E} {ctx : Nat → Result Unit} {load : Result SealedEnvelope}
    {commit : Nat → RawEnvelope → Result SealedEnvelope} {token : ResumeToken} {committed : SealedEnvelope}
    (h : (r.prepareResume payloads ctx load commit token).result = .ok committed) :
    ∃ x, load = .ok x ∧ payloads.validateExecutionCollections x.envelope = .ok () ∧
      (committed = x ∨ (r.prepareMigratedTarget payloads ctx commit x).result = .ok committed) := by
  simp only [ResumeRunner.prepareResume,Called.bind_result,Called.lift_result,require_eq_ok,exists_const] at h
  obtain ⟨x,hload,⟨⟩,-,⟨⟩,-,-,⟨⟩,hvalid,⟨⟩,-,⟨⟩,-,⟨⟩,-,h⟩ := h
  refine ⟨x,hload,hvalid,?_⟩
  split at h
  · split at h
    · exact .inr h
    · cases h
  · simp only [Called.bind_result,Called.lift_result,Called.pure_result] at h
    obtain ⟨⟨⟩,-,hok⟩ := h
    exact .inl (Except.ok.inj hok).symm

/-- Migration changes the representation only, calls no transform before the whole chain is known to
be valid, and strands no open work. -/
theorem migration_changes_representation_only :
    (∀ (source result : SealedEnvelope) (target : ExecutionDescriptor) (registry : List ExecutionMigration)
      (validatePointer : Option (ExecutionPointer → Result Unit)),
      (prepareExecutionMigration source target registry validatePointer).result = .ok result →
      ∃ chain, executionMigrationChain source.envelope.descriptor target registry = .ok chain ∧
        result = { source with envelope := { source.envelope with
          descriptor := target
          progress := result.envelope.progress
          effectsPayload := result.envelope.effectsPayload
          migration := if chain = [] then source.envelope.migration
            else some ⟨source.envelope.revision,source.digest,chain.map ExecutionMigration.id⟩ } }) ∧
    (∀ (source : SealedEnvelope) (target : ExecutionDescriptor) (registry : List ExecutionMigration)
      (validatePointer : Option (ExecutionPointer → Result Unit)),
      (∀ chain, executionMigrationChain source.envelope.descriptor target registry = .ok chain →
        ∃ m ∈ chain, m.source.effectsCodec ≠ m.target.effectsCodec ∧ m.effectsTransform = none) →
      (prepareExecutionMigration source target registry validatePointer).calls = [] ∧
        ∀ result, (prepareExecutionMigration source target registry validatePointer).result ≠ .ok result) ∧
    ∀ (r : ResumeRunner T E) (payloads : PayloadCodec) (ctx : Nat → Result Unit)
      (commit : Nat → RawEnvelope → Result SealedEnvelope) (source committed : SealedEnvelope),
      (r.prepareMigratedTarget payloads ctx commit source).result = .ok committed →
      ∃ result, (prepareExecutionMigration source r.descriptor r.migrations
          (some r.validatePointer)).result = .ok result ∧
        commit source.envelope.revision result.envelope = .ok committed ∧
        KeepsOpenWork payloads source.envelope result.envelope ∧
        (SealsCommits commit → KeepsOpenWork payloads source.envelope committed.envelope) := by
  refine ⟨?_,?_,?_⟩
  · intro source result target registry validatePointer h
    obtain ⟨chain,hp⟩ := prepareExecutionMigration_eq_ok h
    refine ⟨chain,hp.resolved,?_⟩
    have hframe := hp.frame
    simpa only [SealedEnvelope.provenance,List.isEmpty_iff] using hframe
  · intro source target registry validatePointer h
    have hinvalid : ∀ chain, executionMigrationChain source.envelope.descriptor target registry = .ok chain →
        validateEffectsMigrationChain chain ≠ .ok () := by
      intro chain hchain hok
      obtain ⟨m,hm,hcodec,hnone⟩ := h chain hchain
      have hconv := validateEffectsMigrationChain_eq_ok.mp hok m hm
      simp [ExecutionMigration.convertsEffects,hcodec,hnone] at hconv
    obtain ⟨err,herr⟩ := prepareExecutionMigration_calls validatePointer hinvalid
    rw [herr]
    exact ⟨rfl,by simp⟩
  · intro r payloads ctx commit source committed h
    obtain ⟨result,hresult,hvalid,hcommit⟩ := prepareMigratedTarget_eq_ok h
    obtain ⟨chain,hp⟩ := prepareExecutionMigration_eq_ok hresult
    have hkeeps : KeepsOpenWork payloads source.envelope result.envelope := by
      apply KeepsOpenWork.of_valid hvalid <;> rw [hp.frame]
    refine ⟨result,hresult,hcommit,hkeeps,fun hseals => ?_⟩
    obtain ⟨x,hseal,rfl⟩ := hseals _ _ _ hcommit
    exact hkeeps.sealed hseal

end Resume

section Example

attribute [local instance] Sealing.hex

def preparedRecord : ActivityRecord := prepareActivity startedExecution sampleRequest

def preparedJournal : Journal := GoMap.set ∅ preparedRecord.identity preparedRecord

def preparedStart (journal : Journal) : RawEnvelope :=
  { startedExecution with
    descriptor := .sampleAt "r1", journal := journalText journal, children := [], waits := [] }

def preparedStore : Memory.MemoryStore :=
  ⟨∅,∅,GoMap.set ∅ (ascii "x") ⟨ascii "x",ascii "w",1,⟨10⟩⟩,GoMap.set ∅ (ascii "x") 1,∅,∅,∅⟩

def commitPrepared (s : Memory.MemoryStore) (revision : Nat) (e : RawEnvelope) :
    Result (Memory.MemoryStore × SealedEnvelope) :=
  Memory.commitExecution (fun _ => ⟨1⟩) s revision ⟨ascii "x",ascii "w",1,⟨10⟩⟩ e

/-- The cursor moves to another node, and the key of the activity keeps its old identity. -/
def movePrepared : ExecutionMigration :=
  { sampleMigration (ascii "move") "r1" "r2" with
    transform := some fun p => .ok { p with
      executionPointer := ascii "m"
      journalReferences := GoMap.set ∅ preparedRecord.key preparedRecord.identity } }

def preparedRunner : ResumeRunner Unit Unit where
  descriptor := .sampleAt "r2"
  backend := none
  waitProfile := none
  hasNode := fun pointer => pointer == ascii "m"
  codecs := ⟨fun _ => .ok [],fun _ => .ok (),fun _ => .ok [],fun _ => .ok []⟩
  migrations := [movePrepared]
  forkPolicy := none

def migratePrepared : Result (SealedEnvelope × SealedEnvelope) := do
  let (s,source) ← commitPrepared preparedStore 0 (preparedStart preparedJournal)
  let committed ← (preparedRunner.prepareMigratedTarget (samplePayloads [preparedJournal] [])
    (fun _ => .ok ()) (fun revision e => (commitPrepared s revision e).map Prod.snd) source).result
  .ok (source,committed)

theorem migration_moves_open_activity : ∃ source committed,
    migratePrepared = .ok (source,committed) ∧
      committed.envelope.progress.executionPointer = ascii "m" ∧
      boundActivityIdentity (RawEnvelope.withJournal committed.envelope preparedJournal) preparedRecord.key =
        preparedRecord.identity := by
  have heval : migratePrepared.toOption.any (fun r =>
      r.2.envelope.progress.executionPointer == ascii "m" &&
        r.1.envelope.journal == journalText preparedJournal) = true := by
    decide +kernel
  obtain ⟨⟨source,committed⟩,hrun,hcheck⟩ := exists_of_toOption_any heval
  simp only [Bool.and_eq_true,beq_iff_eq] at hcheck
  refine ⟨source,committed,hrun,hcheck.1,?_⟩
  simp only [migratePrepared,bind_eq_ok,Except.ok.injEq,Prod.mk.injEq] at hrun
  obtain ⟨⟨s,x⟩,-,c,hmigrate,rfl,rfl⟩ := hrun
  obtain ⟨result,-,-,-,hkeeps⟩ := migration_changes_representation_only.2.2 _ _ _ _ _ _ hmigrate
  have hopen := ((hkeeps (memory_seals _ s _)).activities preparedJournal
    (by rw [hcheck.2]; decide +kernel)).2
  exact (hopen _ preparedRecord (GoMap.get?_set_self _ _ _) (by decide +kernel)).2.2

end Example
end Flowy
