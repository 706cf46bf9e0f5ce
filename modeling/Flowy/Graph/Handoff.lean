import Flowy.Graph.Thread

/-! Handoff to a background worker. A transactional checkpointer saves the snapshot and enqueues the
intent in one transaction. Otherwise a snapshot is saved as pending, patched to enqueued, and the intent
is handed over; a refused intent is patched to orphaned. Each step may fail on its own, and recovery runs
the same machine again from what is stored. -/
namespace Flowy

def invalidIntent (detail : Text) : Err := (Err.of .invalidHandoffIntent).wrap ⟨detail,[]⟩

def validateHandoffIntent (intent : HandoffIntent) : Option Err :=
  if intent.threadID = [] then some (invalidIntent (ascii "empty thread ID"))
  else if intent.executionPointer = [] then some (invalidIntent (ascii "empty execution pointer"))
  else if intent.handoffStatus ≠ .enqueued then
    some (invalidIntent (ascii "handoff intent status must be enqueued"))
  else if intent.pendingSnapshotRevision = 0 then
    some (invalidIntent (ascii "zero pending snapshot revision"))
  else if intent.committedSnapshotRevision = 0 then
    some (invalidIntent (ascii "zero committed snapshot revision"))
  else if intent.snapshotRevision = 0 then some (invalidIntent (ascii "zero snapshot revision"))
  else if intent.resumeToken.threadID ≠ intent.threadID then
    some (invalidIntent (ascii "resume token thread mismatch"))
  else if intent.resumeToken.snapshotRevision ≠ intent.snapshotRevision then
    some (invalidIntent (ascii "resume token revision mismatch"))
  else if intent.snapshotRevision ≠ intent.committedSnapshotRevision then
    some (invalidIntent (ascii "snapshot revision does not match committed revision"))
  else if intent.committedSnapshotRevision < intent.pendingSnapshotRevision then
    some (invalidIntent (ascii "pending revision is after committed revision"))
  else none

def buildHandoffIntent (threadID : Text) (pointer : ExecutionPointer) (reason : Text) (status : HandoffStatus)
    (pendingRevision committedRevision : Nat) : HandoffIntent :=
  ⟨threadID,pointer,reason,status,pendingRevision,committedRevision,committedRevision,
    ⟨threadID,committedRevision⟩⟩

def newHandoffIntent (threadID : Text) (pointer : ExecutionPointer) (reason : Text) (status : HandoffStatus)
    (pendingRevision committedRevision : Nat) : Result HandoffIntent :=
  let intent := buildHandoffIntent threadID pointer reason status pendingRevision committedRevision
  (validateHandoffIntent intent).elim (.ok intent) .error

structure HandoffOutboxFSMResult where
  resumeToken : ResumeToken
  enqueueErr : Option Err
  patchErr : Option Err
  persistedStatus : HandoffStatus
  persistedPendingAt : Time

def persistedHandoffPendingAt (status : HandoffStatus) (pendingAt : Time) : Time :=
  if status = .pending then pendingAt else .zero

def wrapHandoffPatchFailed (err : Err) : Err := (Err.of .handoffPatchFailed).wrap err

def clearHandoffRunMeta (runMeta : RunMetadata) : RunMetadata :=
  { runMeta with handoffStatus := .none, handoffPendingAt := .zero }

def markEnqueued (runMeta : RunMetadata) : RunMetadata :=
  { runMeta with handoffStatus := .enqueued, handoffPendingAt := .zero }

def deriveHandoffTerminalReason (directiveReason : Text) (status : HandoffStatus) : Text :=
  if status = .orphaned then ascii "handoff_orphaned" else directiveReason

def joinErrs (e f : Option Err) : Option Err :=
  match e, f with
  | none, f => f
  | e, none => e
  | some e, some f => some (e.join f)

section Publication

variable {W A T E : Type}

def applyFSMPersistedHandoffMeta (result : ThreadResult T E) (fsm : HandoffOutboxFSMResult) :
    ThreadResult T E :=
  { result with runMeta := { result.runMeta with
      handoffStatus := fsm.persistedStatus
      handoffPendingAt := fsm.persistedPendingAt } }

def enqueueHandoffIntent (enqueue : HandoffIntent → W → Option Err × W) (intent : HandoffIntent)
    (env : Env W T E) : Option Err × Env W T E :=
  match validateHandoffIntent intent with
  | some err => (some err,env)
  | none =>
    let out := env.hand enqueue intent
    (out.1.map (Err.of .handoffEnqueueFailed).wrap,out.2)

namespace Runner

variable (r : Runner W A T E)

/-- State already has its persisted representation; only metadata changes. -/
def patchHandoffStatus (cp : Checkpointer W T E) (expectedRevision : Nat) (snapshot : ThreadSnapshot T E)
    (runMeta : RunMetadata) (status : HandoffStatus) (env : Env W T E) : Result Nat × Env W T E :=
  let at_ := if status = .pending then env.call r.host.now else (.zero,env)
  cp.save expectedRevision { snapshot with
    runMeta := { runMeta with handoffStatus := status, handoffPendingAt := at_.1 } } at_.2

/-- `none` is the panic of an intent that is not valid. -/
def runHandoffOutboxFSM (cp : Checkpointer W T E) (threadID : Text) (pendingRev : Nat)
    (snapshot : ThreadSnapshot T E) (runMeta : RunMetadata) (outbox : HandoffOutbox W)
    (resumePtr : ExecutionPointer) (reason : Text) (env : Env W T E) :
    Option (HandoffOutboxFSMResult × Env W T E) :=
  match r.patchHandoffStatus cp pendingRev snapshot runMeta .enqueued env with
  | (.error err,env) => some (⟨⟨threadID,pendingRev⟩,none,some (wrapHandoffPatchFailed err),.pending,
      persistedHandoffPendingAt .pending runMeta.handoffPendingAt⟩,env)
  | (.ok enqueuedRev,env) =>
    match newHandoffIntent threadID resumePtr reason .enqueued pendingRev enqueuedRev with
    | .error _ => none
    | .ok intent =>
      match enqueueHandoffIntent outbox.enqueueIntent intent env with
      | (some enqueueErr,env) =>
        match r.patchHandoffStatus cp enqueuedRev snapshot runMeta .orphaned env with
        | (.ok orphanRev,env) => some (⟨⟨threadID,orphanRev⟩,some enqueueErr,none,.orphaned,
            persistedHandoffPendingAt .orphaned runMeta.handoffPendingAt⟩,env)
        | (.error err,env) => some (⟨⟨threadID,enqueuedRev⟩,some enqueueErr,
            some (wrapHandoffPatchFailed err),.enqueued,
            persistedHandoffPendingAt .enqueued runMeta.handoffPendingAt⟩,env)
      | (none,env) => some (⟨⟨threadID,enqueuedRev⟩,none,none,.enqueued,.zero⟩,env)

def handoffAfterEnqueueFailure (threadID : Text) (result : ThreadResult T E) (enqueueErr : Option Err)
    (env : Env W T E) : (ThreadResult T E × Option Err) × Env W T E :=
  match r.applyRetentionPolicy threadID env with
  | (none,env) => ((result,enqueueErr),env)
  | (some err,env) => (({ result with reason := retentionFailedReason result.reason },
      joinErrs enqueueErr (some (.label "flowy: handoff retention failed: " err))),env)

/-- `signalSession` asks for the error that reports a skipped checkpoint. -/
def finalizeHandoffTerminal (threadID : Text) (result : ThreadResult T E) (signalSession persisted : Bool)
    (env : Env W T E) : (ThreadResult T E × Option Err) × Env W T E :=
  match if persisted then r.applyRetentionPolicy threadID env else (none,env) with
  | (some err,env) => (({ result with reason := retentionFailedReason result.reason },
      some (.label "flowy: handoff retention failed: " err)),env)
  | (none,env) =>
    ((result,if persisted = false ∧ signalSession = true then some (.of .checkpointSkipped) else none),env)

/-- The result to go on with, and whether the machine has failed and the run ends here. -/
def dispatchPersistedHandoffOutbox (cp : Checkpointer W T E) (threadID : Text) (pendingRev : Nat)
    (snapshot : ThreadSnapshot T E) (runMeta : RunMetadata) (outbox : HandoffOutbox W)
    (resumePtr : ExecutionPointer) (result : ThreadResult T E) (signalSession : Bool) (env : Env W T E) :
    Option ((ThreadResult T E × Option Err) × Env W T E) :=
  match r.runHandoffOutboxFSM cp threadID pendingRev snapshot runMeta outbox resumePtr result.reason env with
  | none => none
  | some (fsm,env) =>
    if fsm.enqueueErr.isSome || fsm.patchErr.isSome then
      let token := if fsm.resumeToken.threadID = [] then ⟨threadID,pendingRev⟩ else fsm.resumeToken
      let result := applyFSMPersistedHandoffMeta { result with resumeToken := token } fsm
      let reason := deriveHandoffTerminalReason result.reason fsm.persistedStatus
      some (r.handoffAfterEnqueueFailure threadID { result with reason := reason }
        (joinErrs fsm.enqueueErr fsm.patchErr) env)
    else some (r.finalizeHandoffTerminal threadID
      (applyFSMPersistedHandoffMeta { result with resumeToken := fsm.resumeToken } fsm) signalSession true env)

/-- The closure that a transaction runs: it enqueues the intent for the revision it was told. -/
def enqueueSaved (enqueueTx : HandoffIntent → W → Option Err × W) (threadID : Text) (pointer : ExecutionPointer)
    (reason : Text) (expectedRevision savedRevision : Nat) (env : Env W T E) : Result Nat × Env W T E :=
  if savedRevision ≠ expectedRevision + 1 then
    (.error (invalidIntent (ascii "transactional saved revision " ++ ascii (toString savedRevision) ++
      ascii " != expected " ++ ascii (toString (expectedRevision + 1)))),env)
  else match newHandoffIntent threadID pointer reason .enqueued savedRevision savedRevision with
    | .error err => (.error err,env)
    | .ok intent =>
      match enqueueHandoffIntent enqueueTx intent env with
      | (some err,env) => (.error err,env)
      | (none,env) => (.ok savedRevision,env)

/-- `none` when the checkpointer or the outbox is not transactional. -/
def tryTransactionalHandoffSave (inv : Invocation W T) (threadID : Text) (expectedRevision : Nat)
    (snapshot : ThreadSnapshot T E) (outbox : Option (HandoffOutbox W)) (result : ThreadResult T E)
    (env : Env W T E) : Option (Result (ThreadResult T E)) × Env W T E :=
  match r.checkpointer.filter (fun cp => cp.transactional), outbox.bind (fun o => o.enqueueIntentTx) with
  | some cp, some enqueueTx =>
    match r.prepareSnapshot inv { snapshot with runMeta := markEnqueued snapshot.runMeta } env with
    | (.error err,env) => (some (.error err),env)
    | (.ok prepared,env) =>
      match cp.saveWithOutbox expectedRevision prepared
          (enqueueSaved enqueueTx threadID snapshot.executionPointer result.reason expectedRevision) env with
      | ((.error err,_),env) => (some (.error err),env)
      | ((.ok newRev,validated),env) =>
        if validated = 0 then
          (some (.error (invalidIntent (ascii "transactional outbox callback was not called"))),env)
        else if newRev ≠ validated then
          (some (.error (invalidIntent (ascii "transactional returned revision " ++ ascii (toString newRev) ++
            ascii " != callback revision " ++ ascii (toString validated)))),env)
        else (some (.ok { result with
          resumeToken := ⟨threadID,newRev⟩
          runMeta := markEnqueued result.runMeta }),env)
  | _, _ => (none,env)

def handoffSaveFailed (label : String) (state : T) (effects : List E) (runMeta : RunMetadata) (pointer : Text)
    (err : Err) (env : Env W T E) : (ThreadResult T E × Option Err) × Env W T E :=
  let failed := newRunResultFailed r.host state effects runMeta pointer (ascii "handoff_save_failed") env
  (({ failed.1 with runMeta := clearHandoffRunMeta failed.1.runMeta },some (.label label err)),failed.2)

def saveHandoff (inv : Invocation W T) (threadID : Text) (revision : Nat) (snapshot : ThreadSnapshot T E)
    (outbox : Option (HandoffOutbox W)) (result : ThreadResult T E) (signalSession : Bool) (env : Env W T E) :
    Option ((ThreadResult T E × Option Err) × Env W T E) :=
  match r.persistSnapshotPrepared inv revision snapshot env with
  | (.error err,env) => some (r.handoffSaveFailed "flowy: handoff save failed: " snapshot.state snapshot.effects
      snapshot.runMeta snapshot.executionPointer err env)
  | (.ok none,env) =>
    let skipped := { result with
      reason := ascii "handoff_checkpoint_skipped"
      runMeta := if outbox.isSome then clearHandoffRunMeta result.runMeta else result.runMeta }
    some (r.finalizeHandoffTerminal threadID skipped signalSession false env)
  | (.ok (some (prepared,newRev)),env) =>
    let result := { result with resumeToken := ⟨threadID,newRev⟩ }
    match outbox, r.checkpointer with
    | some outbox, some cp => r.dispatchPersistedHandoffOutbox cp threadID newRev prepared snapshot.runMeta
        outbox snapshot.executionPointer result signalSession env
    | _, _ => some (r.finalizeHandoffTerminal threadID result signalSession true env)

def completeHandoffTerminal [Quoting] (inv : Invocation W T) (threadID current : Text) (state : T)
    (runMeta : RunMetadata) (effects : List E) (revision : Nat) (reason : Text) (resumeAt : ExecutionPointer)
    (signalSession : Bool) (env : Env W T E) : Option ((ThreadResult T E × Option Err) × Env W T E) :=
  let telemetry := env.call r.host.telemetry
  let ended := telemetry.2.call r.host.now
  let runMeta := { runMeta with telemetryContext := telemetry.1 }.ended ended.1 .handoff
  let resumePtr := if resumeAt = [] then current else resumeAt
  match r.graph.validateExecutionPointer resumePtr with
  | some err =>
    let failed := newRunResultFailed r.host state effects runMeta current
      (ascii "handoff_resume_target_invalid") ended.2
    some ((failed.1,some (.label "flowy: handoff resume target invalid: " err)),failed.2)
  | none =>
    let outbox := r.resolveHandoffOutbox inv
    let pending := if outbox.isSome then ended.2.call r.host.now else (.zero,ended.2)
    let runMeta := { runMeta with
      handoffStatus := if outbox.isSome then .pending else .none
      handoffPendingAt := pending.1 }
    let result := newRunResult .handoff state effects runMeta resumePtr reason
    let snapshot : ThreadSnapshot T E := ⟨⟨threadID,resumePtr,state,runMeta,effects⟩,0⟩
    match r.tryTransactionalHandoffSave inv threadID revision snapshot outbox result pending.2 with
    | (some (.error err),env) => some (r.handoffSaveFailed "flowy: transactional handoff failed: " state effects
        runMeta resumePtr err env)
    | (some (.ok result),env) => some (r.finalizeHandoffTerminal threadID result signalSession true env)
    | (none,env) => r.saveHandoff inv threadID revision snapshot outbox result signalSession env

end Runner
end Publication

/-! Recovery of what a handoff left behind. -/

/-- `unset` is the status of a decision that was never made. -/
inductive ResumeDecisionStatus
  | unset | ready | invalidToken | threadNotFound | staleToken | invalidSnapshot | loadFailed | handoffPending
  | handoffRecoverable | handoffAlreadyScheduled | handoffNotRecoverable
deriving DecidableEq, Repr

structure ResumeDecision (T E : Type) where
  status : ResumeDecisionStatus
  threadID : Text
  resumeToken : ResumeToken
  snapshot : ThreadSnapshot T E
  snapshotRevision : Nat
  executionPointer : ExecutionPointer
  handoffStatus : HandoffStatus
  reason : Text
  err : Option Err
  state : T
  runMeta : RunMetadata
  effects : List E

def newResumeDecision {T E : Type} (status : ResumeDecisionStatus) (token : ResumeToken)
    (snapshot : ThreadSnapshot T E) (revision : Nat) (pointer : ExecutionPointer) (reason : Text)
    (err : Option Err) : ResumeDecision T E :=
  ⟨status,snapshot.threadID,token,snapshot,revision,pointer,snapshot.runMeta.handoffStatus,reason,err,
    snapshot.state,snapshot.runMeta,snapshot.effects⟩

def resumeDecisionStatusForError (err : Err) : ResumeDecisionStatus × Text :=
  if err.is .threadNotFound then (.threadNotFound,ascii "thread_not_found")
  else if err.is .invalidSnapshot || err.is .snapshotEnvelopeInvalid then
    (.invalidSnapshot,ascii "invalid_snapshot")
  else (.loadFailed,ascii "load_failed")

def snapshotEnvelopeInvalid : Err :=
  ⟨Sentinel.snapshotEnvelopeInvalid.message,[.snapshotEnvelopeInvalid,.invalidSnapshot]⟩

def ensureSnapshotEnvelopeInvalid (err : Err) : Err :=
  if err.is .snapshotEnvelopeInvalid then err else snapshotEnvelopeInvalid.wrap err

structure HandoffRecoveryResult (T E : Type) where
  decision : ResumeDecision T E
  resumeToken : ResumeToken
  snapshotRevision : Nat
  handoffStatus : HandoffStatus
  recovered : Bool

inductive RecoverStaleHandoffOption (W : Type)
  | staleAfter (d : Duration)
  | outbox (outbox : Option (HandoffOutbox W))
  | forceReenqueue (force : Bool)

structure RecoverOptions (W : Type) where
  staleAfter : Duration
  outbox : Option (HandoffOutbox W)
  forceReenqueue : Bool

def RecoverOptions.apply {W : Type} (o : RecoverOptions W) : RecoverStaleHandoffOption W → RecoverOptions W
  | .staleAfter d => { o with staleAfter := d }
  | .outbox outbox => { o with outbox := outbox }
  | .forceReenqueue force => { o with forceReenqueue := force }

def defaultHandoffStaleAfter : Duration := 300000000000

/-- No freshness timestamp means recoverable immediately. -/
def isHandoffPendingStale (pendingAt : Time) (staleAfter : Duration) (now : Time) : Bool :=
  pendingAt.isZero || staleAfter < now.ns - pendingAt.ns

def normalizeRecoveryFSMResult (initial : RunMetadata) (fsm : HandoffOutboxFSMResult) :
    HandoffOutboxFSMResult :=
  if fsm.patchErr.isSome ∧ fsm.persistedStatus = .pending ∧ initial.handoffStatus ≠ .pending then
    { fsm with persistedStatus := initial.handoffStatus, persistedPendingAt := initial.handoffPendingAt }
  else fsm

def wrapHandoffPatchRecoveryErr (err : Err) : Err :=
  if err.is .concurrencyConflict then
    (Err.of .handoffPatchFailed).wrap (.label "recovery patch concurrency conflict: " err)
  else err

section Recovery

variable {W A T E : Type}

def recoveryResultFromDecision (decision : ResumeDecision T E) : HandoffRecoveryResult T E :=
  ⟨decision,decision.resumeToken,decision.snapshotRevision,decision.handoffStatus,false⟩

def applyFSMHandoffRecoveryResult (result : HandoffRecoveryResult T E) (fsm : HandoffOutboxFSMResult) :
    HandoffRecoveryResult T E :=
  let result := if fsm.resumeToken.threadID = [] then result else
    { result with
      resumeToken := fsm.resumeToken
      decision := { result.decision with resumeToken := fsm.resumeToken } }
  let result := if fsm.resumeToken.snapshotRevision = 0 then result else
    { result with
      snapshotRevision := fsm.resumeToken.snapshotRevision
      decision := { result.decision with
        snapshotRevision := fsm.resumeToken.snapshotRevision
        snapshot := { result.decision.snapshot with revision := fsm.resumeToken.snapshotRevision } } }
  if fsm.persistedStatus = .none then result else
    { result with
      handoffStatus := fsm.persistedStatus
      decision := { result.decision with
        handoffStatus := fsm.persistedStatus
        runMeta := { result.decision.runMeta with
          handoffStatus := fsm.persistedStatus, handoffPendingAt := fsm.persistedPendingAt }
        snapshot := { result.decision.snapshot with
          runMeta := { result.decision.snapshot.runMeta with
            handoffStatus := fsm.persistedStatus, handoffPendingAt := fsm.persistedPendingAt } } } }

section Normalized

variable [Quoting]

def normalizeLoadedSnapshot (threadID : Text) (snapshot : ThreadSnapshot T E) (revision : Nat) :
    ThreadSnapshot T E × Option Err :=
  if threadID = [] then (snapshot,some ((Err.of .invalidSnapshot).wrap ⟨ascii "empty thread ID",[]⟩))
  else if snapshot.threadID ≠ [] ∧ snapshot.threadID ≠ threadID then
    (snapshot,some ((Err.of .invalidSnapshot).wrap ⟨ascii "snapshot thread " ++
      Quoting.quoted snapshot.threadID ++ ascii " != requested thread " ++ Quoting.quoted threadID,[]⟩))
  else
    let snapshot := { snapshot with threadID := threadID }
    if revision = 0 then
      (snapshot,some ((Err.of .invalidSnapshot).wrap ⟨ascii "zero snapshot revision",[]⟩))
    else if snapshot.revision ≠ 0 ∧ snapshot.revision ≠ revision then
      (snapshot,some ((Err.of .invalidSnapshot).wrap
        ⟨ascii "snapshot revision " ++ ascii (toString snapshot.revision) ++ ascii " != storage revision " ++
          ascii (toString revision),[]⟩))
    else
      let snapshot := { snapshot with revision := revision }
      if snapshot.executionPointer = [] then
        (snapshot,some ((Err.of .invalidSnapshot).wrap ⟨ascii "empty execution pointer",[]⟩))
      else (snapshot,none)

/-- The zero values stand for a snapshot that was not loaded. -/
def zeroSnapshot [Inhabited T] : ThreadSnapshot T E :=
  ⟨⟨[],[],default,⟨⟨[],.zero,.zero,.unset⟩,.zero,∅,∅,0,∅,.none,.zero⟩,[]⟩,0⟩

def Checkpointer.loadNormalizedSnapshot [Inhabited T] (cp : Checkpointer W T E) (threadID : Text)
    (env : Env W T E) : (ThreadSnapshot T E × Nat × Option Err) × Env W T E :=
  match cp.load threadID env with
  | (.error err,env) =>
    let err := if err.is .threadNotFound then err
      else if err.is .snapshotEnvelopeInvalid || err.is .invalidSnapshot then
        ensureSnapshotEnvelopeInvalid err
      else err
    ((zeroSnapshot,0,some err),env)
  | (.ok snapshot,env) =>
    let normalized := normalizeLoadedSnapshot threadID snapshot snapshot.revision
    ((normalized.1,snapshot.revision,normalized.2.map ensureSnapshotEnvelopeInvalid),env)

namespace Runner

variable (r : Runner W A T E)

/-- A duration that is not positive selects the default. -/
def recoverStaleHandoffConfig (opts : List (RecoverStaleHandoffOption W)) : RecoverOptions W :=
  let o := opts.foldl RecoverOptions.apply ⟨r.handoffStaleAfter,r.handoffOutbox,false⟩
  if o.staleAfter ≤ 0 then { o with staleAfter := defaultHandoffStaleAfter } else o

def readForRecovery (snapshot : ThreadSnapshot T E) (env : Env W T E) : Time × Env W T E :=
  if snapshot.runMeta.handoffStatus = .pending ∧ snapshot.runMeta.handoffPendingAt.isZero = false then
    env.call r.host.now
  else (.zero,env)

def recoverable (snapshot : ThreadSnapshot T E) (opts : RecoverOptions W) (now : Time) :
    ResumeDecisionStatus × Text × Option Err :=
  match snapshot.runMeta.handoffStatus with
  | .orphaned => (.handoffRecoverable,ascii "handoff_orphaned",some (.of .handoffOrphaned))
  | .pending =>
    if isHandoffPendingStale snapshot.runMeta.handoffPendingAt opts.staleAfter now then
      (.handoffRecoverable,ascii "handoff_pending_stale",some (.of .handoffPending))
    else (.handoffPending,ascii "handoff_pending",some (.of .handoffPending))
  | .enqueued =>
    if opts.forceReenqueue then (.handoffRecoverable,ascii "handoff_force_reenqueue",none)
    else (.handoffAlreadyScheduled,ascii "handoff_already_enqueued",some (.of .handoffAlreadyEnqueued))
  | .none => (.handoffNotRecoverable,ascii "handoff_status_none",some (.of .handoffNotRecoverable))

def evaluateHandoffRecovery [Inhabited T] (cp : Checkpointer W T E) (threadID : Text) (opts : RecoverOptions W)
    (env : Env W T E) : ResumeDecision T E × Env W T E :=
  if threadID = [] then
    (newResumeDecision .invalidToken .unset zeroSnapshot 0 [] (ascii "empty_thread_id")
      (some (.of .invalidResumeToken)),env)
  else match cp.loadNormalizedSnapshot threadID env with
    | ((snapshot,revision,some err),env) =>
      ({ newResumeDecision (resumeDecisionStatusForError err).1 ⟨threadID,revision⟩ snapshot revision
          snapshot.executionPointer (resumeDecisionStatusForError err).2 (some err) with
        threadID := threadID },env)
    | ((snapshot,revision,none),env) =>
      match r.graph.validateExecutionPointer snapshot.executionPointer with
      | some err => (newResumeDecision .invalidSnapshot ⟨threadID,revision⟩ snapshot revision
          snapshot.executionPointer
          (if snapshot.executionPointer = [] then ascii "invalid_snapshot" else ascii "invalid_pointer")
          (some err),env)
      | none =>
        let now := r.readForRecovery snapshot env
        let verdict := recoverable snapshot opts now.1
        (newResumeDecision verdict.1 ⟨threadID,revision⟩ snapshot revision snapshot.executionPointer
          verdict.2.1 verdict.2.2,now.2)

def recoverHandoffEnqueue (cp : Checkpointer W T E) (threadID : Text) (snapshot : ThreadSnapshot T E)
    (expectedRevision : Nat) (outbox : HandoffOutbox W) (env : Env W T E) :
    Option ((HandoffOutboxFSMResult × Option Err) × Env W T E) :=
  match r.runHandoffOutboxFSM cp threadID expectedRevision snapshot snapshot.runMeta outbox
      snapshot.executionPointer (ascii "handoff_recovery") env with
  | none => none
  | some (fsm,env) =>
    let fsm := normalizeRecoveryFSMResult snapshot.runMeta fsm
    let err := if fsm.enqueueErr.isSome then joinErrs fsm.enqueueErr fsm.patchErr
      else fsm.patchErr.map wrapHandoffPatchRecoveryErr
    some ((fsm,err),env)

def recoverStaleHandoff [Inhabited T] (threadID : Text) (opts : List (RecoverStaleHandoffOption W))
    (env : Env W T E) : Option ((HandoffRecoveryResult T E × Option Err) × Env W T E) :=
  let opts := r.recoverStaleHandoffConfig opts
  match r.checkpointer with
  | none =>
    let decision := newResumeDecision .unset .unset (zeroSnapshot : ThreadSnapshot T E) 0 [] [] none
    some ((recoveryResultFromDecision decision,
      some ⟨ascii "flowy: checkpointer is required for EvaluateHandoffRecovery",[]⟩),env)
  | some cp =>
    let evaluated := r.evaluateHandoffRecovery cp threadID opts env
    let result := recoveryResultFromDecision evaluated.1
    if evaluated.1.status ≠ .handoffRecoverable then some ((result,evaluated.1.err),evaluated.2)
    else match opts.outbox with
      | none =>
        let decision := { evaluated.1 with
          reason := ascii "handoff_outbox_required", err := some (.of .handoffOutboxRequired) }
        some (({ result with decision := decision },some (.of .handoffOutboxRequired)),evaluated.2)
      | some outbox =>
        match r.recoverHandoffEnqueue cp threadID evaluated.1.snapshot evaluated.1.snapshotRevision outbox
            evaluated.2 with
        | none => none
        | some ((fsm,err),env) =>
          let result := applyFSMHandoffRecoveryResult result fsm
          some (({ result with recovered := err.isNone },err),env)

end Runner
end Normalized
end Recovery
end Flowy
