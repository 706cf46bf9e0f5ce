import Flowy.Graph.Execute

/-! Starting and resuming ordinary threads. A segment is one call: it is refused before the loop, or the
loop runs and the cleanup follows. -/
namespace Flowy

/-- The outcome of a `Start` or `Resume`; a refused call has no result. -/
structure Segment (W A T E : Type) where
  result : Option (ThreadResult T E)
  err : Option Err
  points : List (Point W A T)

def ResumePlan.resolve (p : ResumePlan) (current : ExecutionPointer) : Result ExecutionPointer :=
  if p.useCurrent then .ok current
  else if p.target = [] then fail .invalidResumePlan
  else .ok p.target

def appliesTerminalPolicies (status : RunStatus) : Bool := status == .completed || status == .failed

section Segments

variable {W A T E : Type}

def Invocation.mergeRunMetadata (inv : Invocation W T) (runMeta : RunMetadata) : RunMetadata :=
  { runMeta with
    budgetCounts := inv.budgetCounts.entries.foldl (fun m e => m.set e.1 e.2) runMeta.budgetCounts
    telemetryContext := inv.telemetryContext.entries.foldl (fun m e => m.set e.1 e.2)
      runMeta.telemetryContext }

def Host.newSegmentInfo (host : Host W) (env : Env W T E) : SegmentInfo × Env W T E :=
  let now := env.call host.now
  (⟨host.segmentID now.1,now.1,.zero,.unset⟩,now.2)

/-- `newRunMetadata`; the clock is read for the metadata and again for the segment. -/
def Host.freshRunMetadata (host : Host W) (env : Env W T E) : RunMetadata × Env W T E :=
  let now := env.call host.now
  let segment := host.newSegmentInfo now.2
  (⟨segment.1,now.1,∅,∅,0,∅,.none,.zero⟩,segment.2)

def Host.resetSegmentCounters (host : Host W) (runMeta : RunMetadata) (env : Env W T E) :
    RunMetadata × Env W T E :=
  let segment := host.newSegmentInfo env
  let now := segment.2.call host.now
  ({ runMeta with segment := segment.1, segmentStartTime := now.1, stepCount := 0 },now.2)

def afterLoadAll : List (StateInterceptor W T) → T → W → Result T × W
  | [], state, w => (.ok state,w)
  | interceptor :: rest, state, w =>
    match interceptor.afterLoad state w with
    | (.error err,w) => (.error (.label "flowy: after_load interceptor: " err),w)
    | (.ok state,w) => afterLoadAll rest state w

/-- The state and the pointer to resume at; a failed policy leaves the state as it was. -/
def Invocation.applyResumeTargetPolicy (inv : Invocation W T) (state : T) (current : ExecutionPointer)
    (env : Env W T E) : Result (T × ExecutionPointer) × Env W T E :=
  match inv.resumeTargetPolicy with
  | none => (.ok (state,current),env)
  | some policy =>
    match env.call (policy state current) with
    | (.error err,env) => (.error ((Err.of .resumeTargetPolicyFailed).wrap err),env)
    | (.ok (next,plan),env) =>
      match plan.resolve current with
      | .error err => (.error ((Err.of .resumeTargetPolicyFailed).wrap err),env)
      | .ok pointer => (.ok (next,pointer),env)

def Invocation.overlaid (inv : Invocation W T) (state : T) : Result T :=
  match inv.overlay with
  | none => .ok state
  | some overlay =>
    match inv.overlayMerger with
    | none => fail .overlayMergerRequired
    | some merger => .ok (merger state overlay)

/-- A handoff that was enqueued is over once its thread is resumed. -/
def RunMetadata.settled (runMeta : RunMetadata) : RunMetadata :=
  if runMeta.handoffStatus = .enqueued then
    { runMeta with handoffStatus := .none, handoffPendingAt := .zero }
  else runMeta

namespace Runner

variable [Quoting] (r : Runner W A T E) (inv : Invocation W T)

omit [Quoting] in
/-- `resolveRunOptions`: an atomic handoff needs a transactional checkpointer and outbox. -/
def rejectedOptions : Option Err :=
  if inv.atomicHandoff then
    if r.checkpointer.any (fun cp => cp.transactional) &&
        (r.resolveHandoffOutbox inv).any (fun outbox => outbox.enqueueIntentTx.isSome) then none
    else some (.of .transactionalOutboxUnsupported)
  else none

def handoffRefusal (snapshot : ThreadSnapshot T E) (now : Time) :
    Option (ResumeDecisionStatus × Text × Err) :=
  match snapshot.runMeta.handoffStatus with
  | .none | .enqueued => none
  | .pending =>
    if isHandoffPendingStale snapshot.runMeta.handoffPendingAt r.handoffStaleAfter now then
      some (.handoffRecoverable,ascii "handoff_pending_stale",.of .handoffPending)
    else some (.handoffPending,ascii "handoff_pending",.of .handoffPending)
  | .orphaned => some (.handoffRecoverable,ascii "handoff_orphaned",.of .handoffOrphaned)

def resumeTarget (token : ResumeToken) (snapshot : ThreadSnapshot T E) (revision : Nat) (env : Env W T E) :
    ResumeDecision T E × Env W T E :=
  let refused (pointer : ExecutionPointer) (reason : String) (err : Err) : ResumeDecision T E :=
    newResumeDecision .invalidSnapshot token snapshot revision pointer (ascii reason) (some err)
  match env.call (afterLoadAll r.interceptors snapshot.state) with
  | (.error err,env) => (refused snapshot.executionPointer "after_load_failed" err,env)
  | (.ok state,env) =>
    match inv.overlaid state with
    | .error err => (refused snapshot.executionPointer "overlay_merger_required" err,env)
    | .ok state =>
      let reset := r.host.resetSegmentCounters snapshot.runMeta.settled env
      let runMeta := inv.mergeRunMetadata reset.1
      match inv.applyResumeTargetPolicy state snapshot.executionPointer reset.2 with
      | (.error err,env) => ({ refused [] "resume_target_policy_failed" err with
          state := state, runMeta := runMeta },env)
      | (.ok (state,pointer),env) =>
        if pointer = [] then ({ refused pointer "invalid_snapshot" (.of .invalidSnapshot) with
          state := state, runMeta := runMeta },env)
        else if (r.graph.nodes.get? pointer).isSome then
          ({ newResumeDecision .ready token snapshot revision pointer (ascii "ready") none with
            state := state, runMeta := runMeta },env)
        else ({ refused pointer "invalid_pointer" (invalidResumePointerError pointer) with
          state := state, runMeta := runMeta },env)

def evaluateResume [Inhabited T] (cp : Checkpointer W T E) (token : ResumeToken) (env : Env W T E) :
    ResumeDecision T E × Env W T E :=
  if token.threadID = [] then
    let fresh := r.host.freshRunMetadata env
    (newResumeDecision .invalidToken token ⟨⟨[],[],default,fresh.1,[]⟩,0⟩ 0 [] (ascii "empty_token")
      (some ((Err.of .invalidResumeToken).wrap ⟨ascii "empty thread ID",[]⟩)),fresh.2)
  else match cp.loadNormalizedSnapshot token.threadID env with
    | ((snapshot,revision,some err),env) =>
      ({ newResumeDecision (resumeDecisionStatusForError err).1 token snapshot revision
          snapshot.executionPointer (resumeDecisionStatusForError err).2 (some err) with
        threadID := token.threadID },env)
    | ((snapshot,revision,none),env) =>
      if token.snapshotRevision = 0 then
        (newResumeDecision .invalidToken token snapshot revision snapshot.executionPointer
          (ascii "zero_revision") (some (.of .concurrencyConflict)),env)
      else if token.snapshotRevision ≠ revision then
        (newResumeDecision .staleToken ⟨token.threadID,revision⟩ snapshot revision snapshot.executionPointer
          (ascii "stale_token") (some ((Err.of .concurrencyConflict).wrap
            ⟨ascii "resume token snapshot revision " ++ ascii (toString token.snapshotRevision) ++
              ascii ", snapshot revision " ++ ascii (toString revision),[]⟩)),env)
      else
        let now := r.readForRecovery snapshot env
        match r.handoffRefusal snapshot now.1 with
        | some (status,reason,err) =>
          (newResumeDecision status token snapshot revision snapshot.executionPointer reason (some err),now.2)
        | none => r.resumeTarget inv token snapshot revision now.2

omit [Quoting] in
def applyTerminalPolicies (threadID : Text) (status : RunStatus) (env : Env W T E) :
    Option Err × Env W T E :=
  match r.checkpointer with
  | none => (none,env)
  | some cp =>
    if status = .completed ∧ r.graph.defaults.deleteOnSuccess = true then cp.deleteIfIdle threadID env
    else r.applyRetentionPolicy threadID env

omit [Quoting] in
def postRunCleanup (threadID : Text) (result : Option (ThreadResult T E)) (env : Env W T E) :
    Option Err × Env W T E :=
  let released := env.call (r.host.releaseLease threadID)
  let policy : Option Err × Env W T E := match result with
    | none => (none,released.2)
    | some result =>
      if threadID ≠ [] ∧ appliesTerminalPolicies result.status = true then
        r.applyTerminalPolicies threadID result.status released.2
      else (none,released.2)
  ((joinErrs released.1 policy.1).map (Err.of .runCleanup).wrap,policy.2)

omit [Quoting] in
def cleaned (threadID : Text) (segment : Segment W A T E) (env : Env W T E) :
    Segment W A T E × Env W T E :=
  let cleanup := r.postRunCleanup threadID segment.result env
  ({ segment with err := joinErrs segment.err cleanup.1 },cleanup.2)

def refuse (err : Err) : Segment W A T E := ⟨none,some err,[]⟩

section Calls

variable [AnyValue A E] (sink : EventSink W T E)

/-- `execute` behind the session guard of the runner. -/
def runSession (threadID : Text) (revision : Nat) (c : Cursor T E) (env : Env W T E) :
    Option (Segment W A T E × Env W T E) :=
  match env.call (r.host.running threadID) with
  | (true,env) => some (refuse ((Err.of .threadAlreadyRunning).wrap
      ⟨ascii "thread " ++ Quoting.quoted threadID,[]⟩),env)
  | (false,env) => (r.execute inv threadID revision sink c env).map fun out =>
      (⟨some out.1.1.1,out.1.1.2,out.1.2⟩,out.2)

def start (threadID : Text) (initialState : T) (env : Env W T E) : Option (Segment W A T E × Env W T E) :=
  if threadID = [] then some (refuse ((Err.of .invalidResumeToken).wrap ⟨ascii "empty thread ID",[]⟩),env)
  else match r.rejectedOptions inv with
    | some err => some (refuse err,env)
    | none =>
      match env.call (r.host.acquireLease threadID) with
      | (some err,env) => some (refuse err,env)
      | (none,env) =>
        let fresh := r.host.freshRunMetadata env
        let cursor := ⟨r.graph.entryPoint,initialState,inv.mergeRunMetadata fresh.1,[]⟩
        (r.runSession inv sink threadID 0 cursor fresh.2).map fun out => r.cleaned threadID out.1 out.2

def resume [Inhabited T] (token : ResumeToken) (env : Env W T E) : Option (Segment W A T E × Env W T E) :=
  match r.checkpointer with
  | none => some (refuse ⟨ascii "flowy: checkpointer is required for Resume",[]⟩,env)
  | some cp =>
    if token.threadID = [] then
      some (refuse ((Err.of .invalidResumeToken).wrap ⟨ascii "empty thread ID",[]⟩),env)
    else match r.rejectedOptions inv with
      | some err => some (refuse err,env)
      | none =>
        match env.call (r.host.acquireLease token.threadID) with
        | (some err,env) => some (refuse err,env)
        | (none,env) =>
          let evaluated := r.evaluateResume inv cp token env
          match evaluated.1.err with
          | some err => some (r.cleaned token.threadID (refuse err) evaluated.2)
          | none =>
            let cursor := ⟨evaluated.1.executionPointer,evaluated.1.state,evaluated.1.runMeta,
              evaluated.1.effects⟩
            (r.runSession inv sink token.threadID evaluated.1.snapshotRevision cursor evaluated.2).map
              fun out => r.cleaned token.threadID out.1 out.2

end Calls
end Runner
end Segments
end Flowy
