import Flowy.Graph.Handoff

/-! The loop of an ordinary run. One turn looks for an interruption, runs the current node and applies the
directive it returned; the run ends with a result or goes on at another node. The points a run passes are
recorded beside its result. -/
namespace Flowy

inductive Route
  | edge | conditional | retry
deriving DecidableEq, Repr

/-- What a run did, in order. `missing` is the branch for a node that is not registered, `stranded` the one
for a completed node without an outgoing edge. -/
inductive Point (W A T : Type)
  | missing (node : Text)
  | invoked (node : Text) (ctx : NodeContext) (state : T) (world : W)
  | applied (node : Text) (base : Directive A)
  | stranded (node : Text)
  | followed (node : Text) (route : Route) (target : Text)

/-- Progress events; terminal ones do not influence the run. -/
inductive RunEvent (T E : Type)
  | nodeStarted (pointer : Text) (state : T)
  | nodeCompleted (pointer : Text) (state : T) (effect : Option E)

structure Cursor (T E : Type) where
  current : Text
  state : T
  runMeta : RunMetadata
  effects : List E

inductive NodeStep (A T E : Type)
  | failed (cursor : Cursor T E) (err : Err) (reason : Text)
  | emitCanceled (cursor : Cursor T E)
  | stepped (cursor : Cursor T E) (base : Directive A)

/-- What a directive makes of the run; the counters of a node live in the metadata. -/
inductive Next (T E : Type)
  | proceed (target : Text) (runMeta : RunMetadata)
  | finish (result : ThreadResult T E) (err : Option Err)

inductive Interruption
  | handoff | leaseLost | canceled (err : Err)

inductive Turn (T E : Type)
  | again (cursor : Cursor T E)
  | done (result : ThreadResult T E) (err : Option Err)

section Loop

variable {W A T E : Type}

abbrev EventSink (W T E : Type) := Option (RunEvent T E → W → Bool × W)

def emitEvent (sink : EventSink W T E) (event : RunEvent T E) (env : Env W T E) : Bool × Env W T E :=
  sink.elim (true,env) fun sink => env.call (sink event)

def emitCompleted (sink : EventSink W T E) (pointer : Text) (state : T) :
    List E → Env W T E → Bool × Env W T E
  | [], env => emitEvent sink (.nodeCompleted pointer state none) env
  | [effect], env => emitEvent sink (.nodeCompleted pointer state (some effect)) env
  | effect :: effects, env =>
    match emitEvent sink (.nodeCompleted pointer state (some effect)) env with
    | (false,env) => (false,env)
    | (true,env) => emitCompleted sink pointer state effects env

/-- The reason a failed node is reported under; `unwrapped` is the text of the error inside. -/
def failReasonForStepErr (err : Err) (unwrapped : Option Text) : Text :=
  unwrapped.elim err.message fun inner =>
    if (ascii "flowy: node ").isPrefixOf err.message then inner else err.message

def checkBudgetLimits (runMeta : RunMetadata) (limits : GoMap Text Int) : Bool :=
  limits.all fun name limit => limit ≤ 0 || (runMeta.budgetCounts.get? name).getD 0 ≤ limit

def Host.canceledBy (host : Host W) (cause : Sentinel) (env : Env W T E) : Bool × Env W T E :=
  let out := env.call host.canceled
  (out.1.any fun c => c.cause.is cause,out.2)

/-- The three questions a run asks its context before and after a node. -/
def Host.interruption (host : Host W) (env : Env W T E) : Option Interruption × Env W T E :=
  match host.canceledBy .handoffRequested env with
  | (true,env) => (some .handoff,env)
  | (false,env) =>
    match host.canceledBy .leaseLost env with
    | (true,env) => (some .leaseLost,env)
    | (false,env) =>
      let out := env.call host.canceled
      (out.1.map fun c => .canceled c.err,out.2)

namespace Runner

variable [Quoting] (r : Runner W A T E) (inv : Invocation W T) (threadID : Text) (revision : Nat)

def fail (c : Cursor T E) (reason : Text) (env : Env W T E) : ThreadResult T E × Env W T E :=
  let now := env.call r.host.now
  newRunResultFailed r.host c.state c.effects (c.runMeta.ended now.1 .fail) c.current reason now.2

def failUnmarked (c : Cursor T E) (reason : Text) (env : Env W T E) : ThreadResult T E × Env W T E :=
  newRunResultFailed r.host c.state c.effects c.runMeta c.current reason env

/-- `telemetry` and the end of the segment, as a result that stores a snapshot carries them. -/
def endSegment (c : Cursor T E) (reason : SegmentEndReason) (env : Env W T E) : RunMetadata × Env W T E :=
  let telemetry := env.call r.host.telemetry
  let now := telemetry.2.call r.host.now
  ({ c.runMeta with telemetryContext := telemetry.1 }.ended now.1 reason,now.2)

def handleContextCancellation (c : Cursor T E) (ctxErr : Err) (consumerClose : Bool) (env : Env W T E) :
    (ThreadResult T E × Option Err) × Env W T E :=
  let ended := r.endSegment c .contextCanceled env
  let result := newRunResult .contextCanceled c.state c.effects ended.1 c.current (ascii "context_canceled")
  match r.persistSnapshotPrepared inv revision ⟨⟨threadID,c.current,c.state,ended.1,c.effects⟩,0⟩ ended.2 with
  | (.error err,env) => (({ result with reason := ascii "context_canceled_save_failed" },
      some (.label "flowy: context canceled and save failed: " err)),env)
  | (.ok none,env) =>
    let alive := env.call r.host.canceled
    (({ result with reason := ascii "context_canceled_checkpoint_skipped" },
      some (if consumerClose || alive.1.isNone then .of .checkpointSkipped else .label "flowy: " ctxErr)),
      alive.2)
  | (.ok (some (_,newRev)),env) =>
    let result := { result with resumeToken := ⟨threadID,newRev⟩ }
    match r.applyRetentionPolicy threadID env with
    | (some err,env) => (({ result with reason := retentionFailedReason result.reason },
        some (.label "flowy: context canceled, retention failed: " err)),env)
    | (none,env) => ((result,some (.label "flowy: " ctxErr)),env)

def handleHandoff (c : Cursor T E) (env : Env W T E) :
    Option ((ThreadResult T E × Option Err) × Env W T E) :=
  let cause := env.call r.host.canceled
  let reason := cause.1.elim (ascii "background_handoff") fun cancellation =>
    if cancellation.cause.is .handoffRequested then ascii "background_handoff" else cancellation.cause.message
  r.completeHandoffTerminal inv threadID c.current c.state c.runMeta c.effects revision reason [] true cause.2

def leaseLost (c : Cursor T E) (env : Env W T E) : (ThreadResult T E × Option Err) × Env W T E :=
  let failed := r.fail c Sentinel.leaseLost.message env
  ((failed.1,some (.of .leaseLost)),failed.2)

def interrupt (c : Cursor T E) (env : Env W T E) :
    Interruption → Option ((ThreadResult T E × Option Err) × Env W T E)
  | .handoff => r.handleHandoff inv threadID revision c env
  | .leaseLost => some (r.leaseLost c env)
  | .canceled err =>
    let closed := env.call r.host.consumerClosed
    some (r.handleContextCancellation inv threadID revision c err closed.1 closed.2)

section Node

variable [AnyValue A E] (sink : EventSink W T E)

def runNodeStep (c : Cursor T E) (env : Env W T E) : (NodeStep A T E × List (Point W A T)) × Env W T E :=
  match r.graph.nodes.get? c.current with
  | none =>
    let err : Err := naming "flowy: node " c.current " not found"
    ((.failed c err (failReasonForStepErr err none),[.missing c.current]),env)
  | some handler =>
    match emitEvent sink (.nodeStarted c.current c.state) env with
    | (false,env) => ((.emitCanceled c,[]),env)
    | (true,env) =>
      let ctx : NodeContext := ⟨threadID,c.current,c.runMeta.budgetCounts⟩
      let points := [.invoked c.current ctx c.state env.world]
      let called := env.call (handler ctx c.state)
      let ran := { c with runMeta := { c.runMeta with
        stepCount := c.runMeta.stepCount + 1
        budgetCounts := called.1.budgets } }
      match called.1.answer with
      | .error inner =>
        let err : Err := ⟨ascii "flowy: node " ++ Quoting.quoted c.current ++ ascii ": " ++ inner.message,
          inner.wraps⟩
        ((.failed ran err (failReasonForStepErr err (some inner.message)),points),called.2)
      | .ok (update,directive) =>
        let ran := { ran with state := r.graph.reducer c.state update }
        match called.2.call (inv.validate ran.state) with
        | (some err,env) => ((.failed ran err (failReasonForStepErr err (r.host.unwrapped err)),points),env)
        | (none,env) =>
          match unwrapDirective (A := A) (E := E) directive with
          | .error err => ((.failed ran err (failReasonForStepErr err none),points),env)
          | .ok (base,nodeEffects) =>
            let ran := { ran with effects := c.effects ++ nodeEffects }
            match emitCompleted sink c.current ran.state nodeEffects env with
            | (false,env) => ((.emitCanceled ran,points),env)
            | (true,env) => ((.stepped ran base,points),env)

end Node

/-- The next node of a completed one, with the budgets as a router left them. -/
def resolveEdge (ctx : NodeContext) (current : Text) (state : T) (env : Env W T E) :
    (Result (Route × Text) × GoMap Text Int × List (Point W A T)) × Env W T E :=
  match r.graph.edges.get? current with
  | some next => ((.ok (.edge,next),ctx.budgets,[]),env)
  | none =>
    match r.graph.conditionalEdges.get? current with
    | none => ((.error (naming "flowy: node " current " returned Completed but has no outgoing edge"),
        ctx.budgets,[.stranded current]),env)
    | some router =>
      let routed := env.call (router ctx state)
      let budgets := routed.1.budgets
      match routed.1.answer with
      | .error err => ((.error ⟨ascii "flowy: conditional edge from " ++ Quoting.quoted current ++
          ascii ": " ++ err.message,err.wraps⟩,budgets,[]),routed.2)
      | .ok next =>
        if next = [] then ((.error (naming "flowy: conditional edge from " current " returned empty target"),
          budgets,[]),routed.2)
        else if (r.graph.conditionalAllowed.get? current).any (fun allowed => !allowed.contains next) then
          ((.error (naming₂ "flowy: conditional edge from " current " returned undeclared target " next),
            budgets,[]),routed.2)
        else if next = endNode ∨ (r.graph.nodes.get? next).isSome = true then
          ((.ok (.conditional,next),budgets,[]),routed.2)
        else ((.error (naming₂ "flowy: conditional edge from " current " returned unknown node " next),
          budgets,[]),routed.2)

/-- `terminalFailDirectiveStep`. -/
def failDirective (c : Cursor T E) (err : Err) (env : Env W T E) : Next T E × Env W T E :=
  let failed := r.failUnmarked c err.message env
  (.finish failed.1 (some err),failed.2)

def finishCompleted (c : Cursor T E) (env : Env W T E) : Next T E × Env W T E :=
  let now := env.call r.host.now
  (.finish (newRunResult .completed c.state c.effects (c.runMeta.ended now.1 .complete) c.current []) none,
    now.2)

def applyDirectiveCompleted (c : Cursor T E) (env : Env W T E) :
    (Next T E × List (Point W A T)) × Env W T E :=
  match r.resolveEdge ⟨threadID,c.current,c.runMeta.budgetCounts⟩ c.current c.state env with
  | ((answer,budgets,points),env) =>
    let c := { c with runMeta := { c.runMeta with budgetCounts := budgets } }
    match answer with
    | .error err =>
      let out := r.failDirective c err env
      ((out.1,points),out.2)
    | .ok (route,next) =>
      let points := points ++ [.followed c.current route next]
      if next = endNode then
        let out := r.finishCompleted c env
        ((out.1,points),out.2)
      else ((.proceed next c.runMeta,points),env)

def directiveResumePointer (current : Text) (base : Directive A) : ExecutionPointer :=
  if base.resumeAt = [] then current else base.resumeAt

def applyDirectiveSuspend (c : Cursor T E) (base : Directive A) (env : Env W T E) : Next T E × Env W T E :=
  let ended := r.endSegment c .suspend env
  let resumePtr := directiveResumePointer c.current base
  match r.graph.validateExecutionPointer resumePtr with
  | some err =>
    let failed := newRunResultFailed r.host c.state c.effects ended.1 c.current
      (ascii "suspend_resume_target_invalid") ended.2
    (.finish failed.1 (some (.label "flowy: suspend resume target invalid: " err)),failed.2)
  | none =>
    match r.persistSnapshotPrepared inv revision ⟨⟨threadID,resumePtr,c.state,ended.1,c.effects⟩,0⟩ ended.2 with
    | (.error err,env) =>
      let failed := newRunResultFailed r.host c.state c.effects ended.1 resumePtr
        (ascii "suspend_save_failed") env
      (.finish failed.1 (some (.label "flowy: suspend save failed: " err)),failed.2)
    | (.ok none,env) => (.finish (newRunResult .suspended c.state c.effects ended.1 resumePtr
        (ascii "suspended_checkpoint_skipped")) none,env)
    | (.ok (some (_,newRev)),env) =>
      let reason := if base.reason = [] then ascii "suspended" else base.reason
      let result := newRunResult .suspended c.state c.effects ended.1 resumePtr reason
      let result := { result with resumeToken := ⟨threadID,newRev⟩ }
      match r.applyRetentionPolicy threadID env with
      | (some err,env) => (.finish { result with reason := retentionFailedReason reason }
          (some (.label "flowy: suspend retention failed: " err)),env)
      | (none,env) => (.finish result none,env)

def applyDirectiveHandoff (c : Cursor T E) (base : Directive A) (env : Env W T E) :
    Option (Next T E × Env W T E) :=
  (r.completeHandoffTerminal inv threadID c.current c.state c.runMeta c.effects revision
    (if base.reason = [] then ascii "handoff" else base.reason) (directiveResumePointer c.current base) false
    env).map fun out => (.finish out.1.1 out.1.2,out.2)

def applyDirectiveRetry (c : Cursor T E) (base : Directive A) (env : Env W T E) :
    (Next T E × List (Point W A T)) × Env W T E :=
  if base.maxAttempts ≤ 0 then
    let out := r.failDirective c ⟨ascii "flowy: Retry directive requires maxAttempts > 0",[]⟩ env
    ((out.1,[]),out.2)
  else
    let count := (c.runMeta.retryCounts.get? c.current).getD 0 + 1
    let c := { c with runMeta := { c.runMeta with retryCounts := c.runMeta.retryCounts.set c.current count } }
    if base.maxAttempts < count then
      let failed := r.fail c Sentinel.retryBudgetExceeded.message env
      ((.finish failed.1 (some (.of .retryBudgetExceeded)),[]),failed.2)
    else match r.graph.retryRoutes.get? c.current with
      | none =>
        let out := r.failDirective c
          (naming "flowy: node " c.current " returned Retry without AddRetryRoute") env
        ((out.1,[]),out.2)
      | some fallback => ((.proceed fallback c.runMeta,[.followed c.current .retry fallback]),env)

/-- A run without a durable backend cannot wait. -/
def applyDirectiveWait (c : Cursor T E) (env : Env W T E) : Next T E × Env W T E :=
  let failed := r.failUnmarked c (ascii "durable_wait") env
  (.finish failed.1 (some (.of .executionCapability)),failed.2)

def applyDirectiveFail (c : Cursor T E) (base : Directive A) (env : Env W T E) : Next T E × Env W T E :=
  let now := env.call r.host.now
  let failed := newRunResultFailed r.host c.state c.effects (c.runMeta.ended now.1 .fail) c.current base.reason
    now.2
  (.finish failed.1 (some ⟨base.reason,[]⟩),failed.2)

def applyDirective (c : Cursor T E) (base : Directive A) (env : Env W T E) :
    Option ((Next T E × List (Point W A T)) × Env W T E) :=
  match base.kind with
  | .wait =>
    let out := r.applyDirectiveWait c env
    some ((out.1,[]),out.2)
  | .completed => some (r.applyDirectiveCompleted threadID c env)
  | .next =>
    let out := r.failDirective c (.of .removedNext) env
    some ((out.1,[]),out.2)
  | .end =>
    let out := r.finishCompleted c env
    some ((out.1,[]),out.2)
  | .suspend =>
    let out := r.applyDirectiveSuspend inv threadID revision c base env
    some ((out.1,[]),out.2)
  | .handoff => (r.applyDirectiveHandoff inv threadID revision c base env).map fun out => ((out.1,[]),out.2)
  | .retry => some (r.applyDirectiveRetry c base env)
  | .fail =>
    let out := r.applyDirectiveFail c base env
    some ((out.1,[]),out.2)
  | .effect | .unset =>
    let out := r.failDirective c ⟨ascii "flowy: node returned unsupported directive",[]⟩ env
    some ((out.1,[]),out.2)

section Turns

variable [AnyValue A E] (sink : EventSink W T E)

def ends (points : List (Point W A T)) (out : (ThreadResult T E × Option Err) × Env W T E) :
    (Turn T E × List (Point W A T)) × Env W T E :=
  ((.done out.1.1 out.1.2,points),out.2)

def afterFailure (points : List (Point W A T)) (c : Cursor T E) (err : Err) (reason : Text) (env : Env W T E) :
    Option ((Turn T E × List (Point W A T)) × Env W T E) :=
  match r.host.canceledBy .leaseLost env with
  | (true,env) => some (ends points (r.leaseLost c env))
  | (false,env) =>
    match env.call r.host.canceled with
    | (some cancellation,env) =>
      if err.is .canceled || err.is .deadlineExceeded then
        match r.host.canceledBy .handoffRequested env with
        | (true,env) => (r.handleHandoff inv threadID revision c env).map (ends points)
        | (false,env) =>
          let closed := env.call r.host.consumerClosed
          some (ends points (r.handleContextCancellation inv threadID revision c cancellation.err closed.1
            closed.2))
      else
        let failed := r.failUnmarked c reason env
        some (ends points ((failed.1,some err),failed.2))
    | (none,env) =>
      let failed := r.failUnmarked c reason env
      some (ends points ((failed.1,some err),failed.2))

def afterEmitCanceled (points : List (Point W A T)) (c : Cursor T E) (env : Env W T E) :
    Option ((Turn T E × List (Point W A T)) × Env W T E) :=
  match r.host.canceledBy .handoffRequested env with
  | (true,env) => (r.handleHandoff inv threadID revision c env).map (ends points)
  | (false,env) =>
    match r.host.canceledBy .leaseLost env with
    | (true,env) => some (ends points (r.leaseLost c env))
    | (false,env) => some (ends points (r.handleContextCancellation inv threadID revision c (.of .canceled) true
        env))

def afterStep (points : List (Point W A T)) (c : Cursor T E) (base : Directive A) (env : Env W T E) :
    Option ((Turn T E × List (Point W A T)) × Env W T E) :=
  match r.host.interruption env with
  | (some i,env) => (r.interrupt inv threadID revision c env i).map (ends points)
  | (none,env) =>
    if checkBudgetLimits c.runMeta r.graph.defaults.budgetLimits = false then
      let failed := r.fail c Sentinel.budgetExceeded.message env
      some (ends points ((failed.1,some (.of .budgetExceeded)),failed.2))
    else match r.host.canceledBy .leaseLost env with
      | (true,env) => some (ends points (r.leaseLost c env))
      | (false,env) =>
        match r.applyDirective inv threadID revision c base env with
        | none => none
        | some ((.finish result err,more),env) =>
          some ((.done result err,points ++ .applied c.current base :: more),env)
        | some ((.proceed target runMeta,more),env) =>
          some ((.again { c with current := target, runMeta := runMeta },
            points ++ .applied c.current base :: more),env)

/-- The step limit; one that is not positive selects the default. -/
def limit : Nat := (if r.graph.defaults.maxSteps ≤ 0 then defaultMaxSteps else r.graph.defaults.maxSteps).toNat

def turn (c : Cursor T E) (env : Env W T E) : Option ((Turn T E × List (Point W A T)) × Env W T E) :=
  match r.host.interruption env with
  | (some i,env) => (r.interrupt inv threadID revision c env i).map (ends [])
  | (none,env) =>
    if r.limit ≤ c.runMeta.stepCount then
      let failed := r.fail c Sentinel.maxStepsExceeded.message env
      some (ends [] ((failed.1,some (.of .maxStepsExceeded)),failed.2))
    else match r.runNodeStep inv threadID sink c env with
      | ((.failed c err reason,points),env) => r.afterFailure inv threadID revision points c err reason env
      | ((.emitCanceled c,points),env) => r.afterEmitCanceled inv threadID revision points c env
      | ((.stepped c base,points),env) => r.afterStep inv threadID revision points c base env

def turns : Nat → Cursor T E → Env W T E →
    Option (((ThreadResult T E × Option Err) × List (Point W A T)) × Env W T E)
  | 0, _, _ => none
  | fuel + 1, c, env =>
    match r.turn inv threadID revision sink c env with
    | none => none
    | some ((.done result err,points),env) => some (((result,err),points),env)
    | some ((.again c,points),env) =>
      (turns fuel c env).map fun out => ((out.1.1,points ++ out.1.2),out.2)

/-- Every turn that goes on has counted a step, so `limit + 1` turns are enough. -/
def execute (c : Cursor T E) (env : Env W T E) :
    Option (((ThreadResult T E × Option Err) × List (Point W A T)) × Env W T E) :=
  r.turns inv threadID revision sink (r.limit + 1) c env

end Turns
end Runner
end Loop
end Flowy
