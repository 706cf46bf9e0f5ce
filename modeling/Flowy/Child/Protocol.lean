import Flowy.Lib.Tickets
import Flowy.Child.Commit

/-! Child launches as sessions over the fenced log. A session runs any number of `RunChildren`
calls, each with its own launch loop and workers, under one mutex; or it is the session of one host
decision. Every other commit of the runtime keeps the groups. The tickets are the child execution
ids: issued by the commit that makes a child running, used when its dispatcher is invoked. -/
namespace Flowy

open Fencing

/-- A goroutine of `dispatchChild`: `spawned` has not invoked the dispatcher yet; the last two have
sent their completion. -/
inductive WorkerPhase
  | spawned | dispatching | succeeded | failed
deriving DecidableEq

structure Worker where
  invocation : ChildInvocation
  phase : WorkerPhase

/-- The variables of `launchChildGroup`: the ids not yet tried, and the workers whose completion
the loop has not received, so that `active` is the length of `workers`. -/
structure Launch where
  identity : Text
  maxConcurrency : Int
  failurePolicy : ChildFailurePolicy
  ids : List Text
  workers : List Worker

/-- One `RunChildren` call; `holding` keeps the mutex between the two commits of a launch. Workers
outlive the call that started them. -/
inductive RunCall
  | prepared (identity : Text)
  | launching (launch : Launch)
  | holding (launch : Launch) (pending : PendingLaunch)
  | returned (identity : Text) (workers : List Worker)

def RunCall.identity : RunCall → Text
  | .prepared identity => identity
  | .launching l | .holding l _ => l.identity
  | .returned identity _ => identity

def RunCall.workers : RunCall → List Worker
  | .prepared _ => []
  | .launching l | .holding l _ => l.workers
  | .returned _ workers => workers

def RunCall.setWorkers (workers : List Worker) : RunCall → RunCall
  | .prepared identity => .prepared identity
  | .launching l => .launching { l with workers := workers }
  | .holding l p => .holding { l with workers := workers } p
  | .returned identity _ => .returned identity workers

structure Launches where
  calls : List RunCall
  lock : Option Nat
  use : SessionUse

def Launches.initial : Launches := ⟨[],none,.unused⟩

def Launches.set (l : Launches) (k : Nat) (c : RunCall) : Launches := ⟨l.calls.set k c,none,.calls⟩

def Launches.hold (l : Launches) (k : Nat) (c : RunCall) : Launches := ⟨l.calls.set k c,some k,.calls⟩

inductive ChildMutation
  | join (expected : ChildGroupRecord) (merge : List ChildRecord → Result Bytes)
  | cancel (expected : ChildGroupRecord) (request : ChildCancelRequest) (now : Time)
  | credit (expected : ChildGroupRecord) (claim : ChildBudgetReturn) (now : Time)

inductive ChildDecision
  | confirm (decision : ChildCancelConfirmation) (now : Time)
  | wait (resolution : ChildWaitResolution) (now : Time)
  | outcome (resolution : ChildOutcomeResolution) (now : Time)

def ChildMutation.clocked (clock : Time → Bool) : ChildMutation → Bool
  | .join _ _ => true
  | .cancel _ _ now | .credit _ _ now => clock now

def ChildDecision.clocked (clock : Time → Bool) : ChildDecision → Bool
  | .confirm _ now | .wait _ now | .outcome _ now => clock now

inductive ChildAction (J W : Type)
  | prepare (plan : ChildGroupPlan) (available : Counters)
  | recover (k : Nat)
  | begin (k : Nat)
  | run (k : Nat)
  | stop (k : Nat)
  | receive (k w : Nat)
  | dispatch (k w : Nat)
  | skip (k w : Nat) (err : Err)
  | finish (k w : Nat) (result : ChildResult) (dispatchErr : Option Err)
  | mutate (mutation : ChildMutation)
  | decide (decision : ChildDecision)
  | other (target : ExecutionEnvelope J ChildGroups W)

section Acts

variable [Sha256] {J W : Type}

abbrev ChildAct (J W : Type) := Act (ExecutionEnvelope J ChildGroups W) Launches (Ticket Text)

def proposeAct (target : Option (ExecutionEnvelope J ChildGroups W)) (acked failed : Launches) :
    ChildAct J W :=
  match target with
  | none => .move acked []
  | some target => .commit target acked failed []

def prepareAct (e : ExecutionEnvelope J ChildGroups W) (l : Launches) (plan : ChildGroupPlan)
    (available : Counters) : ChildAct J W :=
  match prepareChildren e plan available with
  | .error _ => .move { l with use := .calls } []
  | .ok (group,target) =>
    proposeAct target ⟨l.calls ++ [.prepared group.identity],none,.calls⟩ { l with use := .calls }

def recoverAct (i k : Nat) (e : ExecutionEnvelope J ChildGroups W) (l : Launches) (identity : Text) :
    ChildAct J W :=
  match recoverChildLaunches i e identity with
  | .error _ => .move (l.set k (.returned identity [])) []
  | .ok r =>
    let next : RunCall := if r.pending then .returned identity []
      else .launching ⟨identity,r.group.plan.maxConcurrency,r.group.plan.failurePolicy,
        launchableChildIDs r.group,[]⟩
    proposeAct r.target (l.set k next) (l.set k (.returned identity []))

/-- The second commit of a launch; its acknowledgement starts a worker. -/
def launchAct (i k : Nat) (e : ExecutionEnvelope J ChildGroups W) (l : Launches) (launch : Launch)
    (p : PendingLaunch) : ChildAct J W :=
  let started := p.put launch.identity (startChild i p.child)
  match persistChildGroups e started.groups with
  | .error _ => .move (l.set k (.returned launch.identity launch.workers)) []
  | .ok target =>
    .commit target
      (l.set k (.launching { launch with
        workers := launch.workers ++ [⟨invocationOf started.group started.child,.spawned⟩] }))
      (l.set k (.returned launch.identity launch.workers))
      [.issue i started.child.executionID (e.revision + 1)]

def beginAct (i k : Nat) (e : ExecutionEnvelope J ChildGroups W) (l : Launches) (launch : Launch)
    (childID : Text) : ChildAct J W :=
  match beginChild e launch.identity childID with
  | .error _ => .move (l.set k (.returned launch.identity launch.workers)) []
  | .ok p =>
    if p.child.state = .planned then
      let queued := p.put launch.identity (queueChild p.child)
      match persistChildGroups e queued.groups with
      | .error _ => .move (l.set k (.returned launch.identity launch.workers)) []
      | .ok target => .commit target (l.hold k (.holding launch queued))
          (l.set k (.returned launch.identity launch.workers)) []
    else launchAct i k e l launch p

def childGroupHasFailure (e : ExecutionEnvelope J ChildGroups W) (identity : Text) : Bool :=
  ((e.children.get? identity).getD .zero).children.any fun child => child.state == .failed

def receiveCompletion (e : ExecutionEnvelope J ChildGroups W) (launch : Launch) (w : Nat)
    (ok : Bool) : RunCall :=
  let workers := launch.workers.eraseIdx w
  if !ok || (launch.failurePolicy == .failFast && childGroupHasFailure e launch.identity) then
    .returned launch.identity workers
  else .launching { launch with workers := workers }

def Launches.setWorker (l : Launches) (k w : Nat) (c : RunCall) (worker : Worker)
    (phase : WorkerPhase) : Launches :=
  { l with calls := l.calls.set k (c.setWorkers (c.workers.set w { worker with phase := phase })) }

def finishWorkerAct (i k w : Nat) (e : ExecutionEnvelope J ChildGroups W) (l : Launches) (c : RunCall)
    (worker : Worker) (result : ChildResult) : ChildAct J W :=
  match finishChild i e c.identity worker.invocation result with
  | .error _ => .move (l.setWorker k w c worker .failed) []
  | .ok target => .commit target
      (l.setWorker k w c worker (if result.state = .unknown then .failed else .succeeded))
      (l.setWorker k w c worker .failed) []

/-- Commits and replays of a mutation; both leave the launch loops alone. -/
def mutationTarget (i : Nat) (e : ExecutionEnvelope J ChildGroups W) :
    ChildMutation → Result (Option (ExecutionEnvelope J ChildGroups W))
  | .join expected merge => (joinChildren e expected merge).map Prod.snd
  | .cancel expected request now => (requestChildCancellation i e expected request now).map Prod.snd
  | .credit expected claim now => (returnChildBudget i e expected claim now).map Prod.snd

def decisionTarget (i : Nat) (e : ExecutionEnvelope J ChildGroups W) :
    ChildDecision → Result (Option (ExecutionEnvelope J ChildGroups W))
  | .confirm decision now => (confirmChildCancellation i e decision now).map some
  | .wait resolution now => (resolveChildWait i e resolution now).map some
  | .outcome resolution now => resolveChildOutcome i e resolution now

def resultAct (target : Result (Option (ExecutionEnvelope J ChildGroups W))) (l : Launches) :
    ChildAct J W :=
  match target with
  | .error _ => .move l []
  | .ok target => proposeAct target l l

/-- What every other commit of the runtime does: it keeps the groups, and keeps their addresses too
unless all groups are resolved (a step, a save, a wait continuation) or the target was read again
before it is committed (a migration). -/
def keepsChildGroups (e target : ExecutionEnvelope J ChildGroups W) : Bool :=
  target.children = e.children && target.executionID == e.executionID &&
    (if target.activation = e.activation ∧
        target.progress.childGroupReferences = e.progress.childGroupReferences then
      target.progress.executionPointer == e.progress.executionPointer || (resolvedChildGroups e).isOk
    else if target.activation = e.activation + 1 ∧ target.progress.childGroupReferences = ∅ then
      (resolvedChildGroups e).isOk
    else target.revision == e.revision && (executionChildGroups target).isOk)

def createsNoGroups (target : ExecutionEnvelope J ChildGroups W) : Bool :=
  target.children = ∅ && target.progress.childGroupReferences = ∅

def childAct (clock : Time → Bool) (a : ChildAction J W) (i : Nat)
    (cache : Option (ExecutionEnvelope J ChildGroups W)) (l : Launches) : Option (ChildAct J W) :=
  match a, cache with
  | .other target, cache =>
    if l.lock = none ∧ cache.elim (createsNoGroups target) (fun e => keepsChildGroups e target) = true
    then some (.commit target l l [])
    else none
  | .prepare plan available, some e =>
    if l.lock = none ∧ l.use ≠ .resolution then some (prepareAct e l plan available) else none
  | .recover k, some e =>
    match l.calls[k]? with
    | some (.prepared identity) => if l.lock = none then some (recoverAct i k e l identity) else none
    | _ => none
  | .begin k, some e =>
    match l.calls[k]? with
    | some (.launching ⟨identity,limit,policy,id :: ids,workers⟩) =>
      if l.lock = none ∧ (workers.length : Int) < limit then
        some (beginAct i k e l ⟨identity,limit,policy,ids,workers⟩ id)
      else none
    | _ => none
  | .run k, some e =>
    match l.calls[k]? with
    | some (.holding launch p) => some (launchAct i k e l launch p)
    | _ => none
  -- the cancellation signal, the caller's context, or nothing left to launch
  | .stop k, some _ =>
    match l.calls[k]? with
    | some (.prepared identity) =>
      some (.move { l with calls := l.calls.set k (.returned identity []) } [])
    | some (.launching launch) =>
      some (.move { l with calls := l.calls.set k (.returned launch.identity launch.workers) } [])
    | _ => none
  | .receive k w, some e =>
    match l.calls[k]? with
    | some (.launching launch) =>
      match launch.workers[w]? with
      | some ⟨_,.succeeded⟩ =>
        some (.move { l with calls := l.calls.set k (receiveCompletion e launch w true) } [])
      | some ⟨_,.failed⟩ =>
        some (.move { l with calls := l.calls.set k (receiveCompletion e launch w false) } [])
      | _ => none
    | _ => none
  | .dispatch k w, some _ =>
    match l.calls[k]? with
    | some c =>
      match c.workers[w]? with
      | some ⟨invocation,.spawned⟩ =>
        some (.move (l.setWorker k w c ⟨invocation,.spawned⟩ .dispatching)
          [.use i invocation.executionID])
      | _ => none
    | none => none
  -- a context canceled before the dispatcher is invoked
  | .skip k w err, some e =>
    match l.calls[k]? with
    | some c =>
      match c.workers[w]? with
      | some ⟨invocation,.spawned⟩ =>
        if l.lock = none then
          some (finishWorkerAct i k w e l c ⟨invocation,.spawned⟩
            (dispatchedResult ⟨.unset,[],[],[]⟩ (some err)))
        else none
      | _ => none
    | none => none
  | .finish k w result dispatchErr, some e =>
    match l.calls[k]? with
    | some c =>
      match c.workers[w]? with
      | some ⟨invocation,.dispatching⟩ =>
        if l.lock = none then
          some (finishWorkerAct i k w e l c ⟨invocation,.dispatching⟩
            (dispatchedResult result dispatchErr))
        else none
      | _ => none
    | none => none
  | .mutate mutation, some e =>
    if l.lock = none ∧ l.use ≠ .resolution ∧ mutation.clocked clock = true then
      some (resultAct (mutationTarget i e mutation) { l with use := .calls })
    else none
  | .decide decision, some e =>
    if l.use = .unused ∧ e.terminal = none ∧ decision.clocked clock = true then
      some (resultAct (decisionTarget i e decision) { l with use := .resolution })
    else none
  | _, none => none

/-- The child protocol; the store's seal shows here as the revision it assigns. `clock` tells which
readings the injected clock can return. -/
def childProtocol (J W : Type) (clock : Time → Bool) :
    Protocol (ExecutionEnvelope J ChildGroups W) Launches (ChildAction J W) (Ticket Text) where
  revision := fun e => e.revision
  stamp := fun n e => { e with revision := n }
  revision_stamp := fun _ _ => rfl
  fresh := .initial
  act := childAct clock

end Acts
end Flowy
