import Flowy.Child.Integrity

/-! Sections of `RunChildren` between two storage operations, as functions of the cached envelope.
A launch is committed twice, queued and then running, before its dispatcher is invoked; a later
section commits the outcome. -/
namespace Flowy

/-- Stable ownership of one launch at its committed child revision. -/
structure ChildInvocation where
  parentID : Text
  groupKey : Text
  childID : Text
  executionID : Text
  revision : Nat
  input : Option Bytes
  allocation : Option Counters
deriving DecidableEq

/-- The zero value that a missing map entry reads as. -/
def ChildGroupRecord.zero : ChildGroupRecord where
  parentID := []
  node := []
  activation := 0
  plan := ⟨[],[],[],[],[],0,.unset,[]⟩
  children := []
  mergedIDs := []
  mergedResult := []
  cancelRequested := false
  cancelRequest := none
  capacity := ∅
  budgetReturns := ∅

def launchable (child : ChildRecord) : Bool := child.state == .planned || child.state == .queued

def launchableChildIDs (group : ChildGroupRecord) : List Text :=
  if group.cancelRequested then []
  else (group.children.filter launchable).map fun child => child.spec.id

/-- `group.Children[index] = child`; child ids are distinct in an admitted group. -/
def ChildGroupRecord.setChild (g : ChildGroupRecord) (child : ChildRecord) : ChildGroupRecord :=
  { g with children := g.children.map fun c => if c.spec.id = child.spec.id then child else c }

def ChildGroupRecord.child? (g : ChildGroupRecord) (id : Text) : Option ChildRecord :=
  g.children.find? fun c => c.spec.id == id

/-- An unfinished launch of another incarnation has an unknown outcome. -/
def recoverChild (incarnation : Nat) (child : ChildRecord) : Result ChildRecord :=
  if child.state = .running then do
    require (child.revision != maxRevision) .childRevision
    require (child.incarnation != incarnation) .childBusy
    .ok { child with state := .unknown, revision := child.revision + 1 }
  else .ok child

/-- Work that has to settle before anything else of the group is launched. -/
def pendingChild (group : ChildGroupRecord) (child : ChildRecord) : Bool :=
  child.state == .unknown || child.state == .running ||
    (group.plan.failurePolicy == .failFast && child.state == .failed && !group.cancelRequested)

def queueChild (child : ChildRecord) : ChildRecord :=
  { child with state := .queued, revision := child.revision + 1 }

def startChild (incarnation : Nat) (child : ChildRecord) : ChildRecord :=
  { child with state := .running, revision := child.revision + 1, incarnation := incarnation }

/-- The launch is only refused here; a child that is gone from the group is refused before. -/
def admitLaunch (group : ChildGroupRecord) (child : ChildRecord) : Result Unit := do
  require (!(group.cancelRequested || maxRevision - 2 < child.revision)) .childRevision
  require (launchable child) .childRevision

def invocationOf (group : ChildGroupRecord) (child : ChildRecord) : ChildInvocation where
  parentID := group.parentID
  groupKey := group.plan.key
  childID := child.spec.id
  executionID := child.executionID
  revision := child.revision
  input := child.spec.input
  allocation := child.spec.allocationMap

def validChildResultState : ChildState → Bool
  | .completed | .failed | .waiting | .unknown | .canceled => true
  | .unset | .planned | .queued | .running => false

def childInvocationMatches (child : ChildRecord) (invocation : ChildInvocation) (incarnation : Nat) :
    Bool :=
  child.state == .running &&
    (child.revision == invocation.revision || (child.cancelRequested &&
      invocation.revision < maxRevision && child.revision == invocation.revision + 1)) &&
    child.revision < maxRevision && child.incarnation == incarnation

/-- The outcome as it is recorded: a dispatcher error says nothing about the work. -/
def dispatchedResult (result : ChildResult) (dispatchErr : Option Err) : ChildResult :=
  dispatchErr.elim result fun err => ⟨.unknown,[],err.message,[]⟩

def settleChild (child : ChildRecord) (result : ChildResult) : ChildRecord :=
  { child with
    state := result.state
    result := result.payload
    error := result.error
    waitID := result.waitID
    cancelConfirmed := child.cancelConfirmed || (result.state == .canceled && child.cancelRequested)
    revision := child.revision + 1 }

section Sections

variable [Sha256] {J W : Type}

/-- `persistChildGroupsLocked` up to its commit. -/
def persistChildGroups (envelope : ExecutionEnvelope J ChildGroups W) (groups : ChildGroups) :
    Result (ExecutionEnvelope J ChildGroups W) := do
  let payload ← marshalChildGroups groups
  .ok { envelope with children := payload }

/-- Replay the group a key is bound to, or plan it; only the plan is committed. -/
def prepareChildren (envelope : ExecutionEnvelope J ChildGroups W) (plan : ChildGroupPlan)
    (available : Counters) :
    Result (ChildGroupRecord × Option (ExecutionEnvelope J ChildGroups W)) := do
  let groups ← executionChildGroups envelope
  match groups.get? (boundChildGroupIdentity envelope plan.key) with
  | some prior =>
    require (prior.capacity.equal available) .budgetExceeded
    require (childPlanBytes prior.plan == childPlanBytes plan) .childInvalid
    .ok (prior,none)
  | none =>
    let group ← planChildGroup envelope.executionID envelope.progress.executionPointer
      envelope.activation plan available
    let groups := groups.set (boundChildGroupIdentity envelope plan.key) group
    validateChildCapacityLedger groups
    let target ← persistChildGroups envelope groups
    .ok (group,some target)

structure RecoveredGroup (J W : Type) where
  group : ChildGroupRecord
  pending : Bool
  target : Option (ExecutionEnvelope J ChildGroups W)

def recoverChildLaunches (incarnation : Nat) (envelope : ExecutionEnvelope J ChildGroups W)
    (identity : Text) : Result (RecoveredGroup J W) := do
  let groups ← executionChildGroups envelope
  let group := (groups.get? identity).getD .zero
  let children ← group.children.mapM (recoverChild incarnation)
  let recovered := { group with children := children }
  let pending := group.children.any (pendingChild group)
  if group.children.any fun child => child.state == .running then
    let target ← persistChildGroups envelope (groups.set identity recovered)
    .ok ⟨recovered,pending,some target⟩
  else .ok ⟨recovered,pending,none⟩

/-- Where one launch stands before its next commit; a planned child is queued first. -/
structure PendingLaunch where
  groups : ChildGroups
  group : ChildGroupRecord
  child : ChildRecord

/-- `beginChildLocked` up to its first commit. -/
def beginChild (envelope : ExecutionEnvelope J ChildGroups W) (identity childID : Text) :
    Result PendingLaunch := do
  let groups ← executionChildGroups envelope
  let group := (groups.get? identity).getD .zero
  match group.child? childID with
  | none => fail .childInvalid
  | some child =>
    admitLaunch group child
    .ok ⟨groups,group,child⟩

def PendingLaunch.put (p : PendingLaunch) (identity : Text) (child : ChildRecord) : PendingLaunch :=
  ⟨p.groups.set identity (p.group.setChild child),p.group.setChild child,child⟩

/-- `finishChildLocked` up to its commit. -/
def finishChild (incarnation : Nat) (envelope : ExecutionEnvelope J ChildGroups W) (identity : Text)
    (invocation : ChildInvocation) (result : ChildResult) :
    Result (ExecutionEnvelope J ChildGroups W) := do
  let groups ← executionChildGroups envelope
  let group := (groups.get? identity).getD .zero
  match group.child? invocation.childID with
  | none => fail .childInvalid
  | some child =>
    require (childInvocationMatches child invocation incarnation) .childRevision
    require (validChildResultState result.state) .childInvalid
    let settled := settleChild child result
    require (validateChildRecordState settled) .executionCorrupt
    persistChildGroups envelope (groups.set identity (group.setChild settled))

end Sections
end Flowy
