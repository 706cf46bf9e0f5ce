import Flowy.Child.Launch

/-! Joins, cancellation requests and budget returns of the running node, and the three decisions a
host commits in a session of its own. Each is one section of the cached or loaded envelope. -/
namespace Flowy

structure ChildCancelRequest where
  id : Text
  reason : Text
deriving DecidableEq, Repr

/-- A host usage claim. -/
structure ChildBudgetReturn where
  childID : Text
  childRevision : Nat
  decisionID : Text
  reason : Text
  evidence : Text
  used : Counters
deriving DecidableEq

structure ChildWaitResolution where
  node : ExecutionPointer
  activation : Nat
  groupKey : Text
  childID : Text
  executionID : Text
  childRevision : Nat
  waitID : Text
  decisionID : Text
  result : ChildResult
deriving DecidableEq, Repr

structure ChildCancelConfirmation where
  node : ExecutionPointer
  activation : Nat
  groupKey : Text
  childID : Text
  executionID : Text
  childRevision : Nat
  requestID : Text
  decisionID : Text
  reason : Text
  evidence : Text
deriving DecidableEq, Repr

def ChildCancelRequest.check (request : ChildCancelRequest) : Result Unit :=
  require (request.id != [] && validRuntimeText [request.id,request.reason] && request.reason != [])
    .childInvalid

def ChildBudgetReturn.check (claim : ChildBudgetReturn) : Result Unit :=
  require (claim.childID != [] && claim.childRevision != 0 && claim.decisionID != [] &&
    claim.reason != [] &&
    validRuntimeText [claim.childID,claim.decisionID,claim.reason,claim.evidence] &&
    claim.evidence != []) .childInvalid

def ChildWaitResolution.check (r : ChildWaitResolution) : Result Unit :=
  require (r.node != [] && r.activation != 0 && r.groupKey != [] && r.childID != [] &&
    validRuntimeText [r.node,r.groupKey,r.childID,r.executionID,r.waitID,r.decisionID,r.result.error] &&
    r.executionID != [] && r.childRevision != 0 && r.waitID != [] && r.decisionID != [] &&
    (r.result.state == .completed || r.result.state == .failed) && r.result.waitID == [])
    .childInvalid

def ChildCancelConfirmation.check (d : ChildCancelConfirmation) : Result Unit :=
  require (d.node != [] && d.activation != 0 && d.groupKey != [] && d.childID != [] &&
    validRuntimeText [d.node,d.groupKey,d.childID,d.executionID,d.requestID,d.decisionID,d.reason,
      d.evidence] &&
    d.executionID != [] && d.childRevision != 0 && d.requestID != [] && d.decisionID != [] &&
    d.reason != [] && d.evidence != []) .childInvalid

def validChildGroupText (group : ChildGroupRecord) : Bool :=
  validRuntimeText [group.parentID,group.node,group.plan.key,group.plan.label,group.plan.mergeLabel,
    group.plan.budgetLabel,group.plan.cancelLabel] && validChildCapacity group.capacity &&
  group.plan.children.all (fun spec =>
    validRuntimeText [spec.id] && validChildCapacity spec.allocation) &&
  group.children.all (fun child =>
    validRuntimeText [child.spec.id,child.executionID,child.waitID,child.error] &&
      validChildCapacity child.spec.allocation) &&
  group.cancelRequest.all (fun request => validRuntimeText [request.id,request.reason]) &&
  group.budgetReturns.all fun _ decision =>
    validRuntimeText [decision.decisionID,decision.reason,decision.evidence]

/-- A request stops admission: unlaunched children are canceled, the others asked to stop. -/
def requestChildCancel (child : ChildRecord) : Result ChildRecord :=
  if settledChild child then .ok child
  else do
    require (!(child.revision == maxRevision ||
      (child.state == .running && maxRevision - 1 ≤ child.revision))) .childRevision
    let asked := { child with cancelRequested := true, revision := child.revision + 1 }
    .ok (if launchable child then { asked with state := .canceled, cancelConfirmed := true } else asked)

def confirmChildCancel (decision : ChildCancelConfirmation) (sourceRevision incarnation : Nat)
    (now : Time) (child : ChildRecord) : ChildRecord :=
  { child with
    cancelConfirmation := some ⟨decision.requestID,decision.decisionID,decision.reason,
      decision.evidence,child.state,child.revision,sourceRevision,incarnation,now⟩
    state := .canceled
    cancelConfirmed := true
    waitID := []
    revision := child.revision + 1 }

def resolveWaitingChild (resolution : ChildWaitResolution) (sourceRevision incarnation : Nat)
    (now : Time) (child : ChildRecord) : ChildRecord :=
  { child with
    state := resolution.result.state
    result := resolution.result.payload
    error := resolution.result.error
    waitID := []
    revision := child.revision + 1
    waitResolution := some ⟨resolution.waitID,resolution.decisionID,resolution.childRevision,
      sourceRevision,incarnation,now⟩ }

def resolveUnknownChild (resolution : ChildOutcomeResolution) (digest : Text)
    (sourceRevision incarnation : Nat) (now : Time) (child : ChildRecord) : ChildRecord :=
  { child with
    outcomeResolution := some ⟨resolution.decisionID,resolution.reason,resolution.evidence,digest,
      child.state,child.revision,child.incarnation,sourceRevision,incarnation,now⟩
    state := resolution.result.state
    result := resolution.result.payload
    error := resolution.result.error
    waitID := []
    revision := child.revision + 1 }

/-- A decision of this id was already committed: for this request, or for another one. -/
def childOutcomeDecisionReplay (groups : ChildGroups) (resolution : ChildOutcomeResolution)
    (digest : Text) : Result Bool :=
  let decided := groups.values.flatMap fun group =>
    group.children.filterMap fun child => child.outcomeResolution.map fun d => (child.executionID,d)
  match decided.find? fun (_,d) => d.decisionID == resolution.decisionID with
  | none => .ok false
  | some (executionID,d) =>
    if executionID = resolution.executionID ∧ d.requestDigest = digest then .ok true
    else fail .childRevision

section Sections

variable [Sha256] {J W : Type}

/-- The group a host assertion names, unchanged since the host read it. -/
def assertedChildGroup (envelope : ExecutionEnvelope J ChildGroups W) (groups : ChildGroups)
    (expected : ChildGroupRecord) : Result ChildGroupRecord :=
  match groups.get? expected.identity with
  | none => fail .childRevision
  | some group => do
    require (currentChildGroup envelope group &&
      childGroupEncoding group == childGroupEncoding expected) .childRevision
    .ok group

/-- `joinChildren`. The merge runs outside the mutex and its commit is refused unless the cached
revision is still the one it read, so both of its sections read this envelope. -/
def joinChildren (envelope : ExecutionEnvelope J ChildGroups W) (expected : ChildGroupRecord)
    (merge : List ChildRecord → Result Bytes) :
    Result (Bytes × Option (ExecutionEnvelope J ChildGroups W)) := do
  require (validChildGroupText expected) .childInvalid
  let groups ← (executionChildGroups envelope).mapError (.join (.of .childRevision))
  let group ← assertedChildGroup envelope groups expected
  if group.mergedIDs.length = group.children.length then .ok (group.mergedResult,none)
  else
    require (group.children.all settledChild) .childrenUnresolved
    let result ← (merge group.children).mapError (.join (.of .childMergeConflict))
    let merged := { group with
      mergedIDs := group.children.map fun child => child.spec.id, mergedResult := result }
    let target ← persistChildGroups envelope (groups.set expected.identity merged)
    .ok (result,some target)

def requestChildCancellation (incarnation : Nat) (envelope : ExecutionEnvelope J ChildGroups W)
    (expected : ChildGroupRecord) (request : ChildCancelRequest) (now : Time) :
    Result (ChildGroupRecord × Option (ExecutionEnvelope J ChildGroups W)) := do
  request.check
  require (validChildGroupText expected) .childInvalid
  let groups ← executionChildGroups envelope
  let group ← assertedChildGroup envelope groups expected
  require (group.mergedIDs == []) .childRevision
  match group.cancelRequest with
  | some prior =>
    require (prior.id == request.id && prior.reason == request.reason) .childRevision
    .ok (group,none)
  | none =>
    let children ← group.children.mapM requestChildCancel
    let asked := { group with
      cancelRequested := true
      cancelRequest := some ⟨request.id,request.reason,envelope.revision,incarnation,now⟩
      children := children }
    let target ← persistChildGroups envelope (groups.set expected.identity asked)
    .ok (asked,some target)

def returnChildBudget (incarnation : Nat) (envelope : ExecutionEnvelope J ChildGroups W)
    (expected : ChildGroupRecord) (claim : ChildBudgetReturn) (now : Time) :
    Result (ChildGroupRecord × Option (ExecutionEnvelope J ChildGroups W)) := do
  claim.check
  require (validChildGroupText expected) .childInvalid
  let groups ← executionChildGroups envelope
  let group ← assertedChildGroup envelope groups expected
  match group.budgetReturns.get? claim.childID with
  | some prior =>
    require (prior.decisionID == claim.decisionID && prior.childRevision == claim.childRevision &&
      prior.reason == claim.reason && prior.evidence == claim.evidence &&
      prior.used.equal claim.used) .childRevision
    .ok (group,none)
  | none =>
    match childForBudgetReturn group claim.childID with
    | none => fail .childRevision
    | some child =>
      require (child.revision == claim.childRevision) .childRevision
      let returned ← computeChildBudgetReturn child claim.used
      let credited := { group with
        budgetReturns := group.budgetReturns.set claim.childID ⟨claim.childRevision,claim.decisionID,
          claim.reason,claim.evidence,claim.used,returned,envelope.revision,incarnation,now⟩ }
      let target ← persistChildGroups envelope (groups.set expected.identity credited)
      .ok (credited,some target)

/-- The open group a committed decision addresses. -/
def addressedChildGroup (envelope : ExecutionEnvelope J ChildGroups W) (groups : ChildGroups)
    (node : ExecutionPointer) (activation : Nat) (key : Text) : Result (Text × ChildGroupRecord) :=
  let identity := childExecutionIdentity envelope.executionID node activation key []
  match groups.get? identity with
  | none => fail .childRevision
  | some group => do
    require (currentChildGroup envelope group && group.mergedIDs == []) .childRevision
    .ok (identity,group)

def commitDecidedChild (envelope : ExecutionEnvelope J ChildGroups W) (groups : ChildGroups)
    (identity : Text) (group : ChildGroupRecord) (decided : ChildRecord) :
    Result (ExecutionEnvelope J ChildGroups W) := do
  require (validateChildRecordState decided) .executionCorrupt
  persistChildGroups envelope (groups.set identity (group.setChild decided))

/-- `ConfirmChildCancellation` on the source that `childMutationSource` admitted. -/
def confirmChildCancellation (incarnation : Nat) (source : ExecutionEnvelope J ChildGroups W)
    (decision : ChildCancelConfirmation) (now : Time) : Result (ExecutionEnvelope J ChildGroups W) := do
  decision.check
  require (source.activation == decision.activation) .childRevision
  let groups ← executionChildGroups source
  let (identity,group) ← addressedChildGroup source groups decision.node decision.activation
    decision.groupKey
  require (group.cancelRequest.any fun request => request.id == decision.requestID) .childRevision
  match group.child? decision.childID with
  | none => fail .childRevision
  | some child =>
    require (child.executionID == decision.executionID && child.revision == decision.childRevision &&
      child.revision != maxRevision && child.cancelRequested && !child.cancelConfirmed &&
      unresolvedCancelableChild child.state) .childRevision
    commitDecidedChild source groups identity group
      (confirmChildCancel decision source.revision incarnation now child)

def resolveChildWait (incarnation : Nat) (source : ExecutionEnvelope J ChildGroups W)
    (resolution : ChildWaitResolution) (now : Time) : Result (ExecutionEnvelope J ChildGroups W) := do
  resolution.check
  require (source.activation == resolution.activation) .childRevision
  let groups ← executionChildGroups source
  let (identity,group) ← addressedChildGroup source groups resolution.node resolution.activation
    resolution.groupKey
  match group.child? resolution.childID with
  | none => fail .childRevision
  | some child =>
    require (child.executionID == resolution.executionID &&
      child.revision == resolution.childRevision && child.revision != maxRevision &&
      child.state == .waiting && child.waitID == resolution.waitID && child.waitResolution.isNone)
      .childRevision
    commitDecidedChild source groups identity group
      (resolveWaitingChild resolution source.revision incarnation now child)

/-- A replayed decision needs no commit. -/
def resolveChildOutcome (incarnation : Nat) (source : ExecutionEnvelope J ChildGroups W)
    (resolution : ChildOutcomeResolution) (now : Time) :
    Result (Option (ExecutionEnvelope J ChildGroups W)) := do
  require (validChildOutcomeRequest resolution) .childInvalid
  let groups ← executionChildGroups source
  let (identity,group) ← addressedChildGroup source groups resolution.node resolution.activation
    resolution.groupKey
  require (group.plan.label == resolution.groupLabel) .childRevision
  require (!now.isZero && incarnation != 0) .executionCapability
  let digest := childOutcomeRequestDigest resolution
  if ← childOutcomeDecisionReplay groups resolution digest then .ok none
  else match group.child? resolution.childID with
    | none => fail .childRevision
    | some child =>
      require (child.executionID == resolution.executionID &&
        child.revision == resolution.childRevision && child.outcomeResolution.isNone &&
        !child.cancelConfirmed) .childRevision
      require (child.state == .unknown ||
        (child.state == .running && child.incarnation < incarnation)) .childRevision
      let target ← commitDecidedChild source groups identity group
        (resolveUnknownChild resolution digest source.revision incarnation now child)
      .ok (some target)

end Sections
end Flowy
