import Flowy.Child.Record

/-! Admission of stored child groups: each record alone, each group against its own plan, and all
groups against the envelope that carries them. Every read of the groups runs these checks. -/
namespace Flowy

open Json

/-- A host-confirmed outcome of unknown work, addressed to the original group. -/
structure ChildOutcomeResolution where
  node : ExecutionPointer
  activation : Nat
  groupKey : Text
  groupLabel : Text
  childID : Text
  executionID : Text
  childRevision : Nat
  decisionID : Text
  reason : Text
  evidence : Text
  result : ChildResult
deriving DecidableEq, Repr

def validChildOutcomeRequest (r : ChildOutcomeResolution) : Bool :=
  [r.node,r.groupKey,r.groupLabel,r.childID,r.executionID,r.decisionID,r.reason,r.evidence].all
    (fun text => text != [] && validRuntimeText [text]) &&
  !(r.activation == 0 || r.childRevision ≤ 1 || r.childRevision == maxRevision ||
    r.result.waitID != [] || !validRuntimeText [r.result.error]) &&
  match r.result.state with
  | .completed => r.result.error == []
  | .failed => r.result.error != []
  | .unset | .planned | .queued | .running | .waiting | .canceled | .unknown => false

/-- An empty payload is `null`. -/
def canonicalChildOutcomePayload (payload : Bytes) : List Token :=
  if payload = [] then [.punct (ascii "null")] else payloadCodec.tokens payload

def childOutcomeRequestText (r : ChildOutcomeResolution) : Bytes :=
  render (.punct (ascii "[") :: commaJoin [[.str (ascii "flowy-child-outcome-v1")],[.str r.node],
    natCodec.tokens r.activation,[.str r.groupKey],[.str r.groupLabel],[.str r.childID],
    [.str r.executionID],natCodec.tokens r.childRevision,[.str r.decisionID],[.str r.reason],
    [.str r.evidence],[.str r.result.state.text],canonicalChildOutcomePayload r.result.payload,
    [.str r.result.error],[.str r.result.waitID]] ++ [.punct (ascii "]")])

def unresolvedCancelableChild (state : ChildState) : Bool :=
  state == .running || state == .waiting || state == .unknown

def validChildWaitResolution (child : ChildRecord) : Bool :=
  child.waitResolution.all fun decision =>
    decision.waitID != [] && decision.decisionID != [] && 0 < decision.sourceRevision &&
      validRuntimeText [decision.waitID,decision.decisionID,child.error] &&
      0 < decision.incarnation && !decision.decidedAt.isZero && 2 < decision.childRevision &&
      decision.childRevision < maxRevision && child.revision == decision.childRevision + 1 &&
      (child.state == .completed || child.state == .failed) && child.waitID == []

def validChildCancelConfirmation (child : ChildRecord) : Bool :=
  child.cancelConfirmation.all fun decision =>
    child.state == .canceled && child.cancelConfirmed && child.cancelRequested && child.waitID == [] &&
      decision.requestID != [] && decision.decisionID != [] && decision.reason != [] &&
      decision.evidence != [] &&
      validRuntimeText [decision.requestID,decision.decisionID,decision.reason,decision.evidence] &&
      unresolvedCancelableChild decision.priorState && 1 < decision.childRevision &&
      decision.childRevision < maxRevision && child.revision == decision.childRevision + 1 &&
      0 < decision.sourceRevision && 0 < decision.incarnation && !decision.decidedAt.isZero

def validChildOutcomeResolution (child : ChildRecord) : Bool :=
  child.outcomeResolution.all fun prior =>
    (child.state == .completed || child.state == .failed) && child.waitID == [] &&
      !child.cancelConfirmed && child.waitResolution.isNone && child.cancelConfirmation.isNone &&
      prior.decisionID != [] && prior.reason != [] && prior.evidence != [] &&
      prior.requestDigest != [] &&
      validRuntimeText [prior.decisionID,prior.reason,prior.evidence,child.error] &&
      1 < prior.childRevision && prior.childRevision < maxRevision &&
      child.revision == prior.childRevision + 1 && 0 < prior.priorIncarnation &&
      child.incarnation == prior.priorIncarnation && 0 < prior.sourceRevision &&
      prior.priorIncarnation < prior.incarnation && !prior.decidedAt.isZero &&
      (prior.priorState == .unknown || prior.priorState == .running)

def validateChildStateMachine (child : ChildRecord) : Bool :=
  let noOutcome := child.error == [] && child.result == [] && child.waitID == []
  let settled := 2 < child.revision && 0 < child.incarnation
  !(child.cancelConfirmed && (!child.cancelRequested || child.state != .canceled)) &&
  match child.state with
  | .unset => false
  | .planned => child.revision == 0 && child.incarnation == 0 && noOutcome
  | .queued => 0 < child.revision && child.incarnation == 0 && noOutcome
  | .running => 1 < child.revision && 0 < child.incarnation && noOutcome
  | .completed => settled && child.error == [] && child.waitID == []
  | .failed => settled && child.error != [] && child.waitID == []
  | .waiting => settled && child.waitID != [] && child.error == []
  | .unknown => settled && child.waitID == []
  | .canceled => 0 < child.revision && child.cancelConfirmed

def validateChildRecordState (child : ChildRecord) : Bool :=
  validRuntimeText [child.waitID] && validChildWaitResolution child &&
    validChildCancelConfirmation child && validChildOutcomeResolution child &&
    validateChildStateMachine child

def validChildCancellation (group : ChildGroupRecord) : Bool :=
  if !group.cancelRequested then
    group.cancelRequest.isNone &&
      group.children.all fun child => !(child.cancelRequested || child.cancelConfirmed)
  else
    group.cancelRequest.any (fun request =>
      request.id != [] && request.reason != [] && request.sourceRevision != 0 &&
        request.incarnation != 0 && !request.decidedAt.isZero &&
        validRuntimeText [request.id,request.reason]) &&
    group.children.all fun child => !(child.state == .planned || child.state == .queued) &&
      (settledChild child || child.cancelRequested)

def validChildJoin (group : ChildGroupRecord) : Bool :=
  if group.mergedIDs = [] then group.mergedResult == []
  else group.mergedIDs == group.children.map (fun child => child.spec.id) &&
    group.children.all settledChild

def computeChildBudgetReturn (child : ChildRecord) (used : Counters) :
    Result Counters := do
  require (validateChildRecordState child) .childInvalid
  require (settledChild child) .childrenUnresolved
  require (used.all fun name units => name != [] && 0 ≤ units &&
    (child.spec.allocation.get? name).any fun allocated => units ≤ allocated) .budgetExceeded
  require (child.spec.allocation.all fun name allocated => name != [] && 0 ≤ allocated &&
    (used.get? name).isSome) .budgetExceeded
  .ok (child.spec.allocation.entries.foldl
    (fun returned e => returned.set e.1 (e.2 - (used.get? e.1).getD 0)) ∅)

def childForBudgetReturn (group : ChildGroupRecord) (id : Text) : Option ChildRecord :=
  group.children.find? fun child => child.spec.id == id

def validChildBudgetReturns (group : ChildGroupRecord) : Bool :=
  group.budgetReturns.all fun id record =>
    (childForBudgetReturn group id).any fun child =>
      child.revision == record.childRevision && record.decisionID != [] && record.reason != [] &&
        record.evidence != [] && record.sourceRevision != 0 && record.incarnation != 0 &&
        !record.decidedAt.isZero &&
        validRuntimeText [record.decisionID,record.reason,record.evidence] &&
        match computeChildBudgetReturn child record.used with
        | .error _ => false
        | .ok returned => returned.equal record.returned

def outstandingUnits (group : ChildGroupRecord) (child : ChildRecord) (name : Text)
    (allocation : Int64) : Int64 :=
  allocation - ((group.budgetReturns.get? child.spec.id).bind fun r => r.returned.get? name).getD 0

def chargeChild (group : ChildGroupRecord) (remaining : Counters) (child : ChildRecord) :
    Result Counters :=
  child.spec.allocation.entries.foldlM (fun remaining e =>
    match remaining.get? e.1 with
    | none => fail .budgetExceeded
    | some available => do
      let outstanding := outstandingUnits group child e.1 e.2
      require (0 ≤ outstanding && outstanding ≤ available) .budgetExceeded
      .ok (GoMap.set remaining e.1 (available - outstanding))) remaining

/-- What is left of each activation's capacity, and the capacities themselves. -/
structure CapacityLedger where
  remaining : GoMap Nat Counters
  capacities : GoMap Nat Counters

def CapacityLedger.open (ledger : CapacityLedger) (group : ChildGroupRecord) : Result CapacityLedger :=
  match ledger.capacities.get? group.activation with
  | some prior => do
    require (prior.equal group.capacity) .budgetExceeded
    .ok ledger
  | none => .ok ⟨ledger.remaining.set group.activation group.capacity,
      ledger.capacities.set group.activation group.capacity⟩

def CapacityLedger.charge (ledger : CapacityLedger) (group : ChildGroupRecord) :
    Result CapacityLedger := do
  let ledger ← ledger.open group
  let remaining ← group.children.foldlM (chargeChild group)
    ((ledger.remaining.get? group.activation).getD ∅)
  .ok { ledger with remaining := ledger.remaining.set group.activation remaining }

def validateChildCapacityLedger (groups : ChildGroups) : Result Unit := do
  let _ ← groups.values.foldlM CapacityLedger.charge ⟨∅,∅⟩
  .ok ()

def childOutcomeDecisionIDs (groups : ChildGroups) : List Text :=
  groups.values.flatMap fun group =>
    group.children.filterMap fun child => child.outcomeResolution.map fun d => d.decisionID

def validChildOutcomeDecisionIDs (groups : ChildGroups) : Bool :=
  (childOutcomeDecisionIDs groups).Nodup

section Admission

variable [Sha256] {J W : Type}

def childOutcomeRequestDigest (r : ChildOutcomeResolution) : Text := Sha256.sum (childOutcomeRequestText r)

def validChildOutcomeGroupProvenance (group : ChildGroupRecord) (child : ChildRecord)
    (revision : Nat) : Bool :=
  child.outcomeResolution.all fun prior =>
    let resolution : ChildOutcomeResolution := ⟨group.node,group.activation,group.plan.key,
      group.plan.label,child.spec.id,child.executionID,prior.childRevision,prior.decisionID,
      prior.reason,prior.evidence,⟨child.state,child.result,child.error,child.waitID⟩⟩
    prior.sourceRevision < revision && validChildOutcomeRequest resolution &&
      childOutcomeRequestDigest resolution == prior.requestDigest

def validChildGroupProvenance (group : ChildGroupRecord) (revision : Nat) : Bool :=
  group.cancelRequest.all (fun request => request.sourceRevision < revision) &&
  group.children.all (fun child => validChildOutcomeGroupProvenance group child revision &&
    child.cancelConfirmation.all (fun confirmation => confirmation.sourceRevision < revision &&
      group.cancelRequest.any fun request => confirmation.requestID == request.id &&
        request.sourceRevision < confirmation.sourceRevision) &&
    child.waitResolution.all fun resolution => resolution.sourceRevision < revision) &&
  group.budgetReturns.all fun _ returned => returned.sourceRevision < revision

def validPlannedChild (child original : ChildRecord) : Bool :=
  child.executionID == original.executionID &&
    childSpecEncoding child.spec == childSpecEncoding original.spec && validateChildRecordState child

def validateChildGroup (group : ChildGroupRecord) : Bool :=
  (planChildGroup group.parentID group.node group.activation group.plan group.capacity).toOption.any
    fun base => group.children.length == base.children.length && validChildCancellation group &&
      validChildJoin group && validChildBudgetReturns group &&
      childPlanBytes base.plan == childPlanBytes group.plan &&
      (group.children.zip base.children).all fun p => validPlannedChild p.1 p.2

structure ValidGroup (group base : ChildGroupRecord) : Prop where
  length : group.children.length = base.children.length
  cancellation : validChildCancellation group = true
  join : validChildJoin group = true
  returns : validChildBudgetReturns group = true
  plan : childPlanBytes base.plan = childPlanBytes group.plan
  children : ∀ p ∈ group.children.zip base.children, validPlannedChild p.1 p.2 = true

theorem validateChildGroup_iff {group : ChildGroupRecord} : validateChildGroup group = true ↔
    ∃ base, planChildGroup group.parentID group.node group.activation group.plan group.capacity =
      .ok base ∧ ValidGroup group base := by
  unfold validateChildGroup
  cases planChildGroup group.parentID group.node group.activation group.plan group.capacity with
  | error err => simp [Except.toOption]
  | ok base =>
    simp only [Except.toOption,Option.any_some,Bool.and_eq_true,beq_iff_eq,List.all_eq_true,
      Except.ok.injEq,exists_eq_left']
    constructor
    · rintro ⟨⟨⟨⟨⟨h1,h2⟩,h3⟩,h4⟩,h5⟩,h6⟩
      exact ⟨h1,h2,h3,h4,h5,h6⟩
    · rintro ⟨h1,h2,h3,h4,h5,h6⟩
      exact ⟨⟨⟨⟨⟨h1,h2⟩,h3⟩,h4⟩,h5⟩,h6⟩

def ChildGroupRecord.identity (g : ChildGroupRecord) : Text :=
  childExecutionIdentity g.parentID g.node g.activation g.plan.key []

/-- A migrated group keeps its original address under the current key. -/
def boundChildGroupIdentity (envelope : ExecutionEnvelope J ChildGroups W) (key : Text) : Text :=
  match envelope.progress.childGroupReferences.get? key with
  | some identity => identity
  | none => childExecutionIdentity envelope.executionID envelope.progress.executionPointer
      envelope.activation key []

def currentChildGroup (envelope : ExecutionEnvelope J ChildGroups W) (group : ChildGroupRecord) : Bool :=
  group.parentID == envelope.executionID && group.activation == envelope.activation &&
    boundChildGroupIdentity envelope group.plan.key == group.identity

def validateChildGroupReferences (envelope : ExecutionEnvelope J ChildGroups W)
    (groups : ChildGroups) : Result Unit := do
  require (envelope.progress.childGroupReferences.all fun key identity =>
    (groups.get? identity).any fun group => key == group.plan.key &&
      group.activation == envelope.activation) .executionCorrupt
  require (groups.all fun _ group => !group.unmerged || currentChildGroup envelope group)
    .executionCorrupt

def admittedChildGroup (envelope : ExecutionEnvelope J ChildGroups W) (identity : Text)
    (group : ChildGroupRecord) : Bool :=
  validChildGroupProvenance group envelope.revision && identity == group.identity &&
    group.parentID == envelope.executionID && group.activation != 0 &&
    group.activation ≤ envelope.activation && validateChildGroup group

def executionChildGroups (envelope : ExecutionEnvelope J ChildGroups W) : Result ChildGroups := do
  let groups := envelope.children
  require (validChildOutcomeDecisionIDs groups) .executionCorrupt
  require (groups.all (admittedChildGroup envelope)) .executionCorrupt
  validateChildGroupReferences envelope groups
  match validateChildCapacityLedger groups with
  | .error err => .error (.join (.of .executionCorrupt) err)
  | .ok () => .ok groups

structure AdmittedGroups (envelope : ExecutionEnvelope J ChildGroups W) : Prop where
  decisions : (childOutcomeDecisionIDs envelope.children).Nodup
  admitted : ∀ identity group, envelope.children.get? identity = some group →
    admittedChildGroup envelope identity group = true
  references : ∀ key identity, envelope.progress.childGroupReferences.get? key = some identity →
    ∃ group, envelope.children.get? identity = some group ∧ key = group.plan.key ∧
      group.activation = envelope.activation
  current : ∀ identity group, envelope.children.get? identity = some group → group.unmerged = true →
    currentChildGroup envelope group = true
  ledger : validateChildCapacityLedger envelope.children = .ok ()

theorem validateChildGroupReferences_iff {envelope : ExecutionEnvelope J ChildGroups W} :
    validateChildGroupReferences envelope envelope.children = .ok () ↔
      (∀ key identity, envelope.progress.childGroupReferences.get? key = some identity →
        ∃ group, envelope.children.get? identity = some group ∧ key = group.plan.key ∧
          group.activation = envelope.activation) ∧
      ∀ identity group, envelope.children.get? identity = some group → group.unmerged = true →
        currentChildGroup envelope group = true := by
  simp only [validateChildGroupReferences,bind_eq_ok,require_eq_ok,exists_const,GoMap.all_iff,
    Option.any_eq_true,Bool.and_eq_true,beq_iff_eq,Bool.or_eq_true,Bool.not_eq_true']
  refine and_congr Iff.rfl ⟨fun h identity group hg hun => ?_,fun h identity group hg => ?_⟩
  · simpa [hun] using h identity group hg
  · cases hun : group.unmerged with
    | false => exact .inl rfl
    | true => exact .inr (h identity group hg hun)

theorem executionChildGroups_iff {envelope : ExecutionEnvelope J ChildGroups W} {groups : ChildGroups} :
    executionChildGroups envelope = .ok groups ↔ groups = envelope.children ∧ AdmittedGroups envelope := by
  simp only [executionChildGroups,bind_eq_ok,require_eq_ok,exists_const,GoMap.all_iff,
    validChildOutcomeDecisionIDs,decide_eq_true_eq]
  constructor
  · rintro ⟨hids,hadm,⟨⟩,href,h⟩
    obtain ⟨hrefs,hcur⟩ := validateChildGroupReferences_iff.mp href
    split at h
    · cases h
    · rename_i hledger
      cases h
      exact ⟨rfl,hids,hadm,hrefs,hcur,hledger⟩
  · rintro ⟨rfl,h⟩
    refine ⟨h.decisions,h.admitted,(),validateChildGroupReferences_iff.mpr ⟨h.references,h.current⟩,?_⟩
    rw [h.ledger]

theorem executionChildGroups_eq_ok {envelope : ExecutionEnvelope J ChildGroups W} {groups : ChildGroups}
    (h : executionChildGroups envelope = .ok groups) :
    groups = envelope.children ∧ AdmittedGroups envelope :=
  executionChildGroups_iff.mp h

def resolvedChildGroups (envelope : ExecutionEnvelope J ChildGroups W) : Result Unit := do
  let groups ← executionChildGroups envelope
  require (groups.all fun _ group => !(group.activation == envelope.activation && group.unmerged))
    .childrenUnresolved

end Admission
end Flowy
