import Flowy.Encoding

/-! Child groups: a plan fixed before any launch, one record per child, and the decisions hosts
commit about them. Addresses are digests of flat JSON arrays. -/
namespace Flowy

open Json

/-- `unset` is the zero value, and any text that is not one of the eight states. -/
inductive ChildState
  | unset | planned | queued | running | waiting | completed | failed | canceled | unknown
deriving DecidableEq, Repr

inductive ChildFailurePolicy
  | unset | failFast | collectErrors
deriving DecidableEq, Repr

/-- Named units; a Go `int` has 64 bits. -/
abbrev Counters := GoMap Text Int64

/-- Encoded isolated input; an allocation counts named units. Nil slices and maps are `none`: they
read as empty, but JSON writes them as `null`. -/
structure ChildSpec where
  id : Text
  input : Option Bytes
  allocationMap : Option Counters
deriving DecidableEq

def ChildSpec.allocation (s : ChildSpec) : Counters := s.allocationMap.getD ∅

structure ChildGroupPlan where
  key : Text
  label : Text
  mergeLabel : Text
  budgetLabel : Text
  cancelLabel : Text
  maxConcurrency : Int
  failurePolicy : ChildFailurePolicy
  children : List ChildSpec
deriving DecidableEq

structure ChildWaitResolutionRecord where
  waitID : Text
  decisionID : Text
  childRevision : Nat
  sourceRevision : Nat
  incarnation : Nat
  decidedAt : Time
deriving DecidableEq, Repr

structure ChildOutcomeResolutionRecord where
  decisionID : Text
  reason : Text
  evidence : Text
  requestDigest : Text
  priorState : ChildState
  childRevision : Nat
  priorIncarnation : Nat
  sourceRevision : Nat
  incarnation : Nat
  decidedAt : Time
deriving DecidableEq, Repr

structure ChildCancelConfirmationRecord where
  requestID : Text
  decisionID : Text
  reason : Text
  evidence : Text
  priorState : ChildState
  childRevision : Nat
  sourceRevision : Nat
  incarnation : Nat
  decidedAt : Time
deriving DecidableEq, Repr

structure ChildCancelRequestRecord where
  id : Text
  reason : Text
  sourceRevision : Nat
  incarnation : Nat
  decidedAt : Time
deriving DecidableEq, Repr

structure ChildBudgetReturnRecord where
  childRevision : Nat
  decisionID : Text
  reason : Text
  evidence : Text
  used : Counters
  returned : Counters
  sourceRevision : Nat
  incarnation : Nat
  decidedAt : Time
deriving DecidableEq

structure ChildRecord where
  spec : ChildSpec
  executionID : Text
  revision : Nat
  incarnation : Nat
  waitID : Text
  state : ChildState
  result : Bytes
  error : Text
  cancelRequested : Bool
  cancelConfirmed : Bool
  waitResolution : Option ChildWaitResolutionRecord
  outcomeResolution : Option ChildOutcomeResolutionRecord
  cancelConfirmation : Option ChildCancelConfirmationRecord
deriving DecidableEq

structure ChildGroupRecord where
  parentID : Text
  node : ExecutionPointer
  activation : Nat
  plan : ChildGroupPlan
  children : List ChildRecord
  mergedIDs : List Text
  mergedResult : Bytes
  cancelRequested : Bool
  cancelRequest : Option ChildCancelRequestRecord
  capacity : Counters
  budgetReturns : GoMap Text ChildBudgetReturnRecord
deriving DecidableEq

abbrev ChildGroups := GoMap Text ChildGroupRecord

structure ChildResult where
  state : ChildState
  payload : Bytes
  error : Text
  waitID : Text
deriving DecidableEq, Repr

section Encodings

def ChildState.text : ChildState → Text
  | .unset => []
  | .planned => ascii "planned"
  | .queued => ascii "queued"
  | .running => ascii "running"
  | .waiting => ascii "waiting"
  | .completed => ascii "completed"
  | .failed => ascii "failed"
  | .canceled => ascii "canceled"
  | .unknown => ascii "unknown"

def ChildFailurePolicy.text : ChildFailurePolicy → Text
  | .unset => []
  | .failFast => ascii "fail_fast"
  | .collectErrors => ascii "collect_errors"

def childStateCodec : Codec ChildState := .literal fun s => quoted s.text
def childFailurePolicyCodec : Codec ChildFailurePolicy := .literal fun p => quoted p.text
def unitsCodec : Codec Int64 := .literal fun n => intText n.toInt
def boolCodec : Codec Bool := .literal fun b => ascii (if b then "true" else "false")

def objectText (members : List Member) : Bytes := render (objectTokens members)

def childSpecEncoding (s : ChildSpec) : Bytes := objectText
  [field (ascii "id") .text s.id,field (ascii "input") (.nullable payloadCodec) s.input,
    field (ascii "allocation") (.nullable (.map unitsCodec)) s.allocationMap]

def ChildGroupPlan.encoding (p : ChildGroupPlan) : Bytes := objectText
  [field (ascii "key") .text p.key,field (ascii "label") .text p.label,
    field (ascii "merge_label") .text p.mergeLabel,field (ascii "budget_label") .text p.budgetLabel,
    field (ascii "cancel_label") .text p.cancelLabel,
    field (ascii "max_concurrency") intCodec p.maxConcurrency,
    field (ascii "failure_policy") childFailurePolicyCodec p.failurePolicy,
    field (ascii "children") (.list (.literal childSpecEncoding)) p.children]

def ChildWaitResolutionRecord.encoding (d : ChildWaitResolutionRecord) : Bytes := objectText
  [field (ascii "wait_id") .text d.waitID,field (ascii "decision_id") .text d.decisionID,
    field (ascii "child_revision") natCodec d.childRevision,
    field (ascii "source_revision") natCodec d.sourceRevision,
    field (ascii "incarnation") natCodec d.incarnation,field (ascii "at") timeCodec d.decidedAt]

def ChildOutcomeResolutionRecord.encoding (d : ChildOutcomeResolutionRecord) : Bytes := objectText
  [field (ascii "decision_id") .text d.decisionID,field (ascii "reason") .text d.reason,
    field (ascii "evidence") .text d.evidence,field (ascii "request_digest") .text d.requestDigest,
    field (ascii "prior_state") childStateCodec d.priorState,
    field (ascii "child_revision") natCodec d.childRevision,
    field (ascii "prior_incarnation") natCodec d.priorIncarnation,
    field (ascii "source_revision") natCodec d.sourceRevision,
    field (ascii "incarnation") natCodec d.incarnation,field (ascii "at") timeCodec d.decidedAt]

def ChildCancelConfirmationRecord.encoding (d : ChildCancelConfirmationRecord) : Bytes := objectText
  [field (ascii "request_id") .text d.requestID,field (ascii "decision_id") .text d.decisionID,
    field (ascii "reason") .text d.reason,field (ascii "evidence") .text d.evidence,
    field (ascii "prior_state") childStateCodec d.priorState,
    field (ascii "child_revision") natCodec d.childRevision,
    field (ascii "source_revision") natCodec d.sourceRevision,
    field (ascii "incarnation") natCodec d.incarnation,field (ascii "at") timeCodec d.decidedAt]

def ChildCancelRequestRecord.encoding (d : ChildCancelRequestRecord) : Bytes := objectText
  [field (ascii "id") .text d.id,field (ascii "reason") .text d.reason,
    field (ascii "source_revision") natCodec d.sourceRevision,
    field (ascii "incarnation") natCodec d.incarnation,field (ascii "at") timeCodec d.decidedAt]

def ChildBudgetReturnRecord.encoding (d : ChildBudgetReturnRecord) : Bytes := objectText
  [field (ascii "child_revision") natCodec d.childRevision,
    field (ascii "decision_id") .text d.decisionID,field (ascii "reason") .text d.reason,
    field (ascii "evidence") .text d.evidence,field (ascii "used") (.map unitsCodec) d.used,
    field (ascii "returned") (.map unitsCodec) d.returned,
    field (ascii "source_revision") natCodec d.sourceRevision,
    field (ascii "incarnation") natCodec d.incarnation,field (ascii "at") timeCodec d.decidedAt]

def ChildRecord.encoding (c : ChildRecord) : Bytes := objectText
  [field (ascii "spec") (.literal childSpecEncoding) c.spec,
    field (ascii "execution_id") .text c.executionID,field (ascii "revision") natCodec c.revision,
    field (ascii "incarnation") natCodec c.incarnation,
    omitting List.isEmpty (ascii "wait_id") .text c.waitID,
    field (ascii "state") childStateCodec c.state,
    omitting List.isEmpty (ascii "result") payloadCodec c.result,
    omitting List.isEmpty (ascii "error") .text c.error,
    field (ascii "cancel_requested") boolCodec c.cancelRequested,
    field (ascii "cancel_confirmed") boolCodec c.cancelConfirmed,
    optional (ascii "wait_resolution") (.literal ChildWaitResolutionRecord.encoding) c.waitResolution,
    optional (ascii "outcome_resolution") (.literal ChildOutcomeResolutionRecord.encoding)
      c.outcomeResolution,
    optional (ascii "cancel_confirmation") (.literal ChildCancelConfirmationRecord.encoding)
      c.cancelConfirmation]

def childGroupEncoding (g : ChildGroupRecord) : Bytes := objectText
  [field (ascii "parent_id") .text g.parentID,field (ascii "node") .text g.node,
    field (ascii "activation") natCodec g.activation,
    field (ascii "plan") (.literal ChildGroupPlan.encoding) g.plan,
    field (ascii "children") (.list (.literal ChildRecord.encoding)) g.children,
    -- nil until the children are joined
    field (ascii "merged_ids") (.nullable (.list .text))
      (if g.mergedIDs.isEmpty then none else some g.mergedIDs),
    omitting List.isEmpty (ascii "merged_result") payloadCodec g.mergedResult,
    field (ascii "cancel_requested") boolCodec g.cancelRequested,
    optional (ascii "cancel_request") (.literal ChildCancelRequestRecord.encoding) g.cancelRequest,
    field (ascii "capacity") (.map unitsCodec) g.capacity,
    omitting GoMap.isEmpty (ascii "budget_returns") (.map (.literal ChildBudgetReturnRecord.encoding))
      g.budgetReturns]

end Encodings

/-- `slices.SortFunc` with `compareChildIDs`. -/
def sortChildren (children : List ChildSpec) : List ChildSpec :=
  children.insertionSort fun a b => a.id ≤ b.id

def childPlanBytes (plan : ChildGroupPlan) : Bytes :=
  { plan with children := sortChildren plan.children }.encoding

def validChildCapacity (capacity : Counters) : Bool :=
  capacity.all fun name units => name != [] && validRuntimeText [name] && 0 ≤ units

def allocateChildCounter (remaining : Counters) (name : Text) (units : Int64) :
    Result Counters :=
  match remaining.get? name with
  | none => fail .budgetExceeded
  | some available => do
    require (name != [] && validRuntimeText [name] && 0 ≤ units && units ≤ available) .budgetExceeded
    .ok (remaining.set name (available - units))

def allocateChildCounters (remaining allocation : Counters) : Result Counters :=
  allocation.entries.foldlM (fun remaining e => allocateChildCounter remaining e.1 e.2) remaining

def planChildSpecs : List ChildSpec → List Text → Counters → Result Unit
  | [], _, _ => .ok ()
  | spec :: rest, seen, remaining => do
    require (spec.id != [] && validRuntimeText [spec.id]) .childInvalid
    require (!seen.contains spec.id) .childDuplicate
    let remaining ← allocateChildCounters remaining spec.allocation
    planChildSpecs rest (spec.id :: seen) remaining

section Plan

variable [Sha256]

def childExecutionIdentity (parentID : Text) (node : ExecutionPointer) (activation : Nat)
    (group child : Text) : Text :=
  Sha256.sum (scalarArray [.text (ascii "flowy-child"),.text parentID,.text node,.nat activation,
    .text group,.text child])

theorem childExecutionIdentity_injective {p p' n n' g g' c c' : Text} {a a' : Nat}
    (hv : validRuntimeText [p,n,g,c] = true) (hv' : validRuntimeText [p',n',g',c'] = true)
    (h : childExecutionIdentity p n a g c = childExecutionIdentity p' n' a' g' c') :
    p = p' ∧ n = n' ∧ a = a' ∧ g = g' ∧ c = c' := by
  have htag : Utf8.valid (ascii "flowy-child") = true := by decide
  simp only [validRuntimeText,List.all_cons,List.all_nil,Bool.and_true,Bool.and_eq_true] at hv hv'
  have harray := scalarArray_injective (by simp [Scalar.valid,htag,hv]) (by simp [Scalar.valid,htag,hv'])
    (Sha256.injective h)
  simpa using harray

def planChild (parentID : Text) (node : ExecutionPointer) (activation : Nat) (key : Text)
    (spec : ChildSpec) : ChildRecord where
  spec := spec
  executionID := childExecutionIdentity parentID node activation key spec.id
  revision := 0
  incarnation := 0
  waitID := []
  state := .planned
  result := []
  error := []
  cancelRequested := false
  cancelConfirmed := false
  waitResolution := none
  outcomeResolution := none
  cancelConfirmation := none

def planChildGroup (parentID : Text) (node : ExecutionPointer) (activation : Nat)
    (plan : ChildGroupPlan) (available : Counters) : Result ChildGroupRecord := do
  require (parentID != [] && node != [] && activation != 0 && plan.key != [] && plan.label != [] &&
    plan.mergeLabel != [] &&
    validRuntimeText [parentID,node,plan.key,plan.label,plan.mergeLabel,plan.budgetLabel,
      plan.cancelLabel] &&
    plan.budgetLabel != [] && plan.cancelLabel != [] && 0 < plan.maxConcurrency &&
    !plan.children.isEmpty &&
    (plan.failurePolicy == .failFast || plan.failurePolicy == .collectErrors)) .childInvalid
  require (validChildCapacity available) .budgetExceeded
  planChildSpecs plan.children [] available
  let specs := sortChildren plan.children
  .ok {
    parentID := parentID
    node := node
    activation := activation
    plan := { plan with children := specs }
    children := specs.map (planChild parentID node activation plan.key)
    mergedIDs := []
    mergedResult := []
    cancelRequested := false
    cancelRequest := none
    capacity := available
    budgetReturns := ∅ }

end Plan

/-- A merged group has one merged id per child. -/
def ChildGroupRecord.unmerged (g : ChildGroupRecord) : Bool := g.mergedIDs.length != g.children.length

def settledChild (child : ChildRecord) : Bool :=
  child.state == .completed || child.state == .failed || child.state == .canceled

/-- Only the error text of a child is host bytes that nothing checks. -/
def ChildRecord.reread (c : ChildRecord) : ChildRecord := { c with error := Utf8.coerce c.error }

def ChildGroupRecord.reread (g : ChildGroupRecord) : ChildGroupRecord :=
  { g with children := g.children.map ChildRecord.reread }

def ChildRecord.marshals (c : ChildRecord) : Bool :=
  c.waitResolution.all (fun d => d.decidedAt.marshals) &&
    c.outcomeResolution.all (fun d => d.decidedAt.marshals) &&
    c.cancelConfirmation.all (fun d => d.decidedAt.marshals)

def ChildGroupRecord.marshals (g : ChildGroupRecord) : Bool :=
  g.children.all ChildRecord.marshals && g.cancelRequest.all (fun d => d.decidedAt.marshals) &&
    g.budgetReturns.all fun _ d => d.decidedAt.marshals

/-- `json.Marshal` of the groups as the next reader sees them. -/
def marshalChildGroups (groups : ChildGroups) : Result ChildGroups :=
  if groups.all (fun _ g => g.marshals) then .ok (groups.mapValues ChildGroupRecord.reread)
  else .error ⟨ascii "Time.MarshalJSON: year outside of range [0,9999]",[]⟩

end Flowy
