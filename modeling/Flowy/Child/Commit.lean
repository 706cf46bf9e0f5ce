import Flowy.Child.Plan
import Flowy.Child.Advance

/-! The sections as commits: what each of them proposes is one planned group, or one edit of a group
the envelope already has. -/
namespace Flowy

variable {J W : Type}

def ExecutionEnvelope.putGroup (e : ExecutionEnvelope J ChildGroups W) (identity : Text)
    (g : ChildGroupRecord) : ExecutionEnvelope J ChildGroups W :=
  { e with children := (e.children.set identity g).mapValues ChildGroupRecord.reread }

theorem get?_putGroup (e : ExecutionEnvelope J ChildGroups W) (identity identity' : Text)
    (g : ChildGroupRecord) :
    (e.putGroup identity g).children.get? identity' =
      if identity' = identity then some g.reread
      else (e.children.get? identity').map ChildGroupRecord.reread := by
  rw [ExecutionEnvelope.putGroup,GoMap.get?_mapValues,GoMap.get?_set]
  split <;> rfl

/-- All recorded times are in the years JSON can write. -/
def marshalledGroups (groups : ChildGroups) : Bool := groups.all fun _ g => g.marshals

theorem persistChildGroups_eq_ok {e target : ExecutionEnvelope J ChildGroups W} {groups : ChildGroups} :
    persistChildGroups e groups = .ok target ↔ marshalledGroups groups = true ∧
      target = { e with children := groups.mapValues ChildGroupRecord.reread } := by
  simp only [persistChildGroups,bind_eq_ok,marshalChildGroups,marshalledGroups]
  constructor
  · rintro ⟨payload,hp,h⟩
    cases h
    split at hp
    · rename_i hm
      cases hp
      exact ⟨hm,rfl⟩
    · cases hp
  · rintro ⟨hm,rfl⟩
    exact ⟨_,if_pos hm,rfl⟩

theorem get?_of_child {e : ExecutionEnvelope J ChildGroups W} {identity id : Text} {c : ChildRecord}
    (h : ((e.children.get? identity).getD .zero).child? id = some c) :
    e.children.get? identity = some ((e.children.get? identity).getD .zero) := by
  cases hg : e.children.get? identity with
  | none =>
    rw [hg] at h
    cases h
  | some g => rfl

variable [Sha256]

inductive GroupCommit (clock : Time → Bool) (i : Nat) (e : ExecutionEnvelope J ChildGroups W) :
    Text → EditScope → ExecutionEnvelope J ChildGroups W → Prop
  | edit (identity : Text) (g g' : ChildGroupRecord) (a : EditScope)
      (hg : e.children.get? identity = some g) (h : GroupEdit clock i e g a g')
      (hm : marshalledGroups (e.children.set identity g') = true) :
      GroupCommit clock i e identity a (e.putGroup identity g')
  | plan (g : ChildGroupRecord) (plan : ChildGroupPlan) (available : Counters)
      (hnone : e.children.get? g.identity = none)
      (hbound : boundChildGroupIdentity e g.plan.key = g.identity)
      (h : planChildGroup e.executionID e.progress.executionPointer e.activation plan available = .ok g)
      (hledger : validateChildCapacityLedger (e.children.set g.identity g) = .ok ())
      (hm : marshalledGroups (e.children.set g.identity g) = true) :
      GroupCommit clock i e g.identity .group (e.putGroup g.identity g)

theorem AdmittedGroups.header {e : ExecutionEnvelope J ChildGroups W} (h : AdmittedGroups e)
    {identity : Text} {g : ChildGroupRecord} (hg : e.children.get? identity = some g) :
    identity = g.identity ∧ g.parentID = e.executionID ∧
      validRuntimeText [g.parentID,g.node,g.plan.key] = true := by
  have hadm := h.admitted identity g hg
  simp only [admittedChildGroup,Bool.and_eq_true,beq_iff_eq] at hadm
  obtain ⟨⟨⟨⟨⟨-,hid⟩,hparent⟩,-⟩,-⟩,hgroup⟩ := hadm
  obtain ⟨base,hbase,-⟩ := validateChildGroup_iff.mp hgroup
  obtain ⟨⟨h1,h2,-,h4,-⟩,specs,hspecs⟩ := planChildGroup_eq_ok hbase
  refine ⟨hid,hparent,?_⟩
  rw [← h1,← h2,← h4]
  exact hspecs.texts

variable {clock : Time → Bool} {i : Nat}

structure PlansGroup (e : ExecutionEnvelope J ChildGroups W) (plan : ChildGroupPlan) (available : Counters)
    (g : ChildGroupRecord) (target : ExecutionEnvelope J ChildGroups W) : Prop where
  free : e.children.get? g.identity = none
  bound : boundChildGroupIdentity e g.plan.key = g.identity
  planned : planChildGroup e.executionID e.progress.executionPointer e.activation plan available = .ok g
  ledger : validateChildCapacityLedger (e.children.set g.identity g) = .ok ()
  marshalled : marshalledGroups (e.children.set g.identity g) = true
  target : target = e.putGroup g.identity g

theorem prepareChildren_plans {e target : ExecutionEnvelope J ChildGroups W} {plan : ChildGroupPlan}
    {available : Counters} {g : ChildGroupRecord} (h : prepareChildren e plan available = .ok (g,some target)) :
    PlansGroup e plan available g target := by
  simp only [prepareChildren,bind_eq_ok] at h
  obtain ⟨groups,hgroups,h⟩ := h
  obtain ⟨rfl,hadm⟩ := executionChildGroups_eq_ok hgroups
  cases hg : e.children.get? (boundChildGroupIdentity e plan.key) with
  | some prior =>
    rw [hg] at h
    simp only [bind_eq_ok] at h
    obtain ⟨-,-,-,-,h⟩ := h
    cases h
  | none =>
    rw [hg] at h
    simp only [bind_eq_ok] at h
    obtain ⟨group,hplan,⟨⟩,hledger,target',hp,h⟩ := h
    cases h
    obtain ⟨⟨h1,h2,h3,h4,-⟩,-⟩ := planChildGroup_eq_ok hplan
    -- a bound key names a group that exists
    have hid : boundChildGroupIdentity e plan.key = g.identity := by
      unfold boundChildGroupIdentity at hg ⊢
      split
      · rename_i identity href
        obtain ⟨prior,hprior,-⟩ := hadm.references _ _ href
        simp only [href,hprior] at hg
        cases hg
      · rw [ChildGroupRecord.identity,h1,h2,h3,h4]
    rw [hid] at hg hp hledger
    obtain ⟨hm,rfl⟩ := persistChildGroups_eq_ok.mp hp
    exact ⟨hg,h4 ▸ hid,hplan,hledger,hm,rfl⟩

theorem prepareChildren_eq_ok {e : ExecutionEnvelope J ChildGroups W} {plan : ChildGroupPlan}
    {available : Counters} {g : ChildGroupRecord} {t : Option (ExecutionEnvelope J ChildGroups W)}
    (h : prepareChildren e plan available = .ok (g,t)) :
    AdmittedGroups e ∧ ∀ target, t = some target → GroupCommit clock i e g.identity .group target := by
  constructor
  · simp only [prepareChildren,bind_eq_ok] at h
    obtain ⟨groups,hgroups,-⟩ := h
    exact (executionChildGroups_eq_ok hgroups).2
  · rintro target rfl
    obtain ⟨hfree,hbound,hplan,hledger,hm,rfl⟩ := prepareChildren_plans h
    exact .plan g plan available hfree hbound hplan hledger hm

variable (clock) in
theorem recoverChildLaunches_eq_ok {e : ExecutionEnvelope J ChildGroups W} {identity : Text}
    {r : RecoveredGroup J W} (h : recoverChildLaunches i e identity = .ok r) :
    AdmittedGroups e ∧
    (∀ target, r.target = some target → GroupCommit clock i e identity .group target ∧
      target = e.putGroup identity r.group) ∧
    (r.target = none → r.group = (e.children.get? identity).getD .zero) ∧
    (r.pending = false → r.target = none ∧ runningChildren r.group = 0) := by
  simp only [recoverChildLaunches,bind_eq_ok] at h
  obtain ⟨groups,hgroups,children,hchildren,h⟩ := h
  obtain ⟨rfl,hadm⟩ := executionChildGroups_eq_ok hgroups
  refine ⟨hadm,?_⟩
  have hall := mapM_eq_ok hchildren
  cases hany : ((e.children.get? identity).getD .zero).children.any
      (fun child => child.state == .running) with
  | true =>
    rw [if_pos hany] at h
    obtain ⟨target,hp,h⟩ := bind_eq_ok.mp h
    cases h
    obtain ⟨hm,rfl⟩ := persistChildGroups_eq_ok.mp hp
    obtain ⟨c,hc,hs⟩ := List.any_eq_true.mp hany
    cases hg : e.children.get? identity with
    | none =>
      rw [hg] at hc
      cases hc
    | some g =>
      simp only [hg,Option.getD_some] at hc hall hm ⊢
      refine ⟨?_,(fun h => by cases h),fun hpend => ?_⟩
      · intro target ht
        cases ht
        exact ⟨.edit identity g _ .group hg (.recover children ⟨c,hc,by simpa using hs⟩ hall) hm,rfl⟩
      · have hno := List.any_eq_false.mp hpend c hc
        simp [pendingChild,hs] at hno
  | false =>
    rw [hany] at h
    cases h
    have hsame : children = ((e.children.get? identity).getD .zero).children := by
      have hnr := List.any_eq_false.mp hany
      clear hchildren hany
      generalize ((e.children.get? identity).getD ChildGroupRecord.zero).children = xs at hall hnr
      induction hall with
      | nil => rfl
      | cons hc hcs ih =>
        rename_i c c' cs cs'
        rw [ih fun x hx => hnr x (List.mem_cons_of_mem _ hx)]
        rcases recoverChild_eq_ok hc with ⟨-,rfl⟩ | ⟨hs,-⟩
        · rfl
        · exact absurd (beq_iff_eq.mpr hs) (hnr c List.mem_cons_self)
    refine ⟨(fun target h => by cases h),fun _ => by rw [hsame],fun _ => ⟨rfl,?_⟩⟩
    rw [hsame]
    simpa [runningChildren,List.countP_eq_zero] using hany

theorem beginChild_eq_ok {e : ExecutionEnvelope J ChildGroups W} {identity id : Text}
    {p : PendingLaunch} (h : beginChild e identity id = .ok p) :
    AdmittedGroups e ∧ p.groups = e.children ∧ e.children.get? identity = some p.group ∧
      p.child ∈ p.group.children ∧ p.child.spec.id = id ∧ p.group.cancelRequested = false ∧
      launchable p.child = true := by
  simp only [beginChild,bind_eq_ok] at h
  obtain ⟨groups,hgroups,h⟩ := h
  obtain ⟨rfl,hadm⟩ := executionChildGroups_eq_ok hgroups
  split at h
  · cases h
  · rename_i c hc
    simp only [bind_eq_ok,admitLaunch,require_eq_ok,exists_const] at h
    obtain ⟨⟨hrev,hl⟩,h⟩ := h
    cases h
    simp only [Bool.not_eq_true',Bool.or_eq_false_iff] at hrev
    exact ⟨hadm,rfl,get?_of_child hc,child?_mem hc,child?_id hc,hrev.1,hl⟩

theorem finishChild_eq_ok {e target : ExecutionEnvelope J ChildGroups W} {identity : Text}
    {invocation : ChildInvocation} {result : ChildResult}
    (h : finishChild i e identity invocation result = .ok target) :
    AdmittedGroups e ∧ ∃ g c, e.children.get? identity = some g ∧ c ∈ g.children ∧
      c.spec.id = invocation.childID ∧ childInvocationMatches c invocation i = true ∧
      validChildResultState result.state = true ∧ validateChildRecordState (settleChild c result) = true ∧
      marshalledGroups (e.children.set identity (g.setChild (settleChild c result))) = true ∧
      target = e.putGroup identity (g.setChild (settleChild c result)) := by
  simp only [finishChild,bind_eq_ok] at h
  obtain ⟨groups,hgroups,h⟩ := h
  obtain ⟨rfl,hadm⟩ := executionChildGroups_eq_ok hgroups
  refine ⟨hadm,?_⟩
  split at h
  · cases h
  · rename_i c hc
    simp only [bind_eq_ok,require_eq_ok,exists_const] at h
    obtain ⟨hm,hr,hv,hp⟩ := h
    exact ⟨_,c,get?_of_child hc,child?_mem hc,child?_id hc,hm,hr,hv,persistChildGroups_eq_ok.mp hp⟩

omit [Sha256] in
theorem childInvocationMatches_running {c : ChildRecord} {invocation : ChildInvocation}
    (h : childInvocationMatches c invocation i = true) : c.state = .running ∧ c.incarnation = i := by
  simp only [childInvocationMatches,Bool.and_eq_true,beq_iff_eq] at h
  exact ⟨h.1.1.1,h.2⟩

theorem finishChild_commit {e target : ExecutionEnvelope J ChildGroups W} {identity : Text}
    {invocation : ChildInvocation} {result : ChildResult}
    (h : finishChild i e identity invocation result = .ok target) :
    GroupCommit clock i e identity (.child invocation.childID) target := by
  obtain ⟨-,g,c,hg,hc,hid,hmatch,hr,hv,hm,rfl⟩ := finishChild_eq_ok h
  obtain ⟨hs,hi⟩ := childInvocationMatches_running hmatch
  rw [← hid]
  exact .edit identity g _ (.child c.spec.id) hg (.finish c hc result hs hi hr hv) hm

theorem assertedChildGroup_eq_ok {e : ExecutionEnvelope J ChildGroups W} {expected g : ChildGroupRecord}
    (h : assertedChildGroup e e.children expected = .ok g) :
    e.children.get? expected.identity = some g ∧ currentChildGroup e g = true := by
  unfold assertedChildGroup at h
  split at h
  · cases h
  · rename_i group hg
    simp only [bind_eq_ok,require_eq_ok,exists_const,Bool.and_eq_true] at h
    obtain ⟨⟨hcur,-⟩,h⟩ := h
    cases h
    exact ⟨hg,hcur⟩

theorem joinChildren_eq_ok {e : ExecutionEnvelope J ChildGroups W} {expected : ChildGroupRecord}
    {merge : List ChildRecord → Result Bytes} {result : Bytes}
    {t : Option (ExecutionEnvelope J ChildGroups W)} (h : joinChildren e expected merge = .ok (result,t))
    {target : ExecutionEnvelope J ChildGroups W} (ht : t = some target) :
    GroupCommit clock i e expected.identity .group target := by
  subst ht
  simp only [joinChildren,bind_eq_ok] at h
  obtain ⟨-,-,groups,hgroups,g,hg,h⟩ := h
  cases hread : executionChildGroups e with
  | error err =>
    rw [hread] at hgroups
    cases hgroups
  | ok groups' =>
    rw [hread] at hgroups
    cases hgroups
    obtain ⟨rfl,-⟩ := executionChildGroups_eq_ok hread
    obtain ⟨hget,-⟩ := assertedChildGroup_eq_ok hg
    split at h
    · cases h
    · rename_i hm
      simp only [bind_eq_ok,require_eq_ok,exists_const] at h
      obtain ⟨hs,bytes,-,target',hp,h⟩ := h
      cases h
      obtain ⟨hmar,rfl⟩ := persistChildGroups_eq_ok.mp hp
      exact .edit _ g _ .group hget (.join _ (by simpa [ChildGroupRecord.unmerged] using hm)
        (List.all_eq_true.mp hs)) hmar

theorem requestChildCancellation_some_iff {e t : ExecutionEnvelope J ChildGroups W}
    {expected g : ChildGroupRecord} {request : ChildCancelRequest} {now : Time} :
    requestChildCancellation i e expected request now = .ok (g,some t) ↔
      request.check = .ok () ∧ validChildGroupText expected = true ∧ executionChildGroups e = .ok e.children ∧
      ∃ group children, assertedChildGroup e e.children expected = .ok group ∧ group.mergedIDs = [] ∧
        group.cancelRequest = none ∧ group.children.mapM requestChildCancel = .ok children ∧
        g = { group with
          cancelRequested := true
          cancelRequest := some ⟨request.id,request.reason,e.revision,i,now⟩
          children := children } ∧
        marshalledGroups (e.children.set expected.identity g) = true ∧ t = e.putGroup expected.identity g := by
  simp only [requestChildCancellation,bind_eq_ok,require_eq_ok,exists_const,beq_iff_eq]
  constructor
  · rintro ⟨_,hcheck,htext,groups,hgroups,group,hg,hmerged,h⟩
    obtain ⟨rfl,-⟩ := executionChildGroups_eq_ok hgroups
    cases hc : group.cancelRequest with
    | some prior =>
      simp only [hc,bind_eq_ok] at h
      obtain ⟨-,-,h⟩ := h
      cases h
    | none =>
      simp only [hc,bind_eq_ok] at h
      obtain ⟨children,hchildren,target,hp,h⟩ := h
      cases h
      exact ⟨hcheck,htext,hgroups,group,children,hg,hmerged,hc,hchildren,rfl,
        persistChildGroups_eq_ok.mp hp⟩
  · rintro ⟨hcheck,htext,hgroups,group,children,hg,hmerged,hc,hchildren,rfl,hm,rfl⟩
    refine ⟨(),hcheck,htext,e.children,hgroups,group,hg,hmerged,?_⟩
    simp only [hc,bind_eq_ok]
    exact ⟨children,hchildren,_,persistChildGroups_eq_ok.mpr ⟨hm,rfl⟩,rfl⟩

theorem requestChildCancellation_commit {e t : ExecutionEnvelope J ChildGroups W}
    {expected g : ChildGroupRecord} {request : ChildCancelRequest} {now : Time} (hnow : clock now = true)
    (h : requestChildCancellation i e expected request now = .ok (g,some t)) :
    GroupCommit clock i e expected.identity .group t := by
  obtain ⟨hcheck,-,-,group,children,hg,hmerged,hfresh,hchildren,rfl,hm,rfl⟩ :=
    requestChildCancellation_some_iff.mp h
  exact .edit _ group _ .group (assertedChildGroup_eq_ok hg).1
    (.cancel request now children hnow hcheck hmerged hfresh (mapM_eq_ok hchildren)) hm

theorem returnChildBudget_some_iff {e t : ExecutionEnvelope J ChildGroups W}
    {expected g : ChildGroupRecord} {claim : ChildBudgetReturn} {now : Time} :
    returnChildBudget i e expected claim now = .ok (g,some t) ↔
      claim.check = .ok () ∧ validChildGroupText expected = true ∧ executionChildGroups e = .ok e.children ∧
      ∃ group child returned, assertedChildGroup e e.children expected = .ok group ∧
        group.budgetReturns.get? claim.childID = none ∧
        childForBudgetReturn group claim.childID = some child ∧ child.revision = claim.childRevision ∧
        computeChildBudgetReturn child claim.used = .ok returned ∧
        g = { group with
          budgetReturns := group.budgetReturns.set claim.childID ⟨claim.childRevision,claim.decisionID,
            claim.reason,claim.evidence,claim.used,returned,e.revision,i,now⟩ } ∧
        marshalledGroups (e.children.set expected.identity g) = true ∧ t = e.putGroup expected.identity g := by
  simp only [returnChildBudget,bind_eq_ok,require_eq_ok,exists_const]
  constructor
  · rintro ⟨_,hcheck,htext,groups,hgroups,group,hg,h⟩
    obtain ⟨rfl,-⟩ := executionChildGroups_eq_ok hgroups
    cases hc : group.budgetReturns.get? claim.childID with
    | some prior =>
      simp only [hc,bind_eq_ok] at h
      obtain ⟨-,-,h⟩ := h
      cases h
    | none =>
      cases hchild : childForBudgetReturn group claim.childID with
      | none =>
        simp only [hc,hchild] at h
        cases h
      | some child =>
        simp only [hc,hchild,bind_eq_ok,require_eq_ok,exists_const,beq_iff_eq] at h
        obtain ⟨hrev,returned,hret,target,hp,h⟩ := h
        cases h
        exact ⟨hcheck,htext,hgroups,group,child,returned,hg,hc,hchild,hrev,hret,rfl,
          persistChildGroups_eq_ok.mp hp⟩
  · rintro ⟨hcheck,htext,hgroups,group,child,returned,hg,hc,hchild,hrev,hret,rfl,hm,rfl⟩
    refine ⟨(),hcheck,htext,e.children,hgroups,group,hg,?_⟩
    simp only [hc,hchild,bind_eq_ok,require_eq_ok,exists_const,beq_iff_eq]
    exact ⟨hrev,returned,hret,_,persistChildGroups_eq_ok.mpr ⟨hm,rfl⟩,rfl⟩

theorem returnChildBudget_commit {e t : ExecutionEnvelope J ChildGroups W}
    {expected g : ChildGroupRecord} {claim : ChildBudgetReturn} {now : Time} (hnow : clock now = true)
    (h : returnChildBudget i e expected claim now = .ok (g,some t)) :
    GroupCommit clock i e expected.identity (.child claim.childID) t := by
  obtain ⟨hcheck,-,-,group,child,returned,hg,hfresh,hchild,hrev,hret,rfl,hm,rfl⟩ :=
    returnChildBudget_some_iff.mp h
  exact .edit _ group _ (.child claim.childID) (assertedChildGroup_eq_ok hg).1
    (.credit claim child returned now hnow hcheck hfresh hchild hrev hret) hm

theorem addressedChildGroup_eq_ok {e : ExecutionEnvelope J ChildGroups W} {node : ExecutionPointer}
    {activation : Nat} {key identity : Text} {g : ChildGroupRecord}
    (h : addressedChildGroup e e.children node activation key = .ok (identity,g)) :
    identity = childExecutionIdentity e.executionID node activation key [] ∧
      e.children.get? identity = some g ∧ currentChildGroup e g = true ∧ g.mergedIDs = [] := by
  unfold addressedChildGroup at h
  dsimp only at h
  split at h
  · cases h
  · rename_i group hg
    simp only [bind_eq_ok,require_eq_ok,exists_const,Bool.and_eq_true,beq_iff_eq] at h
    obtain ⟨⟨hcur,hm⟩,h⟩ := h
    cases h
    exact ⟨rfl,hg,hcur,hm⟩

omit [Sha256] in
theorem commitDecidedChild_eq_ok {e target : ExecutionEnvelope J ChildGroups W} {identity : Text}
    {g : ChildGroupRecord} {decided : ChildRecord}
    (h : commitDecidedChild e e.children identity g decided = .ok target) :
    validateChildRecordState decided = true ∧
      marshalledGroups (e.children.set identity (g.setChild decided)) = true ∧
      target = e.putGroup identity (g.setChild decided) := by
  simp only [commitDecidedChild,bind_eq_ok,require_eq_ok,exists_const] at h
  exact ⟨h.1,persistChildGroups_eq_ok.mp h.2⟩

theorem confirmChildCancellation_eq_ok {e target : ExecutionEnvelope J ChildGroups W}
    {decision : ChildCancelConfirmation} {now : Time} (hnow : clock now = true)
    (h : confirmChildCancellation i e decision now = .ok target) :
    GroupCommit clock i e (childExecutionIdentity e.executionID decision.node decision.activation
      decision.groupKey []) (.child decision.childID) target := by
  simp only [confirmChildCancellation,bind_eq_ok] at h
  obtain ⟨⟨⟩,hcheck,-,-,groups,hgroups,⟨identity,g⟩,hg,u,hrequest,h⟩ := h
  obtain ⟨rfl,-⟩ := executionChildGroups_eq_ok hgroups
  obtain ⟨rfl,hget,-,hm⟩ := addressedChildGroup_eq_ok hg
  simp only [require_eq_ok,Option.any_eq_true,beq_iff_eq] at hrequest
  split at h
  · cases h
  · rename_i c hc
    simp only [bind_eq_ok,require_eq_ok,exists_const,Bool.and_eq_true,beq_iff_eq] at h
    obtain ⟨⟨⟨⟨⟨⟨-,hrev⟩,-⟩,hasked⟩,-⟩,hopen⟩,h⟩ := h
    obtain ⟨hv,hmar,rfl⟩ := commitDecidedChild_eq_ok h
    rw [← child?_id hc]
    exact .edit _ g _ (.child c.spec.id) hget (.decide c _ (child?_mem hc) hm
      (.confirm decision now hnow hcheck hrequest hrev hasked hopen) hv) hmar

theorem resolveChildWait_eq_ok {e target : ExecutionEnvelope J ChildGroups W}
    {resolution : ChildWaitResolution} {now : Time} (hnow : clock now = true)
    (h : resolveChildWait i e resolution now = .ok target) :
    GroupCommit clock i e (childExecutionIdentity e.executionID resolution.node
      resolution.activation resolution.groupKey []) (.child resolution.childID) target := by
  simp only [resolveChildWait,bind_eq_ok] at h
  obtain ⟨⟨⟩,hcheck,-,-,groups,hgroups,⟨identity,g⟩,hg,h⟩ := h
  obtain ⟨rfl,-⟩ := executionChildGroups_eq_ok hgroups
  obtain ⟨rfl,hget,-,hm⟩ := addressedChildGroup_eq_ok hg
  split at h
  · cases h
  · rename_i c hc
    simp only [bind_eq_ok,require_eq_ok,exists_const,Bool.and_eq_true,beq_iff_eq] at h
    obtain ⟨⟨⟨⟨⟨⟨-,hrev⟩,-⟩,hs⟩,hw⟩,-⟩,h⟩ := h
    obtain ⟨hv,hmar,rfl⟩ := commitDecidedChild_eq_ok h
    rw [← child?_id hc]
    exact .edit _ g _ (.child c.spec.id) hget (.decide c _ (child?_mem hc) hm
      (.wait resolution now hnow hcheck hrev hs hw) hv) hmar

omit [Sha256] in
theorem childOutcomeDecisionReplay_eq_false {groups : ChildGroups} {r : ChildOutcomeResolution}
    {digest : Text} (h : childOutcomeDecisionReplay groups r digest = .ok false) :
    r.decisionID ∉ childOutcomeDecisionIDs groups := by
  unfold childOutcomeDecisionReplay at h
  dsimp only at h
  split at h
  · rename_i hnone
    intro hmem
    simp only [childOutcomeDecisionIDs,List.mem_flatMap,List.mem_filterMap,Option.map_eq_some_iff] at hmem
    obtain ⟨g,hg,c,hc,d,hd,hid⟩ := hmem
    have hno := List.find?_eq_none.mp hnone (c.executionID,d)
      (List.mem_flatMap.mpr ⟨g,hg,List.mem_filterMap.mpr ⟨c,hc,by simp [hd]⟩⟩)
    simp [hid] at hno
  · split at h <;> cases h

omit [Sha256] in
theorem validChildOutcomeRequest_text {r : ChildOutcomeResolution} (h : validChildOutcomeRequest r = true)
    {x : Text} (hx : x ∈ [r.node,r.groupKey,r.groupLabel,r.childID,r.executionID,r.decisionID,r.reason,
      r.evidence]) : Utf8.valid x = true := by
  unfold validChildOutcomeRequest at h
  rw [Bool.and_eq_true,Bool.and_eq_true] at h
  have hall := List.all_eq_true.mp h.1.1 x hx
  simp only [validRuntimeText,List.all_cons,List.all_nil,Bool.and_true,Bool.and_eq_true] at hall
  exact hall.2

structure DecidesOutcome (i : Nat) (e : ExecutionEnvelope J ChildGroups W) (r : ChildOutcomeResolution)
    (now : Time) (g : ChildGroupRecord) (c : ChildRecord) (target : ExecutionEnvelope J ChildGroups W) :
    Prop where
  check : validChildOutcomeRequest r = true
  group : e.children.get? (childExecutionIdentity e.executionID r.node r.activation r.groupKey []) = some g
  header : r.node = g.node ∧ r.activation = g.activation ∧ r.groupKey = g.plan.key ∧ r.groupLabel = g.plan.label
  unmerged : g.mergedIDs = []
  mem : c ∈ g.children
  child : r.childID = c.spec.id ∧ r.executionID = c.executionID ∧ r.childRevision = c.revision
  undecided : c.outcomeResolution = none
  fresh : r.decisionID ∉ childOutcomeDecisionIDs e.children
  state : c.state = .unknown ∨ (c.state = .running ∧ c.incarnation < i)
  valid : validateChildRecordState
    (resolveUnknownChild r (childOutcomeRequestDigest r) e.revision i now c) = true
  marshalled : marshalledGroups (e.children.set
    (childExecutionIdentity e.executionID r.node r.activation r.groupKey [])
    (g.setChild (resolveUnknownChild r (childOutcomeRequestDigest r) e.revision i now c))) = true
  target : target = e.putGroup (childExecutionIdentity e.executionID r.node r.activation r.groupKey [])
    (g.setChild (resolveUnknownChild r (childOutcomeRequestDigest r) e.revision i now c))

theorem resolveChildOutcome_decides {e target : ExecutionEnvelope J ChildGroups W}
    {resolution : ChildOutcomeResolution} {now : Time}
    (h : resolveChildOutcome i e resolution now = .ok (some target)) :
    ∃ g c, DecidesOutcome i e resolution now g c target := by
  simp only [resolveChildOutcome,bind_eq_ok] at h
  obtain ⟨u,hcheck,groups,hgroups,⟨identity,g⟩,hg,v,hlabel,-,-,replay,hreplay,h⟩ := h
  obtain ⟨rfl,hadm⟩ := executionChildGroups_eq_ok hgroups
  obtain ⟨rfl,hget,-,hm⟩ := addressedChildGroup_eq_ok hg
  simp only [require_eq_ok,beq_iff_eq] at hcheck hlabel
  cases replay with
  | true => cases h
  | false =>
    rw [if_neg Bool.false_ne_true] at h
    split at h
    · cases h
    · rename_i c hc
      simp only [bind_eq_ok,require_eq_ok,exists_const,Bool.and_eq_true,beq_iff_eq] at h
      obtain ⟨⟨⟨⟨hexec,hrev⟩,hnone⟩,-⟩,hs,target',h',h⟩ := h
      cases h
      obtain ⟨hv,hmar,rfl⟩ := commitDecidedChild_eq_ok h'
      -- the address of the group determines its header
      obtain ⟨hid,hparent,htexts⟩ := hadm.header hget
      have hnodeText := validChildOutcomeRequest_text hcheck (x := resolution.node) (by simp)
      have hkeyText := validChildOutcomeRequest_text hcheck (x := resolution.groupKey) (by simp)
      simp only [validRuntimeText,List.all_cons,List.all_nil,Bool.and_eq_true,Bool.and_true] at htexts
      obtain ⟨-,hnode,hact,hkey,-⟩ := childExecutionIdentity_injective
        (by simp [validRuntimeText,hnodeText,hkeyText,← hparent,htexts,show Utf8.valid [] = true from rfl])
        (by simp [validRuntimeText,htexts,show Utf8.valid [] = true from rfl]) hid
      simp only [Bool.or_eq_true,Bool.and_eq_true,beq_iff_eq,decide_eq_true_eq] at hs
      exact ⟨g,c,hcheck,hget,⟨hnode,hact,hkey,hlabel.symm⟩,hm,child?_mem hc,
        ⟨(child?_id hc).symm,hexec.symm,hrev.symm⟩,Option.isNone_iff_eq_none.mp hnone,
        childOutcomeDecisionReplay_eq_false hreplay,hs,hv,hmar,rfl⟩

theorem resolveChildOutcome_eq_ok {e : ExecutionEnvelope J ChildGroups W}
    {resolution : ChildOutcomeResolution} {now : Time} {t : Option (ExecutionEnvelope J ChildGroups W)}
    (hnow : clock now = true) (h : resolveChildOutcome i e resolution now = .ok t)
    {target : ExecutionEnvelope J ChildGroups W} (ht : t = some target) :
    GroupCommit clock i e (childExecutionIdentity e.executionID resolution.node
      resolution.activation resolution.groupKey []) (.child resolution.childID) target := by
  subst ht
  obtain ⟨g,c,hd⟩ := resolveChildOutcome_decides h
  rw [hd.target,hd.child.1]
  exact .edit _ g _ (.child c.spec.id) hd.group (.decide c _ hd.mem hd.unmerged
    (.outcome resolution now hnow hd.check hd.header hd.child hd.fresh hd.state) hd.valid) hd.marshalled

/-- Everything the runtime commits to the groups of an envelope it has read, as session `i`: one
constructor for each storage operation of the sections, with the group and what it is about. -/
inductive ChildOperation (clock : Time → Bool) (i : Nat) (e : ExecutionEnvelope J ChildGroups W) :
    Text → EditScope → ExecutionEnvelope J ChildGroups W → Prop
  | prepare (plan : ChildGroupPlan) (available : Counters) (g : ChildGroupRecord)
      (t : ExecutionEnvelope J ChildGroups W) (h : prepareChildren e plan available = .ok (g,some t)) :
      ChildOperation clock i e g.identity .group t
  | recover (identity : Text) (r : RecoveredGroup J W) (t : ExecutionEnvelope J ChildGroups W)
      (h : recoverChildLaunches i e identity = .ok r) (ht : r.target = some t) :
      ChildOperation clock i e identity .group t
  | queue (identity id : Text) (p : PendingLaunch) (t : ExecutionEnvelope J ChildGroups W)
      (h : beginChild e identity id = .ok p) (hs : p.child.state = .planned)
      (ht : persistChildGroups e (p.put identity (queueChild p.child)).groups = .ok t) :
      ChildOperation clock i e identity (.child id) t
  /-- The launch of a queued child; `p` is what `beginChildLocked` holds when it gets there. -/
  | run (identity : Text) (p : PendingLaunch) (t : ExecutionEnvelope J ChildGroups W)
      (hgroups : p.groups = e.children) (hgroup : e.children.get? identity = some p.group)
      (hchild : p.child ∈ p.group.children) (hs : p.child.state = .queued)
      (hc : p.group.cancelRequested = false)
      (ht : persistChildGroups e (p.put identity (startChild i p.child)).groups = .ok t) :
      ChildOperation clock i e identity (.launch p.child.spec.id) t
  | finish (identity : Text) (invocation : ChildInvocation) (result : ChildResult)
      (t : ExecutionEnvelope J ChildGroups W) (h : finishChild i e identity invocation result = .ok t) :
      ChildOperation clock i e identity (.child invocation.childID) t
  | join (expected : ChildGroupRecord) (merge : List ChildRecord → Result Bytes) (result : Bytes)
      (t : ExecutionEnvelope J ChildGroups W) (h : joinChildren e expected merge = .ok (result,some t)) :
      ChildOperation clock i e expected.identity .group t
  | cancel (expected g : ChildGroupRecord) (request : ChildCancelRequest) (now : Time)
      (t : ExecutionEnvelope J ChildGroups W) (hnow : clock now = true)
      (h : requestChildCancellation i e expected request now = .ok (g,some t)) :
      ChildOperation clock i e expected.identity .group t
  | credit (expected g : ChildGroupRecord) (claim : ChildBudgetReturn) (now : Time)
      (t : ExecutionEnvelope J ChildGroups W) (hnow : clock now = true)
      (h : returnChildBudget i e expected claim now = .ok (g,some t)) :
      ChildOperation clock i e expected.identity (.child claim.childID) t
  | confirm (decision : ChildCancelConfirmation) (now : Time) (t : ExecutionEnvelope J ChildGroups W)
      (hnow : clock now = true) (h : confirmChildCancellation i e decision now = .ok t) :
      ChildOperation clock i e (childExecutionIdentity e.executionID decision.node
        decision.activation decision.groupKey []) (.child decision.childID) t
  | wait (resolution : ChildWaitResolution) (now : Time) (t : ExecutionEnvelope J ChildGroups W)
      (hnow : clock now = true) (h : resolveChildWait i e resolution now = .ok t) :
      ChildOperation clock i e (childExecutionIdentity e.executionID resolution.node
        resolution.activation resolution.groupKey []) (.child resolution.childID) t
  | outcome (resolution : ChildOutcomeResolution) (now : Time) (t : ExecutionEnvelope J ChildGroups W)
      (hnow : clock now = true) (h : resolveChildOutcome i e resolution now = .ok (some t)) :
      ChildOperation clock i e (childExecutionIdentity e.executionID resolution.node
        resolution.activation resolution.groupKey []) (.child resolution.childID) t

theorem ChildOperation.commit {e t : ExecutionEnvelope J ChildGroups W} {identity : Text} {a : EditScope}
    (h : ChildOperation clock i e identity a t) : GroupCommit clock i e identity a t := by
  cases h with
  | prepare plan available g t h => exact (prepareChildren_eq_ok h).2 t rfl
  | recover identity r t h ht => exact ((recoverChildLaunches_eq_ok clock h).2.1 t ht).1
  | queue identity id p t h hs ht =>
    obtain ⟨-,hgroups,hg,hc,hid,hcancel,-⟩ := beginChild_eq_ok h
    rw [PendingLaunch.put,hgroups] at ht
    obtain ⟨hmar,rfl⟩ := persistChildGroups_eq_ok.mp ht
    rw [← hid]
    exact .edit identity p.group _ (.child p.child.spec.id) hg (.queue p.child hc hcancel hs) hmar
  | run identity p t hgroups hg hc hs hcancel ht =>
    rw [PendingLaunch.put,hgroups] at ht
    obtain ⟨hmar,rfl⟩ := persistChildGroups_eq_ok.mp ht
    exact .edit identity p.group _ (.launch p.child.spec.id) hg (.start p.child hc hcancel hs) hmar
  | finish identity invocation result t h => exact finishChild_commit h
  | join expected merge result t h => exact joinChildren_eq_ok h rfl
  | cancel expected g request now t hnow h => exact requestChildCancellation_commit hnow h
  | credit expected g claim now t hnow h => exact returnChildBudget_commit hnow h
  | confirm decision now t hnow h => exact confirmChildCancellation_eq_ok hnow h
  | wait resolution now t hnow h => exact resolveChildWait_eq_ok hnow h
  | outcome resolution now t hnow h => exact resolveChildOutcome_eq_ok hnow h rfl

end Flowy
