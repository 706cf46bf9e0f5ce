import Flowy.Child.Advance
import Flowy.Child.Plan

/-! Admission of one group, sorted by what it is about: the plan the group follows, each child under
its group, and the group's own decisions. Reading a group back from JSON changes none of it. -/
namespace Flowy

open Json

theorem validRuntimeText_cons (t : Text) (ts : List Text) :
    validRuntimeText (t :: ts) = (Utf8.valid t && validRuntimeText ts) := rfl

section Records

theorem coerce_beq_nil (t : Text) : (Utf8.coerce t == []) = (t == []) := by
  rw [Bool.eq_iff_iff,beq_iff_eq,beq_iff_eq]
  exact Utf8.coerce_eq_nil_iff t

theorem validateChildStateMachine_reread (c : ChildRecord) :
    validateChildStateMachine c.reread = validateChildStateMachine c := by
  simp only [validateChildStateMachine,ChildRecord.reread,coerce_beq_nil,bne]
  rfl

/-- Decisions only stand on settled records. -/
theorem undecided_of_open {c : ChildRecord} (hv : validateChildRecordState c = true)
    (hopen : settledChild c = false) : c.waitResolution = none ∧ c.outcomeResolution = none ∧
      c.cancelConfirmation = none ∧ c.cancelConfirmed = false := by
  simp only [settledChild,Bool.or_eq_false_iff,beq_eq_false_iff_ne,ne_eq] at hopen
  obtain ⟨⟨h1,h2⟩,h3⟩ := hopen
  simp only [validateChildRecordState,Bool.and_eq_true] at hv
  obtain ⟨⟨⟨⟨-,hwait⟩,hconfirm⟩,houtcome⟩,hstate⟩ := hv
  refine ⟨?_,?_,?_,?_⟩
  · cases hd : c.waitResolution with
    | none => rfl
    | some d => simp [validChildWaitResolution,hd,h1,h2] at hwait
  · cases hd : c.outcomeResolution with
    | none => rfl
    | some d => simp [validChildOutcomeResolution,hd,h1,h2] at houtcome
  · cases hd : c.cancelConfirmation with
    | none => rfl
    | some d => simp [validChildCancelConfirmation,hd,h3] at hconfirm
  · cases hd : c.cancelConfirmed with
    | false => rfl
    | true => simp [validateChildStateMachine,hd,h3] at hstate

theorem validateChildRecordState_of_undecided {c : ChildRecord} (hw : c.waitResolution = none)
    (ho : c.outcomeResolution = none) (hc : c.cancelConfirmation = none) :
    validateChildRecordState c = true ↔
      validRuntimeText [c.waitID] = true ∧ validateChildStateMachine c = true := by
  simp [validateChildRecordState,validChildWaitResolution,validChildCancelConfirmation,
    validChildOutcomeResolution,hw,ho,hc]

/-- The only text JSON may repair is an error that no decision has checked. -/
theorem reread_of_decided {c : ChildRecord} (hv : validateChildRecordState c = true)
    (hd : c.waitResolution ≠ none ∨ c.outcomeResolution ≠ none) : c.reread = c := by
  have herror : Utf8.valid c.error = true := by
    simp only [validateChildRecordState,Bool.and_eq_true] at hv
    obtain ⟨⟨⟨⟨-,hwait⟩,-⟩,houtcome⟩,-⟩ := hv
    rcases hd with hd | hd
    · obtain ⟨d,hd⟩ := Option.ne_none_iff_exists'.mp hd
      simp only [validChildWaitResolution,hd,Option.all_some,Bool.and_eq_true,validRuntimeText_cons] at hwait
      exact hwait.1.1.1.1.1.1.1.2.2.2.1
    · obtain ⟨d,hd⟩ := Option.ne_none_iff_exists'.mp hd
      simp only [validChildOutcomeResolution,hd,Option.all_some,Bool.and_eq_true,
        validRuntimeText_cons] at houtcome
      exact houtcome.1.1.1.1.1.1.1.1.1.2.2.2.2.1
  rw [ChildRecord.reread,Utf8.coerce_of_valid herror]

theorem validateChildRecordState_reread {c : ChildRecord} (h : validateChildRecordState c = true) :
    validateChildRecordState c.reread = true := by
  by_cases hd : c.waitResolution ≠ none ∨ c.outcomeResolution ≠ none
  · rwa [reread_of_decided h hd]
  · rw [not_or,not_not,not_not] at hd
    simp only [validateChildRecordState,Bool.and_eq_true] at h ⊢
    obtain ⟨⟨⟨⟨htext,-⟩,hconfirm⟩,-⟩,hstate⟩ := h
    refine ⟨⟨⟨⟨htext,?_⟩,hconfirm⟩,?_⟩,by rwa [validateChildStateMachine_reread]⟩
    · simp [validChildWaitResolution,ChildRecord.reread,hd.1]
    · simp [validChildOutcomeResolution,ChildRecord.reread,hd.2]

/-- What a return is: a settled child whose usage accounts for every unit it was given. -/
structure Returned (c : ChildRecord) (used returned : Counters) : Prop where
  valid : validateChildRecordState c = true
  settled : settledChild c = true
  within : ∀ name units, used.get? name = some units → 0 ≤ units.toInt ∧
    ∃ allocated, c.spec.allocation.get? name = some allocated ∧ units.toInt ≤ allocated.toInt
  accounted : ∀ name allocated, c.spec.allocation.get? name = some allocated → name ≠ [] ∧
    0 ≤ allocated.toInt ∧ (used.get? name).isSome = true
  rest : ∀ name, returned.get? name =
    (c.spec.allocation.get? name).map fun allocated => allocated - (used.get? name).getD 0

theorem computeChildBudgetReturn_eq_ok {c : ChildRecord} {used returned : Counters}
    (h : computeChildBudgetReturn c used = .ok returned) : Returned c used returned := by
  simp only [computeChildBudgetReturn,bind_eq_ok,require_eq_ok,exists_const,GoMap.all_iff,Bool.and_eq_true,
    decide_eq_true_eq,Option.any_eq_true,bne_iff_ne,ne_eq,Int64.le_iff_toInt_le,Int64.toInt_zero] at h
  obtain ⟨hv,hs,hused,hacc,h⟩ := h
  cases h
  refine ⟨hv,hs,fun name units hu => ⟨(hused name units hu).1.2,(hused name units hu).2⟩,
    fun name allocated ha => ⟨(hacc name allocated ha).1.1,(hacc name allocated ha).1.2,(hacc name allocated ha).2⟩,
    fun name => ?_⟩
  rw [GoMap.get?_foldl_set c.spec.allocation (fun name allocated => allocated - (used.get? name).getD 0) ∅ name,
    GoMap.get?_empty,Option.or_none]

theorem computeChildBudgetReturn_reread {c : ChildRecord} {used returned : Counters}
    (h : computeChildBudgetReturn c used = .ok returned) :
    computeChildBudgetReturn c.reread used = .ok returned := by
  simp only [computeChildBudgetReturn,bind_eq_ok,require_eq_ok,exists_const] at h ⊢
  exact ⟨validateChildRecordState_reread h.1,h.2⟩

end Records

section Groups

variable [Sha256]

structure ChildOk (g : ChildGroupRecord) (revision : Nat) (c : ChildRecord) : Prop where
  valid : validateChildRecordState c = true
  outcome : validChildOutcomeGroupProvenance g c revision = true
  confirmation : ∀ d, c.cancelConfirmation = some d → d.sourceRevision < revision ∧
    ∃ r, g.cancelRequest = some r ∧ d.requestID = r.id ∧ r.sourceRevision < d.sourceRevision
  wait : ∀ d, c.waitResolution = some d → d.sourceRevision < revision
  asked : g.cancelRequested = true → launchable c = false ∧ (settledChild c = true ∨ c.cancelRequested = true)
  unasked : g.cancelRequested = false → c.cancelRequested = false ∧ c.cancelConfirmed = false

def validCancelRequest (r : ChildCancelRequestRecord) : Bool :=
  r.id != [] && r.reason != [] && r.sourceRevision != 0 && r.incarnation != 0 && !r.decidedAt.isZero &&
    validRuntimeText [r.id,r.reason]

def validReturn (g : ChildGroupRecord) (id : Text) (r : ChildBudgetReturnRecord) : Prop :=
  ∃ c, childForBudgetReturn g id = some c ∧ c.revision = r.childRevision ∧
    (r.decisionID != [] && r.reason != [] && r.evidence != [] && r.sourceRevision != 0 &&
      r.incarnation != 0 && !r.decidedAt.isZero && validRuntimeText [r.decisionID,r.reason,r.evidence]) = true ∧
    ∃ returned, computeChildBudgetReturn c r.used = .ok returned ∧ returned.equal r.returned = true

structure GroupOk (g : ChildGroupRecord) (revision : Nat) : Prop where
  children : ∀ c ∈ g.children, ChildOk g revision c
  request : g.cancelRequested = g.cancelRequest.isSome
  requested : ∀ r, g.cancelRequest = some r → validCancelRequest r = true ∧ r.sourceRevision < revision
  join : validChildJoin g = true
  returns : ∀ id r, g.budgetReturns.get? id = some r → validReturn g id r ∧ r.sourceRevision < revision

omit [Sha256] in
theorem validChildBudgetReturns_iff {g : ChildGroupRecord} : validChildBudgetReturns g = true ↔
    ∀ id r, g.budgetReturns.get? id = some r → validReturn g id r := by
  simp only [validChildBudgetReturns,GoMap.all_iff,Option.any_eq_true,Bool.and_eq_true,validReturn,beq_iff_eq]
  refine forall_congr' fun id => forall_congr' fun r => imp_congr_right fun _ => exists_congr fun c =>
    and_congr_right fun _ => ?_
  cases computeChildBudgetReturn c r.used with
  | error err => simp
  | ok returned =>
    simp only [Except.ok.injEq,exists_eq_left']
    tauto

omit [Sha256] in
theorem validChildCancellation_iff {g : ChildGroupRecord} : validChildCancellation g = true ↔
    g.cancelRequested = g.cancelRequest.isSome ∧
    (∀ r, g.cancelRequest = some r → validCancelRequest r = true) ∧
    ∀ c ∈ g.children,
      (g.cancelRequested = true → launchable c = false ∧ (settledChild c = true ∨ c.cancelRequested = true)) ∧
      (g.cancelRequested = false → c.cancelRequested = false ∧ c.cancelConfirmed = false) := by
  cases hg : g.cancelRequested with
  | false =>
    cases hr : g.cancelRequest with
    | none => simp [validChildCancellation,hg,hr]
    | some r => simp [validChildCancellation,hg,hr]
  | true =>
    cases hr : g.cancelRequest with
    | none => simp [validChildCancellation,hg,hr]
    | some r => simp [validChildCancellation,hg,hr,launchable,validCancelRequest]

theorem validChildGroupProvenance_iff {g : ChildGroupRecord} {revision : Nat} :
    validChildGroupProvenance g revision = true ↔
    (∀ r, g.cancelRequest = some r → r.sourceRevision < revision) ∧
    (∀ c ∈ g.children, validChildOutcomeGroupProvenance g c revision = true ∧
      (∀ d, c.cancelConfirmation = some d → d.sourceRevision < revision ∧
        ∃ r, g.cancelRequest = some r ∧ d.requestID = r.id ∧ r.sourceRevision < d.sourceRevision) ∧
      ∀ d, c.waitResolution = some d → d.sourceRevision < revision) ∧
    ∀ id r, g.budgetReturns.get? id = some r → r.sourceRevision < revision := by
  simp only [validChildGroupProvenance,Bool.and_eq_true,Option.all_eq_true,decide_eq_true_eq,List.all_eq_true,
    GoMap.all_iff,Option.any_eq_true,beq_iff_eq,and_assoc]

def FollowsPlan (g : ChildGroupRecord) : Prop :=
  ∃ base, planChildGroup g.parentID g.node g.activation g.plan g.capacity = .ok base ∧
    childPlanBytes base.plan = childPlanBytes g.plan ∧
    List.Forall₂ (fun c original => c.executionID = original.executionID ∧
      childSpecEncoding c.spec = childSpecEncoding original.spec) g.children base.children

omit [Sha256] in
theorem validPlannedChild_forall₂ {children originals : List ChildRecord} :
    (children.length = originals.length ∧
      ∀ p ∈ children.zip originals, validPlannedChild p.1 p.2 = true) ↔
    List.Forall₂ (fun c original => c.executionID = original.executionID ∧
      childSpecEncoding c.spec = childSpecEncoding original.spec) children originals ∧
    ∀ c ∈ children, validateChildRecordState c = true := by
  induction children generalizing originals with
  | nil => cases originals <;> simp
  | cons c children ih =>
    cases originals with
    | nil => simp
    | cons original originals =>
      simp only [List.length_cons,Nat.add_right_cancel_iff,List.zip_cons_cons,List.forall_mem_cons,
        List.forall₂_cons,validPlannedChild,Bool.and_eq_true,beq_iff_eq] at ih ⊢
      have hi := @ih originals
      tauto

theorem admittedChildGroup_iff {J W : Type} {e : ExecutionEnvelope J ChildGroups W} {identity : Text}
    {g : ChildGroupRecord} : admittedChildGroup e identity g = true ↔
    (identity = g.identity ∧ g.parentID = e.executionID ∧ g.activation ≠ 0 ∧ g.activation ≤ e.activation) ∧
      FollowsPlan g ∧ GroupOk g e.revision := by
  simp only [admittedChildGroup,Bool.and_eq_true,beq_iff_eq,bne_iff_ne,ne_eq,decide_eq_true_eq,
    validChildGroupProvenance_iff]
  rw [validateChildGroup_iff]
  constructor
  · rintro ⟨⟨⟨⟨⟨⟨hsource,hchildren,hreturned⟩,hid⟩,hparent⟩,hpos⟩,hle⟩,base,hbase,hv⟩
    obtain ⟨hfollow,hvalid⟩ := validPlannedChild_forall₂.mp ⟨hv.length,hv.children⟩
    obtain ⟨hrequest,hrequested,hasked⟩ := validChildCancellation_iff.mp hv.cancellation
    refine ⟨⟨hid,hparent,hpos,hle⟩,⟨base,hbase,hv.plan,hfollow⟩,⟨?_,hrequest,?_,hv.join,?_⟩⟩
    · intro c hc
      obtain ⟨ho,hconf,hw⟩ := hchildren c hc
      exact ⟨hvalid c hc,ho,hconf,hw,(hasked c hc).1,(hasked c hc).2⟩
    · exact fun r hr => ⟨hrequested r hr,hsource r hr⟩
    · exact fun id r hr => ⟨validChildBudgetReturns_iff.mp hv.returns id r hr,hreturned id r hr⟩
  · rintro ⟨⟨hid,hparent,hpos,hle⟩,⟨base,hbase,hplan,hfollow⟩,hok⟩
    obtain ⟨hlen,hzip⟩ := validPlannedChild_forall₂.mpr ⟨hfollow,fun c hc => (hok.children c hc).valid⟩
    refine ⟨⟨⟨⟨⟨⟨fun r hr => (hok.requested r hr).2,fun c hc => ?_,fun id r hr => (hok.returns id r hr).2⟩,
      hid⟩,hparent⟩,hpos⟩,hle⟩,base,hbase,⟨hlen,?_,hok.join,?_,hplan,hzip⟩⟩
    · exact ⟨(hok.children c hc).outcome,(hok.children c hc).confirmation,(hok.children c hc).wait⟩
    · exact validChildCancellation_iff.mpr ⟨hok.request,fun r hr => (hok.requested r hr).1,
        fun c hc => ⟨(hok.children c hc).asked,(hok.children c hc).unasked⟩⟩
    · exact validChildBudgetReturns_iff.mpr fun id r hr => (hok.returns id r hr).1

omit [Sha256] in
theorem childSpecEncoding_id {s s' : ChildSpec} (hv : Utf8.valid s'.id = true)
    (h : childSpecEncoding s = childSpecEncoding s') : s.id = s'.id := by
  simp only [childSpecEncoding,objectText,objectTokens,field,named,Codec.text,List.filterMap_cons,id,
    List.filterMap_nil,commaJoin,render,List.flatMap_cons,List.flatMap_append,List.cons_append,
    List.append_assoc,Token.render,List.append_cancel_left_eq,List.nil_append,List.cons.injEq,true_and] at h
  exact (quote_append_inj hv _ _ h).1

omit [Sha256] in
/-- The input is `null` or quoted base64, which ends at the first quote. -/
theorem inputTokens_append_inj {x y : Option Bytes} {a b : Bytes}
    (h : (payloadCodec.nullable.tokens x).flatMap Token.render ++ a =
      (payloadCodec.nullable.tokens y).flatMap Token.render ++ b) : a = b := by
  cases x with
  | none =>
    cases y with
    | none => exact List.append_cancel_left h
    | some t => simp [Codec.nullable,payloadCodec,Codec.literal,quoted,Token.render] at h
  | some s =>
    cases y with
    | none => simp [Codec.nullable,payloadCodec,Codec.literal,quoted,Token.render] at h
    | some t =>
      simp only [Codec.nullable,Option.elim_some,payloadCodec,Codec.literal,quoted,List.flatMap_cons,
        List.flatMap_nil,Token.render,List.cons_append,List.append_assoc,List.nil_append,List.cons.injEq,
        true_and] at h
      exact (append_sep_inj (base64_ne_quote s) (base64_ne_quote t) _ _ h).2

omit [Sha256] in
theorem childSpecEncoding_allocation {s s' : ChildSpec} (hv : Utf8.valid s'.id = true)
    (hnames : ∀ e ∈ s'.allocation.entries, Utf8.valid e.1 = true)
    (h : childSpecEncoding s = childSpecEncoding s') (name : Text) :
    s.allocation.get? name = s'.allocation.get? name := by
  have hunits : Function.Injective fun n : Int64 => intText n.toInt :=
    fun m n hmn => Int64.toInt_inj.mp (intText_injective hmn)
  simp only [childSpecEncoding,objectText,objectTokens,field,named,Codec.text,List.filterMap_cons,id,
    List.filterMap_nil,commaJoin,render,List.flatMap_cons,List.flatMap_append,List.cons_append,
    List.append_assoc,Token.render,List.append_cancel_left_eq,List.nil_append,List.cons.injEq,true_and] at h
  obtain ⟨-,h⟩ := quote_append_inj hv _ _ h
  simp only [List.cons.injEq,true_and,List.append_cancel_left_eq] at h
  have hmap := inputTokens_append_inj h
  simp only [List.cons.injEq,true_and,List.append_cancel_left_eq] at hmap
  simp only [ChildSpec.allocation] at hnames ⊢
  cases hs : s.allocationMap with
  | none =>
    cases hs' : s'.allocationMap with
    | none => rfl
    | some m' => simp [hs,hs',Codec.nullable,Codec.map,mapTokens,Token.render] at hmap
  | some m =>
    cases hs' : s'.allocationMap with
    | none => simp [hs,hs',Codec.nullable,Codec.map,mapTokens,Token.render] at hmap
    | some m' =>
      rw [hs'] at hnames
      rw [hs,hs'] at hmap
      have hdelimited := delimited_literal hunits (fun n => intText_numeric n.toInt)
        (by unfold numeric; decide) (by unfold numeric; decide)
      exact mapTokens_append_inj hdelimited hnames _ _ hmap name

theorem FollowsPlan.planned_ids {g : ChildGroupRecord} (h : FollowsPlan g) :
    ∃ base, planChildGroup g.parentID g.node g.activation g.plan g.capacity = .ok base ∧
      g.children.map (fun c => c.spec.id) = base.children.map fun c => c.spec.id := by
  obtain ⟨base,hbase,-,hfollow⟩ := h
  obtain ⟨-,specs,hspecs⟩ := planChildGroup_eq_ok hbase
  have hvalid : ∀ c ∈ base.children, Utf8.valid c.spec.id = true := by
    intro c hc
    rw [hspecs.children] at hc
    obtain ⟨s,hs,rfl⟩ := List.mem_map.mp hc
    have htext := (hspecs.ok.ids s hs).2.1
    rw [validRuntimeText_cons,Bool.and_eq_true] at htext
    exact htext.1
  refine ⟨base,hbase,?_⟩
  clear hbase hspecs
  generalize base.children = originals at hfollow hvalid
  generalize g.children = children at hfollow
  induction hfollow with
  | nil => rfl
  | cons hc _ ih =>
    rw [List.map_cons,List.map_cons,ih fun c hc => hvalid c (List.mem_cons_of_mem _ hc),
      childSpecEncoding_id (hvalid _ List.mem_cons_self) hc.2]

theorem FollowsPlan.distinct {g : ChildGroupRecord} (h : FollowsPlan g) :
    (g.children.map fun c => c.spec.id).Nodup := by
  obtain ⟨base,hbase,hids⟩ := h.planned_ids
  obtain ⟨-,specs,hspecs⟩ := planChildGroup_eq_ok hbase
  rw [hids,hspecs.children,List.map_map]
  exact hspecs.ok.distinct

theorem FollowsPlan.advance {g g' : ChildGroupRecord} (h : FollowsPlan g) (ha : GroupAdvance g g') :
    FollowsPlan g' := by
  obtain ⟨base,hbase,hplan,hfollow⟩ := h
  refine ⟨base,by rwa [ha.parentID,ha.node,ha.activation,ha.plan,ha.capacity],by rwa [ha.plan],?_⟩
  have hall := ha.children
  generalize base.children = originals at hfollow
  generalize g.children = children at hfollow hall
  generalize g'.children = children' at hall
  induction hall generalizing originals with
  | nil => exact hfollow
  | cons hc _ ih =>
    cases hfollow with
    | cons ho hrest =>
      refine .cons ?_ (ih _ hrest)
      rw [hc.executionID,hc.spec]
      exact ho

theorem FollowsPlan.reread {g : ChildGroupRecord} (h : FollowsPlan g) : FollowsPlan g.reread := by
  obtain ⟨base,hbase,hplan,hfollow⟩ := h
  exact ⟨base,hbase,hplan,List.forall₂_map_left_iff.mpr hfollow⟩

theorem PlannedGroup.follows {g : ChildGroupRecord} {specs : List ChildSpec} (h : PlannedGroup g specs) :
    FollowsPlan g :=
  ⟨g,h.again,rfl,List.forall₂_same.mpr fun _ _ => ⟨rfl,rfl⟩⟩

theorem validChildOutcomeGroupProvenance_mono {g : ChildGroupRecord} {c : ChildRecord} {r r' : Nat}
    (h : validChildOutcomeGroupProvenance g c r = true) (hle : r ≤ r') :
    validChildOutcomeGroupProvenance g c r' = true := by
  simp only [validChildOutcomeGroupProvenance,Option.all_eq_true,Bool.and_eq_true,decide_eq_true_eq] at h ⊢
  exact fun d hd => ⟨⟨(h d hd).1.1.trans_le hle,(h d hd).1.2⟩,(h d hd).2⟩

theorem GroupOk.mono {g : ChildGroupRecord} {r r' : Nat} (h : GroupOk g r) (hle : r ≤ r') : GroupOk g r' := by
  refine ⟨fun c hc => ?_,h.request,fun q hq => ⟨(h.requested q hq).1,(h.requested q hq).2.trans_le hle⟩,h.join,
    fun id b hb => ⟨(h.returns id b hb).1,(h.returns id b hb).2.trans_le hle⟩⟩
  have hok := h.children c hc
  exact { hok with
    outcome := validChildOutcomeGroupProvenance_mono hok.outcome hle
    confirmation := fun d hd => ⟨(hok.confirmation d hd).1.trans_le hle,(hok.confirmation d hd).2⟩
    wait := fun d hd => (hok.wait d hd).trans_le hle }

theorem ChildOk.reread {g : ChildGroupRecord} {r : Nat} {c : ChildRecord} (h : ChildOk g r c) :
    ChildOk g.reread r c.reread := by
  refine ⟨validateChildRecordState_reread h.valid,?_,h.confirmation,h.wait,h.asked,h.unasked⟩
  by_cases ho : c.outcomeResolution = none
  · simp [validChildOutcomeGroupProvenance,ChildRecord.reread,ho]
  · rw [reread_of_decided h.valid (.inr ho)]
    exact h.outcome

omit [Sha256] in
theorem childForBudgetReturn_reread {g : ChildGroupRecord} {id : Text} :
    childForBudgetReturn g.reread id = (childForBudgetReturn g id).map ChildRecord.reread := by
  rw [childForBudgetReturn,childForBudgetReturn,ChildGroupRecord.reread,List.find?_map]
  rfl

theorem GroupOk.reread {g : ChildGroupRecord} {r : Nat} (h : GroupOk g r) : GroupOk g.reread r := by
  refine ⟨?_,h.request,h.requested,?_,fun id b hb => ⟨?_,(h.returns id b hb).2⟩⟩
  · intro c hc
    obtain ⟨c0,hc0,rfl⟩ := List.mem_map.mp hc
    exact (h.children c0 hc0).reread
  · have hjoin := h.join
    simp only [validChildJoin,ChildGroupRecord.reread,List.map_map,List.all_map] at hjoin ⊢
    exact hjoin
  · obtain ⟨c,hc,hrev,htexts,returned,hret,heq⟩ := (h.returns id b hb).1
    exact ⟨c.reread,by rw [childForBudgetReturn_reread,hc]; rfl,hrev,htexts,returned,
      computeChildBudgetReturn_reread hret,heq⟩

end Groups
end Flowy
