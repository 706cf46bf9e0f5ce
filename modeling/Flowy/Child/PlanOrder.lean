import Flowy.Child.CancelSafe

/-! Planning does not look at the order of a plan: neither of its children nor of its maps. A stored
group is found again by every order of the plan it was made from, and by no other plan. -/
namespace Flowy

open Fencing Json Reserve
open scoped List

structure SameSpec (s t : ChildSpec) : Prop where
  id : t.id = s.id
  input : t.input = s.input
  absent : t.allocationMap.isNone = s.allocationMap.isNone
  allocation : ∀ name, t.allocation.get? name = s.allocation.get? name

structure Reordered (p q : ChildGroupPlan) : Prop where
  header : q = { p with children := q.children }
  children : ∃ specs, p.children ~ specs ∧ List.Forall₂ SameSpec specs q.children

structure SamePlanned (g h : ChildGroupRecord) : Prop where
  header : h = { g with plan := h.plan, children := h.children, capacity := h.capacity }
  plan : h.plan = { g.plan with children := h.plan.children }
  specs : List.Forall₂ SameSpec g.plan.children h.plan.children
  children : List.Forall₂ (fun c d => d = { c with spec := d.spec } ∧ SameSpec c.spec d.spec)
    g.children h.children
  capacity : ∀ name, h.capacity.get? name = g.capacity.get? name

section Specs

variable {specs specs' : List ChildSpec} {seen : List Text} {capacity capacity' : Counters}

theorem SameSpec.refl (s : ChildSpec) : SameSpec s s := ⟨rfl,rfl,rfl,fun _ => rfl⟩

theorem SameSpec.charges {s t : ChildSpec} (h : SameSpec s t) : specCharges s ~ specCharges t :=
  (GoMap.entries_perm fun name => (h.allocation name).symm).map _

theorem SameSpec.encoding {s t : ChildSpec} (h : SameSpec s t) : childSpecEncoding t = childSpecEncoding s := by
  have hmap : (Codec.map unitsCodec).nullable.tokens t.allocationMap =
      (Codec.map unitsCodec).nullable.tokens s.allocationMap := by
    have habsent := h.absent
    have hget := h.allocation
    simp only [ChildSpec.allocation] at hget
    cases ht : t.allocationMap with
    | none =>
      cases hs : s.allocationMap with
      | none => rfl
      | some m => simp [ht,hs] at habsent
    | some n =>
      cases hs : s.allocationMap with
      | none => simp [ht,hs] at habsent
      | some m =>
        simp only [ht,hs,Option.getD_some] at hget
        simp only [Codec.nullable,Option.elim_some,Codec.map,mapTokens,sortedEntries_congr hget]
  simp only [childSpecEncoding,field,h.id,h.input,hmap]

theorem sameSpec_ids (h : List.Forall₂ SameSpec specs specs') :
    (specs'.map fun s => s.id) = specs.map fun s => s.id := by
  induction h with
  | nil => rfl
  | cons hs _ ih => rw [List.map_cons,List.map_cons,ih,hs.id]

theorem sameSpec_charges (h : List.Forall₂ SameSpec specs specs') :
    specs.flatMap specCharges ~ specs'.flatMap specCharges := by
  induction h with
  | nil => exact .refl _
  | cons hs _ ih =>
    rw [List.flatMap_cons,List.flatMap_cons]
    exact hs.charges.append ih

theorem PlanOk.same (h : PlanOk specs seen capacity) (hs : List.Forall₂ SameSpec specs specs')
    (hc : ∀ name, capacity'.get? name = capacity.get? name) : PlanOk specs' seen capacity' := by
  refine ⟨fun t ht => ?_,?_,fun t ht e he => ?_,(h.fits.congr hc).perm (sameSpec_charges hs)⟩
  · obtain ⟨s,hmem,hst⟩ := forall₂_mem_right hs ht
    rw [hst.id]
    exact h.ids s hmem
  · rw [sameSpec_ids hs]
    exact h.distinct
  · obtain ⟨s,hmem,hst⟩ := forall₂_mem_right hs ht
    exact h.names s hmem e ((GoMap.entries_perm hst.allocation).mem_iff.mp he)

theorem sameSpec_flip (h : List.Forall₂ SameSpec specs specs') : List.Forall₂ SameSpec specs' specs := by
  refine List.Forall₂.flip (h.imp fun s t hst => ?_)
  exact ⟨hst.id.symm,hst.input.symm,hst.absent.symm,fun name => (hst.allocation name).symm⟩

theorem sameSpec_sort (h : List.Forall₂ SameSpec specs specs') :
    List.Forall₂ SameSpec (sortChildren specs) (sortChildren specs') := by
  have hinsert : ∀ {s t : ChildSpec} {xs ys : List ChildSpec}, SameSpec s t → List.Forall₂ SameSpec xs ys →
      List.Forall₂ SameSpec (xs.orderedInsert (fun a b => a.id ≤ b.id) s)
        (ys.orderedInsert (fun a b => a.id ≤ b.id) t) := by
    intro s t xs ys hst hxs
    induction hxs with
    | nil => exact .cons hst .nil
    | cons hxy hrest ih =>
      simp only [List.orderedInsert_cons,hst.id,hxy.id]
      split
      · exact .cons hst (.cons hxy hrest)
      · exact .cons hxy ih
  induction h with
  | nil => exact .nil
  | cons hst _ ih => exact hinsert hst ih

theorem sortChildren_ascending (h : (specs.map fun s => s.id).Nodup) :
    (sortChildren specs).Pairwise fun a b => a.id < b.id := by
  have htrans : IsTrans ChildSpec (fun a b => a.id ≤ b.id) := ⟨fun _ _ _ h1 h2 => List.le_trans h1 h2⟩
  have htotal : Std.Total (fun a b : ChildSpec => a.id ≤ b.id) := ⟨fun a b => List.le_total a.id b.id⟩
  have hle : (sortChildren specs).Pairwise fun a b => a.id ≤ b.id := List.pairwise_insertionSort _ _
  have hne : (sortChildren specs).Pairwise fun a b => a.id ≠ b.id :=
    List.pairwise_map.mp (((sortChildren_perm specs).map _).nodup_iff.mpr h)
  refine hle.imp₂ (fun a b hab hdiff => ?_) hne
  by_contra hlt
  exact hdiff (List.le_antisymm hab (List.not_lt.mp hlt))

theorem sortChildren_of_perm (hp : specs ~ specs') (h : (specs.map fun s => s.id).Nodup) :
    sortChildren specs = sortChildren specs' := by
  have hperm : sortChildren specs ~ sortChildren specs' :=
    (sortChildren_perm specs).trans (hp.trans (sortChildren_perm specs').symm)
  refine hperm.eq_of_pairwise ?_ (sortChildren_ascending h)
    (sortChildren_ascending ((hp.map _).nodup_iff.mp h))
  intro a b _ _ hab hba
  exact absurd (List.lt_trans hab hba) (List.lt_irrefl _)

end Specs

section Planning

variable {parentID : Text} {node : ExecutionPointer} {activation : Nat}
  {plan plan' : ChildGroupPlan} {available available' : Counters} {g h : ChildGroupRecord}

theorem validChildCapacity_congr (hc : ∀ name, available'.get? name = available.get? name) :
    validChildCapacity available' = validChildCapacity available := by
  rw [Bool.eq_iff_iff,validChildCapacity,validChildCapacity,GoMap.all_iff,GoMap.all_iff]
  simp only [hc]

theorem Reordered.isEmpty (h : Reordered plan plan') : plan'.children.isEmpty = plan.children.isEmpty := by
  obtain ⟨-,specs,hperm,hsame⟩ := h
  rw [Bool.eq_iff_iff,List.isEmpty_iff_length_eq_zero,List.isEmpty_iff_length_eq_zero,
    ← hsame.length_eq,hperm.length_eq]

theorem Reordered.symm (h : Reordered plan plan') : Reordered plan' plan := by
  obtain ⟨hheader,specs,hperm,hsame⟩ := h
  refine ⟨by rw [hheader],?_⟩
  obtain ⟨mid,hmid,hperm'⟩ := List.perm_comp_forall₂ hperm hsame
  exact ⟨mid,hperm'.symm,sameSpec_flip hmid⟩

theorem Reordered.sorted (h : Reordered plan plan') (hd : (plan.children.map fun s => s.id).Nodup) :
    List.Forall₂ SameSpec (sortChildren plan.children) (sortChildren plan'.children) := by
  obtain ⟨-,specs,hperm,hsame⟩ := h
  rw [sortChildren_of_perm hperm hd]
  exact sameSpec_sort hsame

theorem Reordered.bytes (h : Reordered plan plan') (hd : (plan.children.map fun s => s.id).Nodup) :
    childPlanBytes plan' = childPlanBytes plan := by
  have hencode : ∀ {xs ys : List ChildSpec}, List.Forall₂ SameSpec xs ys →
      ys.map (Codec.literal childSpecEncoding).tokens = xs.map (Codec.literal childSpecEncoding).tokens := by
    intro xs ys hxy
    induction hxy with
    | nil => rfl
    | cons hst _ ih =>
      rw [List.map_cons,List.map_cons,ih]
      simp only [Codec.literal,hst.encoding]
  have hchildren : (Codec.list (.literal childSpecEncoding)).tokens (sortChildren plan'.children) =
      (Codec.list (.literal childSpecEncoding)).tokens (sortChildren plan.children) := by
    simp only [Codec.list,hencode (h.sorted hd)]
  rw [h.header]
  simp only [childPlanBytes,ChildGroupPlan.encoding,field,hchildren]

section Groups

variable [Sha256]

theorem planChildGroup_same (hr : Reordered plan plan')
    (hc : ∀ name, available'.get? name = available.get? name)
    (hg : planChildGroup parentID node activation plan available = .ok g) :
    ∃ h, planChildGroup parentID node activation plan' available' = .ok h ∧ SamePlanned g h := by
  simp only [planChildGroup,bind_eq_ok,require_eq_ok,exists_const] at hg
  obtain ⟨hfields,hcap,⟨⟩,hspecs,hg⟩ := hg
  have hok := planChildSpecs_iff.mp hspecs
  have hsorted := hr.sorted hok.distinct
  have haccepts : ∃ h, planChildGroup parentID node activation plan' available' = .ok h := by
    simp only [planChildGroup,bind_eq_ok,require_eq_ok,exists_const]
    refine ⟨_,?_,by rw [validChildCapacity_congr hc]; exact hcap,(),?_,rfl⟩
    · rw [hr.isEmpty,hr.header]
      exact hfields
    · obtain ⟨-,specs,hperm,hsame⟩ := hr
      exact planChildSpecs_iff.mpr ((hok.perm hperm).same hsame hc)
  obtain ⟨h,hh⟩ := haccepts
  refine ⟨h,hh,?_⟩
  simp only [planChildGroup,bind_eq_ok,require_eq_ok,exists_const] at hh
  obtain ⟨-,-,⟨⟩,-,hh⟩ := hh
  cases hg
  cases hh
  have hkey : plan'.key = plan.key := by rw [hr.header]
  refine ⟨rfl,?_,hsorted,?_,hc⟩
  · rw [hr.header]
  · rw [List.forall₂_map_left_iff,List.forall₂_map_right_iff,hkey]
    exact hsorted.imp fun s t hst => ⟨by simp only [planChild,hst.id],hst⟩

theorem planChildGroup_perm {children : List ChildSpec} (hp : plan.children ~ children)
    (hg : planChildGroup parentID node activation plan available = .ok g) :
    planChildGroup parentID node activation { plan with children := children } available = .ok g := by
  simp only [planChildGroup,bind_eq_ok,require_eq_ok,exists_const] at hg ⊢
  obtain ⟨hfields,hcap,⟨⟩,hspecs,hg⟩ := hg
  have hok := planChildSpecs_iff.mp hspecs
  have hempty : children.isEmpty = plan.children.isEmpty := by
    rw [Bool.eq_iff_iff,List.isEmpty_iff_length_eq_zero,List.isEmpty_iff_length_eq_zero,hp.length_eq]
  rw [← sortChildren_of_perm hp hok.distinct,hempty]
  exact ⟨hfields,hcap,(),planChildSpecs_iff.mpr (hok.perm hp),hg⟩

structure PlannedInOrder (parentID : Text) (node : ExecutionPointer) (activation : Nat) (plan : ChildGroupPlan)
    (g : ChildGroupRecord) : Prop where
  specs : (g.children.map fun c => c.spec) ~ plan.children
  ascending : g.children.Pairwise fun c d => c.spec.id < d.spec.id
  planned : ∀ c ∈ g.children, c.state = .planned ∧ c.revision = 0
  distinct : (g.children.map fun c => c.executionID).Nodup
  /-- Nothing of another child is in the identity of a child. -/
  identity : ∀ c ∈ g.children, c.executionID = childExecutionIdentity parentID node activation plan.key c.spec.id
  again : planChildGroup parentID node activation g.plan g.capacity = .ok g

theorem planChildGroup_inOrder (hg : planChildGroup parentID node activation plan available = .ok g) :
    PlannedInOrder parentID node activation plan g := by
  obtain ⟨⟨rfl,rfl,rfl,hkey,rfl⟩,specs,hspecs⟩ := planChildGroup_eq_ok hg
  have hsorted : specs = sortChildren plan.children := by
    simp only [planChildGroup,bind_eq_ok,require_eq_ok,exists_const] at hg
    obtain ⟨-,-,⟨⟩,-,hg⟩ := hg
    rw [← hspecs.planned,← Except.ok.inj hg]
  have hids : (specs.map fun s => s.id).Nodup := hspecs.ok.distinct
  have hascending : specs.Pairwise fun a b => a.id < b.id := by
    rw [hsorted]
    exact sortChildren_ascending (((sortChildren_perm _).map _).nodup_iff.mp (hsorted ▸ hids))
  have hidentity : ∀ c ∈ g.children,
      c.executionID = childExecutionIdentity g.parentID g.node g.activation plan.key c.spec.id := by
    intro c hc
    rw [hspecs.children] at hc
    obtain ⟨s,-,rfl⟩ := List.mem_map.mp hc
    rw [← hkey]
    rfl
  have htexts := hspecs.texts
  simp only [validRuntimeText,List.all_cons,List.all_nil,Bool.and_true,Bool.and_eq_true] at htexts
  refine ⟨?_,?_,?_,?_,hidentity,hspecs.again⟩
  · rw [hspecs.children,List.map_map]
    exact (List.Perm.of_eq (List.map_id specs)).trans (hsorted ▸ sortChildren_perm _)
  · rw [hspecs.children,List.pairwise_map]
    exact hascending
  · intro c hc
    rw [hspecs.children] at hc
    obtain ⟨s,-,rfl⟩ := List.mem_map.mp hc
    exact ⟨rfl,rfl⟩
  · rw [hspecs.children,List.map_map,List.Nodup,List.pairwise_map]
    refine hascending.imp_of_mem fun {a b} ha hb hlt heq => ?_
    have hvalid : ∀ s ∈ specs, validRuntimeText [g.parentID,g.node,g.plan.key,s.id] = true := by
      intro s hs
      have hid := (hspecs.ok.ids s hs).2.1
      simp only [validRuntimeText,List.all_cons,List.all_nil,Bool.and_true] at hid
      simp [validRuntimeText,htexts,hid]
    obtain ⟨-,-,-,-,hsame⟩ := childExecutionIdentity_injective (hvalid a ha) (hvalid b hb) heq
    rw [hsame] at hlt
    exact List.lt_irrefl _ hlt

structure OrderFree (parentID : Text) (node : ExecutionPointer) (activation : Nat) (plan : ChildGroupPlan)
    (available : Counters) : Prop where
  accepts : ∀ plan' available', Reordered plan plan' → (∀ name, available'.get? name = available.get? name) →
    ((∃ h, planChildGroup parentID node activation plan' available' = .ok h) ↔
      ∃ g, planChildGroup parentID node activation plan available = .ok g)
  results : ∀ plan' available' g h, Reordered plan plan' →
    (∀ name, available'.get? name = available.get? name) →
    planChildGroup parentID node activation plan available = .ok g →
    planChildGroup parentID node activation plan' available' = .ok h → SamePlanned g h
  exactly : ∀ children g, plan.children ~ children →
    planChildGroup parentID node activation plan available = .ok g →
    planChildGroup parentID node activation { plan with children := children } available = .ok g
  planned : ∀ g, planChildGroup parentID node activation plan available = .ok g →
    PlannedInOrder parentID node activation plan g

theorem planChildGroup_orderFree : OrderFree parentID node activation plan available := by
  refine ⟨?_,?_,fun children g => planChildGroup_perm,fun g => planChildGroup_inOrder⟩
  · intro plan' available' hr hc
    constructor
    · rintro ⟨h,hh⟩
      obtain ⟨g,hg,-⟩ := planChildGroup_same hr.symm (fun name => (hc name).symm) hh
      exact ⟨g,hg⟩
    · rintro ⟨g,hg⟩
      obtain ⟨h,hh,-⟩ := planChildGroup_same hr hc hg
      exact ⟨h,hh⟩
  · intro plan' available' g h hr hc hg hh
    obtain ⟨h',hh',hsame⟩ := planChildGroup_same hr hc hg
    rw [hh] at hh'
    cases hh'
    exact hsame

variable {J W : Type} {e e' : ExecutionEnvelope J ChildGroups W}

/-- The group that `plan` made is stored in `e`: every order of the plan finds it, no other plan does. -/
structure FoundAgain (e : ExecutionEnvelope J ChildGroups W) (plan : ChildGroupPlan) (available : Counters)
    (stored : ChildGroupRecord) : Prop where
  replay : ∀ plan' available', Reordered plan plan' → (∀ name, available'.get? name = available.get? name) →
    prepareChildren e plan' available' = .ok (stored,none)
  refused : ∀ plan' available', plan'.key = plan.key →
    (childPlanBytes plan' ≠ childPlanBytes plan ∨ ∃ name, available'.get? name ≠ available.get? name) →
    ∃ err, prepareChildren e plan' available' = .error err

omit [Sha256] in
theorem childPlanBytes_sorted (plan : ChildGroupPlan) :
    childPlanBytes { plan with children := sortChildren plan.children } = childPlanBytes plan := by
  simp only [childPlanBytes,sortChildren_sortChildren]

theorem planChildGroup_bytes (hg : planChildGroup parentID node activation plan available = .ok g) :
    childPlanBytes g.plan = childPlanBytes plan ∧ g.capacity = available ∧
      (plan.children.map fun s => s.id).Nodup := by
  simp only [planChildGroup,bind_eq_ok,require_eq_ok,exists_const] at hg
  obtain ⟨-,-,⟨⟩,hspecs,hg⟩ := hg
  cases hg
  exact ⟨childPlanBytes_sorted plan,rfl,(planChildSpecs_iff.mp hspecs).distinct⟩

theorem prepareChildren_again (hadm : AdmittedGroups e) (hg : planChildGroup parentID node activation plan
      available = .ok g) {stored : ChildGroupRecord} (hstored : e.children.get? g.identity = some stored)
    (hadv : GroupAdvance g stored) (hbound : boundChildGroupIdentity e plan.key = g.identity) :
    FoundAgain e plan available stored := by
  obtain ⟨hbytes,hcapacity,hdistinct⟩ := planChildGroup_bytes hg
  have hread := executionChildGroups_iff.mpr ⟨rfl,hadm⟩
  have hcall : ∀ plan' available', plan'.key = plan.key → prepareChildren e plan' available' = (do
      require (available.equal available') .budgetExceeded
      require (childPlanBytes plan == childPlanBytes plan') .childInvalid
      .ok (stored,none)) := by
    intro plan' available' hkey
    simp only [prepareChildren,hread,hkey,hbound,bind,Except.bind,hstored,hadv.plan,hadv.capacity,hbytes,
      hcapacity]
  refine ⟨?_,?_⟩
  · intro plan' available' hr hc
    have hequal : available.equal available' = true := GoMap.equal_iff.mpr fun name => (hc name).symm
    rw [hcall plan' available' (by rw [hr.header]),hequal,hr.bytes hdistinct,beq_self_eq_true]
    rfl
  · intro plan' available' hkey hdiff
    rw [hcall plan' available' hkey]
    cases hequal : available.equal available' with
    | false => exact ⟨_,rfl⟩
    | true =>
      rcases hdiff with hplan | ⟨name,hname⟩
      · rw [beq_eq_false_iff_ne.mpr hplan.symm]
        exact ⟨_,rfl⟩
      · exact absurd (GoMap.equal_iff.mp hequal name).symm hname

theorem prepareChildren_found {clock : Time → Bool}
    {s : State (ExecutionEnvelope J ChildGroups W) Launches (Ticket Text)}
    (h : Reachable (childProtocol J W clock) s) {k n : Nat} {t : ExecutionEnvelope J ChildGroups W}
    (hk : s.log[k]? = some e) (hcall : prepareChildren e plan available = .ok (g,some t))
    (hnext : s.log[k + 1]? = some { t with revision := e.revision + 1 }) (hlt : k < n)
    (hn : s.log[n]? = some e') (hadm : AdmittedGroups e')
    (hbound : boundChildGroupIdentity e' plan.key = g.identity) :
    ∃ stored, e'.children.get? g.identity = some stored ∧ GroupAdvance g stored ∧
      FoundAgain e' plan available stored := by
  obtain ⟨hfree,-,hplan,-,-,rfl⟩ := prepareChildren_plans hcall
  obtain ⟨-,specs,hspecs⟩ := planChildGroup_eq_ok hplan
  have hsound := (childRule.reachable h).entry e (List.mem_of_getElem? hk)
  have hplanned : ({ e.putGroup g.identity g with revision := e.revision + 1 } :
      ExecutionEnvelope J ChildGroups W).children.get? g.identity = some g.reread := by
    have hput := hsound.get?_putGroup g.identity g.identity g
    rwa [if_pos rfl] at hput
  obtain ⟨stored,hstored,hadv⟩ := childGroups_keep h hlt hnext hn g.identity g.reread hplanned
  have hreread : g.reread = g := by
    rw [ChildGroupRecord.reread]
    congr 1
    rw [hspecs.children,List.map_map]
    rfl
  rw [hreread] at hadv
  exact ⟨stored,hstored,hadv,prepareChildren_again hadm hplan hstored hadv hbound⟩

/-- Planning ignores order, and so does finding a group again later. -/
theorem child_planning_ignores_order (J W : Type) :
    (∀ parentID node activation plan available, OrderFree parentID node activation plan available) ∧
    ∀ clock (s : State (ExecutionEnvelope J ChildGroups W) Launches (Ticket Text)),
      Reachable (childProtocol J W clock) s → ∀ k n e t e' plan available g, s.log[k]? = some e →
      prepareChildren e plan available = .ok (g,some t) →
      s.log[k + 1]? = some { t with revision := e.revision + 1 } → k < n → s.log[n]? = some e' →
      boundChildGroupIdentity e' plan.key = g.identity →
      ((∀ t, clock t = true → t.isZero = false) → AdmittedGroups e') ∧
      (AdmittedGroups e' → ∃ stored, e'.children.get? g.identity = some stored ∧ GroupAdvance g stored ∧
        FoundAgain e' plan available stored) := by
  refine ⟨fun _ _ _ _ _ => planChildGroup_orderFree,?_⟩
  intro clock s h k n e t e' plan available g hk hcall hnext hlt hn hbound
  refine ⟨fun hclock => ?_,fun hadm => prepareChildren_found h hk hcall hnext hlt hn hadm hbound⟩
  exact (((cancellation_invariant h).1 e' (List.mem_of_getElem? hn)).2 hclock).admitted

end Groups
end Planning

section Example

attribute [local instance] Sha256.hex

def plannedAt (log : List SampleEnvelope) : Bool :=
  match log[0]?, log[1]?, log[6]? with
  | some e, some next, some e' =>
    match prepareChildren e samplePlan ∅ with
    | .ok (g,some t) => decide (next = { t with revision := e.revision + 1 }) &&
        decide (boundChildGroupIdentity e' samplePlan.key = g.identity)
    | _ => false
  | _, _, _ => false

theorem plannedAt_eq_true {log : List SampleEnvelope} (h : plannedAt log = true) :
    ∃ e t e' g, log[0]? = some e ∧ prepareChildren e samplePlan ∅ = .ok (g,some t) ∧
      log[1]? = some { t with revision := e.revision + 1 } ∧ log[6]? = some e' ∧
      boundChildGroupIdentity e' samplePlan.key = g.identity := by
  unfold plannedAt at h
  split at h
  · rename_i e next e' he hnext he'
    split at h
    · rename_i g t hcall
      simp only [Bool.and_eq_true,decide_eq_true_eq] at h
      exact ⟨e,t,e',g,he,hcall,hnext.trans (congrArg some h.1),he',h.2⟩
    · cases h
  · cases h

theorem child_planning_ignores_order_in_turn :
    ∃ (e' : SampleEnvelope) (stored : ChildGroupRecord), e'.revision = 7 ∧
      prepareChildren e' { samplePlan with children := samplePlan.children.reverse } ∅ = .ok (stored,none) := by
  have hrun : ((childProtocol (GoMap Text Unit) (GoMap Text Unit) fun t => !t.isZero).script launchScript).any
      (fun s => plannedAt s.log) = true := by decide +kernel
  obtain ⟨s,hs,hlog⟩ := (Option.any_eq_true _ _).mp hrun
  obtain ⟨e,t,e',g,he,hcall,hnext,he',hbound⟩ := plannedAt_eq_true hlog
  have hreach := Reachable.of_script hs
  obtain ⟨hread,hfound⟩ := (child_planning_ignores_order (GoMap Text Unit) (GoMap Text Unit)).2 _ s hreach
    0 6 e t e' samplePlan ∅ g he hcall hnext (by decide) he' hbound
  obtain ⟨stored,-,-,hagain⟩ := hfound (hread fun t ht => by simpa using ht)
  refine ⟨e',stored,hreach.sound.stamped 6 e' he',hagain.replay _ _ ⟨rfl,samplePlan.children.reverse,?_,?_⟩ fun _ => rfl⟩
  · exact (List.reverse_perm samplePlan.children).symm
  · exact List.forall₂_same.mpr fun s _ => .refl s

end Example
end Flowy
