import Mathlib.Data.List.Sort
import Flowy.Child.Ledger

/-! Planning: which specs make a group, and that a stored plan gives the same group again. -/
namespace Flowy

open Reserve
open scoped List

def specCharges (spec : ChildSpec) : List (Text × Int64) := spec.allocation.entries.map fun e => (e.1,e.2)

/-- Specs that make a group within `capacity`, in any order. -/
structure PlanOk (specs : List ChildSpec) (seen : List Text) (capacity : Counters) : Prop where
  ids : ∀ s ∈ specs, s.id ≠ [] ∧ validRuntimeText [s.id] = true ∧ s.id ∉ seen
  distinct : (specs.map fun s => s.id).Nodup
  names : ∀ s ∈ specs, ∀ e ∈ s.allocation.entries, e.1 ≠ [] ∧ validRuntimeText [e.1] = true
  fits : Fits capacity (specs.flatMap specCharges)

theorem allocateChildCounters_iff {remaining rest allocation : Counters} :
    allocateChildCounters remaining allocation = .ok rest ↔
      (∀ e ∈ allocation.entries, e.1 ≠ [] ∧ validRuntimeText [e.1] = true) ∧
        takeAll remaining (allocation.entries.map fun e => (e.1,e.2)) = some rest := by
  rw [allocateChildCounters,takeAll,List.foldlM_map]
  generalize allocation.entries = entries
  induction entries generalizing remaining with
  | nil => simp [pure,Except.pure]
  | cons e entries ih =>
    simp only [List.foldlM_cons,bind_eq_ok,ih,List.forall_mem_cons,Option.bind_eq_bind,Option.bind_eq_some_iff]
    have hstep : ∀ mid, allocateChildCounter remaining e.1 e.2 = .ok mid ↔
        (e.1 ≠ [] ∧ validRuntimeText [e.1] = true) ∧ take remaining (e.1,e.2) = some mid := by
      intro mid
      rw [take_eq_some,allocateChildCounter]
      cases hg : remaining.get? e.1 with
      | none => simp [fail]
      | some available =>
        simp only [bind_eq_ok,require_eq_ok,exists_const,Bool.and_eq_true,bne_iff_ne,ne_eq,decide_eq_true_eq,
          Except.ok.injEq,Option.some.injEq,exists_eq_left',Int64.le_iff_toInt_le,Int64.toInt_zero,
          eq_comm (a := mid)]
        constructor
        · rintro ⟨⟨⟨⟨h1,h2⟩,h3⟩,h4⟩,h5⟩
          exact ⟨⟨h1,h2⟩,h3,h4,h5⟩
        · rintro ⟨⟨h1,h2⟩,h3,h4,h5⟩
          exact ⟨⟨⟨⟨h1,h2⟩,h3⟩,h4⟩,h5⟩
    constructor
    · rintro ⟨mid,hmid,hnames,hrest⟩
      obtain ⟨hname,htake⟩ := (hstep mid).mp hmid
      exact ⟨⟨hname,hnames⟩,mid,htake,hrest⟩
    · rintro ⟨⟨hname,hnames⟩,mid,htake,hrest⟩
      exact ⟨mid,(hstep mid).mpr ⟨hname,htake⟩,hnames,hrest⟩

theorem planChildSpecs_iff {specs : List ChildSpec} {seen : List Text} {capacity : Counters} :
    planChildSpecs specs seen capacity = .ok () ↔ PlanOk specs seen capacity := by
  induction specs generalizing seen capacity with
  | nil =>
    simp only [planChildSpecs,true_iff]
    exact ⟨by simp,by simp,by simp,⟨by simp,by simp,by simp⟩⟩
  | cons s specs ih =>
    simp only [planChildSpecs,bind_eq_ok,require_eq_ok,exists_const,Bool.and_eq_true,bne_iff_ne,ne_eq,
      Bool.not_eq_true',List.contains_eq_mem,decide_eq_false_iff_not,allocateChildCounters_iff,ih]
    constructor
    · rintro ⟨⟨hne,hv⟩,hseen,rest,⟨hnames,htake⟩,h⟩
      refine ⟨?_,?_,?_,?_⟩
      · intro s' hs'
        rcases List.mem_cons.mp hs' with rfl | hs'
        · exact ⟨hne,hv,hseen⟩
        · obtain ⟨h1,h2,h3⟩ := h.ids s' hs'
          exact ⟨h1,h2,fun hmem => h3 (List.mem_cons_of_mem _ hmem)⟩
      · rw [List.map_cons,List.nodup_cons]
        refine ⟨fun hmem => ?_,h.distinct⟩
        obtain ⟨s',hs',heq⟩ := List.mem_map.mp hmem
        exact (h.ids s' hs').2.2 (heq ▸ List.mem_cons_self)
      · intro s' hs'
        rcases List.mem_cons.mp hs' with rfl | hs'
        · exact hnames
        · exact h.names s' hs'
      · rw [List.flatMap_cons,← takeAll_isSome_iff,takeAll_append]
        rw [show takeAll capacity (specCharges s) = some rest from htake,Option.bind_some]
        exact takeAll_isSome_iff.mpr h.fits
    · intro h
      have hfits := takeAll_isSome_iff.mpr h.fits
      rw [List.flatMap_cons,takeAll_append] at hfits
      obtain ⟨hne,hv,hseen⟩ := h.ids s List.mem_cons_self
      obtain ⟨hfresh,hdistinct⟩ := List.nodup_cons.mp h.distinct
      cases htake : takeAll capacity (specCharges s) with
      | none =>
        rw [htake] at hfits
        cases hfits
      | some rest =>
        rw [htake,Option.bind_some] at hfits
        refine ⟨⟨hne,hv⟩,hseen,rest,⟨h.names s List.mem_cons_self,htake⟩,?_,hdistinct,
          fun s' hs' => h.names s' (List.mem_cons_of_mem _ hs'),takeAll_isSome_iff.mp hfits⟩
        intro s' hs'
        obtain ⟨h1,h2,h3⟩ := h.ids s' (List.mem_cons_of_mem _ hs')
        refine ⟨h1,h2,fun hmem => ?_⟩
        rcases List.mem_cons.mp hmem with heq | hmem
        · exact hfresh (List.mem_map.mpr ⟨s',hs',heq⟩)
        · exact h3 hmem

theorem PlanOk.perm {specs specs' : List ChildSpec} {seen : List Text} {capacity : Counters}
    (h : PlanOk specs seen capacity) (hp : specs ~ specs') : PlanOk specs' seen capacity :=
  ⟨fun s hs => h.ids s (hp.mem_iff.mpr hs),(hp.map _).nodup_iff.mp h.distinct,
    fun s hs => h.names s (hp.mem_iff.mpr hs),h.fits.perm (hp.flatMap_right _)⟩

theorem sortChildren_perm (specs : List ChildSpec) : sortChildren specs ~ specs :=
  List.perm_insertionSort _ _

theorem sortChildren_sortChildren (specs : List ChildSpec) :
    sortChildren (sortChildren specs) = sortChildren specs := by
  have htrans : IsTrans ChildSpec (fun a b => a.id ≤ b.id) := ⟨fun _ _ _ h1 h2 => List.le_trans h1 h2⟩
  have htotal : Std.Total (fun a b : ChildSpec => a.id ≤ b.id) := ⟨fun a b => List.le_total a.id b.id⟩
  exact List.Pairwise.insertionSort_eq (List.pairwise_insertionSort _ _)

section Planned

variable [Sha256]

/-- A group as planned: `specs` in the order of their ids, nothing launched. -/
structure PlannedGroup (g : ChildGroupRecord) (specs : List ChildSpec) : Prop where
  texts : validRuntimeText [g.parentID,g.node,g.plan.key] = true
  limit : 0 < g.plan.maxConcurrency
  planned : g.plan.children = specs
  children : g.children = specs.map (planChild g.parentID g.node g.activation g.plan.key)
  nonempty : specs ≠ []
  ok : PlanOk specs [] g.capacity
  capacity : validChildCapacity g.capacity = true
  positive : g.activation ≠ 0
  unjoined : g.mergedIDs = [] ∧ g.mergedResult = []
  unasked : g.cancelRequested = false ∧ g.cancelRequest = none
  unreturned : g.budgetReturns = ∅
  again : planChildGroup g.parentID g.node g.activation g.plan g.capacity = .ok g

theorem planChildGroup_eq_ok {parentID : Text} {node : ExecutionPointer} {activation : Nat}
    {plan : ChildGroupPlan} {available : Counters} {g : ChildGroupRecord}
    (h : planChildGroup parentID node activation plan available = .ok g) :
    (g.parentID = parentID ∧ g.node = node ∧ g.activation = activation ∧ g.plan.key = plan.key ∧
      g.capacity = available) ∧ ∃ specs, PlannedGroup g specs := by
  simp only [planChildGroup,bind_eq_ok,require_eq_ok,exists_const] at h
  obtain ⟨hfields,hcap,⟨⟩,hspecs,h⟩ := h
  have hok := (planChildSpecs_iff.mp hspecs).perm (sortChildren_perm _).symm
  have hnonempty : sortChildren plan.children ≠ [] := by
    simp only [Bool.and_eq_true] at hfields
    intro hnil
    have hperm := sortChildren_perm plan.children
    rw [hnil] at hperm
    simp [hperm.nil_eq.symm] at hfields
  cases h
  refine ⟨⟨rfl,rfl,rfl,rfl,rfl⟩,sortChildren plan.children,?_⟩
  have hfields' := hfields
  simp only [Bool.and_eq_true,bne_iff_ne,ne_eq,decide_eq_true_eq] at hfields'
  obtain ⟨⟨⟨⟨⟨⟨⟨⟨⟨⟨⟨hparent,hnode⟩,hact⟩,hkey⟩,hlabel⟩,hmerge⟩,htexts⟩,hbudget⟩,hcancel⟩,hlimit⟩,hempty⟩,
    hpolicy⟩ := hfields'
  refine ⟨?_,hlimit,rfl,rfl,hnonempty,hok,hcap,hact,⟨rfl,rfl⟩,⟨rfl,rfl⟩,rfl,?_⟩
  · simp only [validRuntimeText,List.all_cons,Bool.and_eq_true] at htexts
    simp [validRuntimeText,htexts]
  · simp only [planChildGroup,bind_eq_ok,require_eq_ok,exists_const,sortChildren_sortChildren]
    refine ⟨?_,hcap,(),planChildSpecs_iff.mpr hok,trivial⟩
    have hisEmpty : (sortChildren plan.children).isEmpty = plan.children.isEmpty := by
      simp only [Bool.not_eq_true'] at hempty
      rw [hempty]
      simpa [List.isEmpty_iff] using hnonempty
    rw [hisEmpty]
    exact hfields

end Planned
end Flowy
