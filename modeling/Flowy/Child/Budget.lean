import Flowy.Child.History
import Flowy.Child.Readmit

/-! Named units of a group. Whatever the runtime does, the units its children hold under one
activation stay within the capacity, and the ledger check says exactly this of groups that are
valid by themselves. -/
namespace Flowy

open Fencing Reserve
open scoped List

/-- The units under a name; a missing name counts none. -/
def unitsAt (m : Counters) (name : Text) : Int := ((m.get? name).getD 0).toInt

def returnedUnits (g : ChildGroupRecord) (c : ChildRecord) (name : Text) : Int :=
  (g.budgetReturns.get? c.spec.id).elim 0 fun r => unitsAt r.returned name

/-- What the children of one activation hold: allocated and not returned. -/
def heldUnits (groups : List ChildGroupRecord) (activation : Nat) (name : Text) : Int :=
  ((groups.filter fun g => g.activation == activation).map fun g =>
    (g.children.map fun c => unitsAt c.spec.allocation name - returnedUnits g c name).sum).sum

structure BudgetConserved (groups : List ChildGroupRecord) : Prop where
  held : ∀ g ∈ groups, ∀ name, heldUnits groups g.activation name ≤ unitsAt g.capacity name
  returned : ∀ g ∈ groups, ∀ c ∈ g.children, ∀ name,
    0 ≤ returnedUnits g c name ∧ returnedUnits g c name ≤ unitsAt c.spec.allocation name
  shared : ∀ g ∈ groups, ∀ g' ∈ groups, g.activation = g'.activation →
    ∀ name, g.capacity.get? name = g'.capacity.get? name

structure GroupBudget (g : ChildGroupRecord) : Prop where
  capacity : ∀ name units, g.capacity.get? name = some units → 0 ≤ units.toInt
  allocated : ∀ c ∈ g.children, ∀ name units, c.spec.allocation.get? name = some units →
    0 ≤ units.toInt ∧ (g.capacity.get? name).isSome = true
  returns : ∀ id r, g.budgetReturns.get? id = some r → ∃ c, childForBudgetReturn g id = some c ∧
    ∃ returned, Returned c r.used returned ∧ ∀ name, returned.get? name = r.returned.get? name
  distinct : (g.children.map fun c => c.spec.id).Nodup

section Groups

variable {g g' : ChildGroupRecord}

theorem unitsAt_of_some {m : Counters} {name : Text} {units : Int64} (h : m.get? name = some units) :
    unitsAt m name = units.toInt := by
  rw [unitsAt,h]
  rfl

theorem unitsAt_of_none {m : Counters} {name : Text} (h : m.get? name = none) : unitsAt m name = 0 := by
  rw [unitsAt,h]
  rfl

theorem Returned.bounds {c : ChildRecord} {used returned : Counters} (h : Returned c used returned)
    (name : Text) : 0 ≤ unitsAt returned name ∧ unitsAt returned name ≤ unitsAt c.spec.allocation name := by
  have hrest := h.rest name
  cases ha : c.spec.allocation.get? name with
  | none =>
    rw [ha] at hrest
    rw [unitsAt_of_none hrest,unitsAt_of_none ha]
    exact ⟨le_refl _,le_refl _⟩
  | some allocated =>
    obtain ⟨units,hu⟩ := Option.isSome_iff_exists.mp (h.accounted name allocated ha).2.2
    obtain ⟨h0,allocated',ha',hle⟩ := h.within name units hu
    rw [ha] at ha'
    cases ha'
    rw [ha,hu] at hrest
    rw [unitsAt_of_some hrest,unitsAt_of_some ha,Option.getD_some,toInt_sub_of_le h0 hle]
    omega

theorem GroupBudget.bounds (h : GroupBudget g) {c : ChildRecord} (hc : c ∈ g.children) (name : Text) :
    0 ≤ returnedUnits g c name ∧ returnedUnits g c name ≤ unitsAt c.spec.allocation name := by
  unfold returnedUnits
  cases hr : g.budgetReturns.get? c.spec.id with
  | none =>
    refine ⟨le_refl _,?_⟩
    cases ha : c.spec.allocation.get? name with
    | none => exact (unitsAt_of_none ha).ge
    | some units =>
      rw [unitsAt_of_some ha]
      exact (h.allocated c hc name units ha).1
  | some r =>
    obtain ⟨c',hc',returned,hret,hsame⟩ := h.returns _ r hr
    have hcc : c' = c := List.inj_on_of_nodup_map h.distinct (List.mem_of_find?_eq_some hc') hc
      (by simpa using List.find?_some hc')
    subst hcc
    have hb := hret.bounds name
    rwa [show unitsAt returned name = unitsAt r.returned name by rw [unitsAt,hsame,unitsAt]] at hb

/-- The ledger's subtraction does not overflow. -/
theorem GroupBudget.outstanding (h : GroupBudget g) {c : ChildRecord} (hc : c ∈ g.children) {name : Text}
    {units : Int64} (ha : c.spec.allocation.get? name = some units) :
    (outstandingUnits g c name units).toInt = units.toInt - returnedUnits g c name := by
  have hb := h.bounds hc name
  rw [unitsAt_of_some ha] at hb
  have hret : (((g.budgetReturns.get? c.spec.id).bind fun r => r.returned.get? name).getD 0).toInt =
      returnedUnits g c name := by
    unfold returnedUnits
    cases g.budgetReturns.get? c.spec.id <;> rfl
  rw [outstandingUnits,toInt_sub_of_le (by omega) (by omega),hret]

theorem GroupBudget.total_child (h : GroupBudget g) {c : ChildRecord} (hc : c ∈ g.children) (name : Text) :
    total (childCharges g c) name = unitsAt c.spec.allocation name - returnedUnits g c name := by
  rw [childCharges,total_entries]
  cases ha : c.spec.allocation.get? name with
  | none =>
    have hb := h.bounds hc name
    rw [unitsAt_of_none ha] at hb ⊢
    simp only [Option.elim_none]
    omega
  | some units =>
    rw [unitsAt_of_some ha]
    exact h.outstanding hc ha

theorem total_flatMap {α : Type} (f : α → List (Text × Int64)) (xs : List α) (name : Text) :
    total (xs.flatMap f) name = (xs.map fun x => total (f x) name).sum := by
  induction xs with
  | nil => rfl
  | cons x xs ih => rw [List.flatMap_cons,total_append,ih,List.map_cons,List.sum_cons]

theorem total_activationCharges {groups : List ChildGroupRecord} (h : ∀ g ∈ groups, GroupBudget g) (a : Nat)
    (name : Text) : total (activationCharges groups a) name = heldUnits groups a name := by
  rw [activationCharges,total_flatMap,heldUnits]
  refine congrArg List.sum (List.map_congr_left fun g hg => ?_)
  rw [groupCharges,total_flatMap]
  exact congrArg List.sum (List.map_congr_left fun c hc => (h g (List.mem_filter.mp hg).1).total_child hc name)

theorem mem_activationCharges {groups : List ChildGroupRecord} {a : Nat} {x : Text × Int64} :
    x ∈ activationCharges groups a ↔ ∃ g ∈ groups, g.activation = a ∧ ∃ c ∈ g.children, ∃ units,
      c.spec.allocation.get? x.1 = some units ∧ x.2 = outstandingUnits g c x.1 units := by
  simp only [activationCharges,groupCharges,childCharges,List.mem_flatMap,List.mem_filter,beq_iff_eq,
    List.mem_map,and_assoc]
  refine exists_congr fun g => and_congr_right fun _ => and_congr_right fun _ => exists_congr fun c =>
    and_congr_right fun _ => ⟨?_,?_⟩
  · rintro ⟨entry,he,rfl⟩
    exact ⟨entry.2,(GoMap.mem_entries_iff _ _ _).mp he,rfl⟩
  · rintro ⟨units,ha,hx⟩
    exact ⟨⟨x.1,units⟩,(GoMap.mem_entries_iff _ _ _).mpr ha,Prod.ext rfl hx.symm⟩

/-- For groups that keep to their own units, the ledger accepts exactly what is conserved. -/
theorem ledgerOk_iff_conserved {groups : List ChildGroupRecord} (h : ∀ g ∈ groups, GroupBudget g) :
    LedgerOk groups ↔ BudgetConserved groups := by
  constructor
  · intro hl
    refine ⟨fun g hg name => ?_,fun g hg c hc name => (h g hg).bounds hc name,hl.shared⟩
    have hfits := hl.fits g hg
    rw [← total_activationCharges h]
    by_cases hex : ∃ x ∈ activationCharges groups g.activation, x.1 = name
    · obtain ⟨x,hx,rfl⟩ := hex
      obtain ⟨units,hu⟩ := Option.isSome_iff_exists.mp (hfits.named x hx)
      rw [unitsAt_of_some hu]
      exact hfits.within x hx units hu
    · rw [total_eq_zero fun x hx heq => hex ⟨x,hx,heq⟩]
      cases hu : g.capacity.get? name with
      | none => exact (unitsAt_of_none hu).ge
      | some units =>
        rw [unitsAt_of_some hu]
        exact (h g hg).capacity name units hu
  · intro hc
    refine ⟨hc.shared,fun g hg => ⟨fun x hx => ?_,fun x hx => ?_,fun x hx units hu => ?_⟩⟩
    · obtain ⟨g',hg',hact,c,hcm,units,ha,-⟩ := mem_activationCharges.mp hx
      rw [hc.shared g hg g' hg' hact.symm]
      exact ((h g' hg').allocated c hcm _ units ha).2
    · obtain ⟨g',hg',-,c,hcm,units,ha,hval⟩ := mem_activationCharges.mp hx
      have hb := (h g' hg').bounds hcm x.1
      rw [hval,(h g' hg').outstanding hcm ha]
      rw [unitsAt_of_some ha] at hb
      omega
    · rw [total_activationCharges h,← unitsAt_of_some hu]
      exact hc.held g hg x.1

theorem GroupBudget.advance (h : GroupBudget g) (ha : GroupAdvance g g')
    (hr : ∀ id r, g'.budgetReturns.get? id = some r → ∃ c, childForBudgetReturn g' id = some c ∧
      ∃ returned, Returned c r.used returned ∧ ∀ name, returned.get? name = r.returned.get? name) :
    GroupBudget g' := by
  refine ⟨by rw [ha.capacity]; exact h.capacity,fun c' hc' => ?_,hr,by rw [ha.ids]; exact h.distinct⟩
  obtain ⟨c,hc,hadv⟩ := forall₂_mem_right ha.children hc'
  rw [hadv.spec,ha.capacity]
  exact h.allocated c hc

theorem GroupEdit.budget [Sha256] {J W : Type} {clock : Time → Bool} {i : Nat}
    {e : ExecutionEnvelope J ChildGroups W} {a : EditScope} (h : GroupBudget g)
    (hedit : GroupEdit clock i e g a g') : GroupBudget g' := by
  have ha := hedit.advance h.distinct
  -- a child that returned units is settled, and stays
  have hkept : ∀ id r, g.budgetReturns.get? id = some r → ∃ c, childForBudgetReturn g' id = some c ∧
      ∃ returned, Returned c r.used returned ∧ ∀ name, returned.get? name = r.returned.get? name := by
    intro id r hr
    obtain ⟨c,hc,returned,hret,hsame⟩ := h.returns id r hr
    exact ⟨c,find?_settled ha.children hc hret.settled,returned,hret,hsame⟩
  refine h.advance ha fun id r hr => ?_
  cases hedit with
  | credit claim c returned now hnow hcheck hnone hc hrev hret =>
    rw [GoMap.get?_set] at hr
    split at hr
    · rename_i heq
      cases hr
      exact ⟨c,heq ▸ hc,returned,computeChildBudgetReturn_eq_ok hret,fun _ => rfl⟩
    · exact hkept id r hr
  | queue | start | recover | finish | join | cancel | decide => exact hkept id r hr

theorem GroupBudget.reread (h : GroupBudget g) : GroupBudget g.reread := by
  refine ⟨h.capacity,fun c hc => ?_,fun id r hr => ?_,?_⟩
  · obtain ⟨c0,hc0,rfl⟩ := List.mem_map.mp hc
    exact h.allocated c0 hc0
  · obtain ⟨c,hc,returned,hret,hsame⟩ := h.returns id r hr
    refine ⟨c.reread,by rw [childForBudgetReturn_reread,hc]; rfl,returned,?_,hsame⟩
    exact { hret with valid := validateChildRecordState_reread hret.valid }
  · rw [ChildGroupRecord.reread,List.map_map]
    exact h.distinct

theorem validChildCapacity_nonneg {capacity : Counters} (h : validChildCapacity capacity = true) {name : Text}
    {units : Int64} (hu : capacity.get? name = some units) : 0 ≤ units.toInt := by
  have hall := (GoMap.all_iff _ _).mp h name units hu
  simp only [Bool.and_eq_true,decide_eq_true_eq,Int64.le_iff_toInt_le,Int64.toInt_zero] at hall
  exact hall.2

theorem PlanOk.allocated {specs : List ChildSpec} {seen : List Text} {capacity : Counters}
    (h : PlanOk specs seen capacity) {s : ChildSpec} (hs : s ∈ specs) {name : Text} {units : Int64}
    (hu : s.allocation.get? name = some units) : 0 ≤ units.toInt ∧ (capacity.get? name).isSome = true := by
  have hmem : (name,units) ∈ specs.flatMap specCharges :=
    List.mem_flatMap.mpr ⟨s,hs,List.mem_map.mpr ⟨⟨name,units⟩,(GoMap.mem_entries_iff _ _ _).mpr hu,rfl⟩⟩
  exact ⟨h.fits.nonneg _ hmem,h.fits.named _ hmem⟩

theorem PlannedGroup.budget [Sha256] {specs : List ChildSpec} (h : PlannedGroup g specs) : GroupBudget g := by
  refine ⟨fun name units hu => validChildCapacity_nonneg h.capacity hu,fun c hc => ?_,?_,?_⟩
  · rw [h.children] at hc
    obtain ⟨s,hs,rfl⟩ := List.mem_map.mp hc
    exact fun name units hu => h.ok.allocated hs hu
  · rw [h.unreturned]
    rintro id r ⟨⟩
  · exact h.follows.distinct

theorem validateChildGroup_budget [Sha256] (h : validateChildGroup g = true) : GroupBudget g := by
  obtain ⟨base,hbase,hv⟩ := validateChildGroup_iff.mp h
  obtain ⟨hfollow,-⟩ := validPlannedChild_forall₂.mp ⟨hv.length,hv.children⟩
  obtain ⟨⟨-,-,-,-,hcap⟩,specs,hspecs⟩ := planChildGroup_eq_ok hbase
  refine ⟨fun name units hu => validChildCapacity_nonneg hspecs.capacity (hcap ▸ hu),fun c hc => ?_,fun id r hr => ?_,
    FollowsPlan.distinct ⟨base,hbase,hv.plan,hfollow⟩⟩
  · obtain ⟨original,ho,-,henc⟩ := forall₂_mem_left hfollow hc
    rw [hspecs.children] at ho
    obtain ⟨s,hs,rfl⟩ := List.mem_map.mp ho
    have hid := (hspecs.ok.ids s hs).2.1
    rw [validRuntimeText_cons,Bool.and_eq_true] at hid
    intro name units hu
    rw [childSpecEncoding_allocation hid.1 (fun entry he => ?_) henc] at hu
    · exact hcap ▸ hspecs.ok.allocated hs hu
    · have hname := (hspecs.ok.names s hs entry he).2
      rw [validRuntimeText_cons,Bool.and_eq_true] at hname
      exact hname.1
  · obtain ⟨c,hc,-,-,returned,hret,heq⟩ := validChildBudgetReturns_iff.mp hv.returns id r hr
    exact ⟨c,hc,returned,computeChildBudgetReturn_eq_ok hret,GoMap.equal_iff.mp heq⟩

end Groups

section Runs

variable {J W : Type} [Sha256] {clock : Time → Bool}

structure BudgetEntry (e : ExecutionEnvelope J ChildGroups W) : Prop where
  groups : ∀ identity g, e.children.get? identity = some g → GroupBudget g
  ledger : LedgerOk e.children.values

omit [Sha256] in
theorem BudgetEntry.put {e : ExecutionEnvelope J ChildGroups W} {identity : Text} {g : ChildGroupRecord}
    (h : BudgetEntry e) (hg : GroupBudget g) (hl : LedgerOk (e.children.set identity g).values) (n : Nat) :
    BudgetEntry { e.putGroup identity g with revision := n } := by
  refine ⟨fun identity' g0 hg0 => ?_,?_⟩
  · change (e.putGroup identity g).children.get? identity' = some g0 at hg0
    rw [get?_putGroup] at hg0
    split at hg0
    · cases hg0
      exact hg.reread
    · obtain ⟨g1,hg1,rfl⟩ := Option.map_eq_some_iff.mp hg0
      exact (h.groups identity' g1 hg1).reread
  · change LedgerOk ((e.children.set identity g).mapValues ChildGroupRecord.reread).values
    rw [GoMap.values_mapValues]
    exact hl.reread

theorem BudgetEntry.step {e e' : ExecutionEnvelope J ChildGroups W} (h : BudgetEntry e)
    (hstep : ChildStep clock e e') : BudgetEntry e' := by
  cases hstep with
  | keep t hk he =>
    rw [he]
    have hsame := keepsChildGroups_children hk
    exact ⟨fun identity g hg => h.groups identity g (hsame ▸ hg),(hsame ▸ h.ledger :)⟩
  | commit i identity a t hi hop he =>
    rw [he]
    cases hop.commit with
    | edit identity g g' a hg hedit hm =>
      have hb := h.groups identity g hg
      exact h.put (hedit.budget hb) (hedit.ledger hb.distinct hg h.ledger) _
    | plan g plan available hnone hbound hplan hledger hm =>
      obtain ⟨-,specs,hspecs⟩ := planChildGroup_eq_ok hplan
      exact h.put hspecs.budget (validateChildCapacityLedger_iff.mp hledger) _

theorem budgetEntry_reachable {s : State (ExecutionEnvelope J ChildGroups W) Launches (Ticket Text)}
    (h : Reachable (childProtocol J W clock) s) : ∀ e ∈ s.log, BudgetEntry e := by
  refine (childRule.reachable h).linked.forall ?_ fun e _ e' _ he hlink => he.step hlink.step
  intro e _ hlink
  have hempty := createsNoGroups_children hlink.2
  refine ⟨fun identity g hg => ?_,?_⟩
  · rw [hempty] at hg
    cases hg
  · rw [hempty]
    exact ⟨(fun g hg => by cases hg),(fun g hg => by cases hg)⟩

structure BudgetHistory (log : List (ExecutionEnvelope J ChildGroups W)) : Prop where
  conserved : ∀ e ∈ log, BudgetConserved e.children.values
  /-- A return record belongs to one child. -/
  owned : ∀ e ∈ log, ∀ identity g, e.children.get? identity = some g →
    (g.children.map fun c => c.spec.id).Nodup ∧
      ∀ id r, g.budgetReturns.get? id = some r → ∃ c ∈ g.children, c.spec.id = id
  kept : ∀ (k n : Nat) e e', k ≤ n → log[k]? = some e → log[n]? = some e' →
    ∀ identity g, e.children.get? identity = some g → ∃ g', e'.children.get? identity = some g' ∧
      ∀ id r, g.budgetReturns.get? id = some r → g'.budgetReturns.get? id = some r

/-- The same group, with its maps walked in another order. -/
structure SameUnits (g g' : ChildGroupRecord) : Prop where
  activation : g'.activation = g.activation
  capacity : ∀ name, g'.capacity.get? name = g.capacity.get? name
  children : List.Forall₂ (fun c c' => c'.spec.id = c.spec.id ∧
    ∀ name, c'.spec.allocation.get? name = c.spec.allocation.get? name) g.children g'.children
  returns : ∀ id name, ((g'.budgetReturns.get? id).bind fun r => r.returned.get? name) =
    (g.budgetReturns.get? id).bind fun r => r.returned.get? name

omit [Sha256] in
theorem SameUnits.charges {g g' : ChildGroupRecord} (h : SameUnits g g') : groupCharges g' ~ groupCharges g := by
  have hall := h.children
  simp only [groupCharges]
  generalize g.children = xs at hall
  generalize g'.children = ys at hall
  induction hall with
  | nil => exact .refl _
  | cons hc _ ih =>
    rename_i c c' cs cs' _
    rw [List.flatMap_cons,List.flatMap_cons]
    refine List.Perm.append ?_ ih
    have hentries : c'.spec.allocation.entries ~ c.spec.allocation.entries := GoMap.entries_perm hc.2
    have houtstanding : ∀ name units, outstandingUnits g' c' name units = outstandingUnits g c name units := by
      intro name units
      rw [outstandingUnits,outstandingUnits,hc.1,h.returns]
    simp only [childCharges,houtstanding]
    exact hentries.map _

omit [Sha256] in
theorem ledgerOk_sameUnits {xs ys : List ChildGroupRecord} (h : List.Forall₂ SameUnits xs ys)
    (hx : LedgerOk xs) : LedgerOk ys := by
  have hcharges : ∀ a, activationCharges ys a ~ activationCharges xs a := by
    intro a
    clear hx
    induction h with
    | nil => exact .refl _
    | cons hg _ ih =>
      rw [activationCharges_cons,activationCharges_cons,hg.activation]
      split
      · exact hg.charges.append ih
      · exact ih
  refine ⟨fun g hg g' hg' hact name => ?_,fun g hg => ?_⟩
  · obtain ⟨x,hxm,hsame⟩ := forall₂_mem_right h hg
    obtain ⟨x',hxm',hsame'⟩ := forall₂_mem_right h hg'
    rw [hsame.capacity,hsame'.capacity]
    exact hx.shared x hxm x' hxm' (hsame.activation ▸ hsame'.activation ▸ hact) name
  · obtain ⟨x,hxm,hsame⟩ := forall₂_mem_right h hg
    refine ((hx.fits x hxm).congr hsame.capacity).perm ?_
    rw [hsame.activation]
    exact (hcharges _).symm

omit [Sha256] in
theorem SameUnits.symm {g g' : ChildGroupRecord} (h : SameUnits g g') : SameUnits g' g :=
  ⟨h.activation.symm,fun name => (h.capacity name).symm,
    h.children.flip.imp fun _ _ hc => ⟨hc.1.symm,fun name => (hc.2 name).symm⟩,
    fun id name => (h.returns id name).symm⟩

omit [Sha256] in
theorem validateChildCapacityLedger_order {groups groups' : ChildGroups} {reordered : List ChildGroupRecord}
    (hp : groups.values ~ reordered) (h : List.Forall₂ SameUnits reordered groups'.values) :
    validateChildCapacityLedger groups = .ok () ↔ validateChildCapacityLedger groups' = .ok () := by
  rw [validateChildCapacityLedger_iff,validateChildCapacityLedger_iff]
  constructor
  · exact fun hl => ledgerOk_sameUnits h (hl.perm hp)
  · exact fun hl => (ledgerOk_sameUnits (h.flip.imp fun _ _ hg => hg.symm) hl).perm hp.symm

theorem child_budget_conserved {s : State (ExecutionEnvelope J ChildGroups W) Launches (Ticket Text)}
    (h : Reachable (childProtocol J W clock) s) :
    BudgetHistory s.log ∧
    (∀ groups : ChildGroups, (∀ identity g, groups.get? identity = some g → validateChildGroup g = true) →
      (validateChildCapacityLedger groups = .ok () ↔ BudgetConserved groups.values)) ∧
    ∀ (groups groups' : ChildGroups) (reordered : List ChildGroupRecord), groups.values ~ reordered →
      List.Forall₂ SameUnits reordered groups'.values →
      (validateChildCapacityLedger groups = .ok () ↔ validateChildCapacityLedger groups' = .ok ()) := by
  have hentry := budgetEntry_reachable h
  refine ⟨⟨fun e he => ?_,fun e he identity g hg => ?_,fun k n e e' hle hk hn identity g hg => ?_⟩,
    fun groups hvalid => ?_,fun groups groups' reordered => validateChildCapacityLedger_order⟩
  · refine (ledgerOk_iff_conserved fun g hg => ?_).mp (hentry e he).ledger
    obtain ⟨identity,hid⟩ := (GoMap.mem_values_iff _ _).mp hg
    exact (hentry e he).groups identity g hid
  · have hb := (hentry e he).groups identity g hg
    refine ⟨hb.distinct,fun id r hr => ?_⟩
    obtain ⟨c,hc,-⟩ := hb.returns id r hr
    exact ⟨c,List.mem_of_find?_eq_some hc,by simpa using List.find?_some hc⟩
  · obtain ⟨g',hg',hadv⟩ := childGroups_keep h hle hk hn identity g hg
    exact ⟨g',hg',hadv.returns⟩
  · rw [validateChildCapacityLedger_iff]
    refine ledgerOk_iff_conserved fun g hg => ?_
    obtain ⟨identity,hid⟩ := (GoMap.mem_values_iff _ _).mp hg
    exact validateChildGroup_budget (hvalid identity g hid)

end Runs

section Example

attribute [local instance] Sha256.hex

def unitPlan : ChildGroupPlan :=
  { samplePlan with children := [⟨ascii "a",some [],some (GoMap.set ∅ (ascii "u") 2)⟩] }

def unitCapacity : Counters := GoMap.set ∅ (ascii "u") 3

def unitGroup : ChildGroupRecord :=
  match planChildGroup (ascii "x") (ascii "n") 1 unitPlan unitCapacity with
  | .error _ => .zero
  | .ok g => { g with children := g.children.map fun c =>
      { c with state := .completed, revision := 3, incarnation := 1 } }

def returnScript : List (Command (ChildAction (GoMap Text Unit) (GoMap Text Unit))) :=
  [.acquire,.act 1 (.other sampleStart),.act 1 (.prepare unitPlan unitCapacity),.act 1 (.recover 0),
    .act 1 (.begin 0),.act 1 (.run 0),.act 1 (.dispatch 0 0),
    .act 1 (.finish 0 0 ⟨.completed,[],[],[]⟩ none),.act 1 (.receive 0 0),
    .act 1 (.mutate (.credit unitGroup
      ⟨ascii "a",3,ascii "d",ascii "r",ascii "e",GoMap.set ∅ (ascii "u") 1⟩ ⟨1⟩))]

theorem returnScript_held :
    ((childProtocol (GoMap Text Unit) (GoMap Text Unit) fun _ => true).script returnScript).map
      (fun s => s.log.map fun e => heldUnits e.children.values 1 (ascii "u")) = some [0,2,2,2,2,1] := by
  decide +kernel

theorem child_budget_conserved_with_return :
    ∃ s : State (ExecutionEnvelope (GoMap Text Unit) ChildGroups (GoMap Text Unit)) Launches (Ticket Text),
      (s.log.map fun e => heldUnits e.children.values 1 (ascii "u")) = [0,2,2,2,2,1] ∧ BudgetHistory s.log := by
  obtain ⟨s,hs,hheld⟩ := Option.map_eq_some_iff.mp returnScript_held
  exact ⟨s,hheld,(child_budget_conserved (.of_script hs)).1⟩

/-- One child without units, and a return of minus one unit that no commit produces. -/
def overdrawn : ChildGroupRecord where
  parentID := ascii "p"
  node := ascii "n"
  activation := 1
  plan := samplePlan
  children := [planChild (ascii "p") (ascii "n") 1 (ascii "g") ⟨ascii "a",some [],some (GoMap.set ∅ (ascii "u") 0)⟩]
  mergedIDs := []
  mergedResult := []
  cancelRequested := false
  cancelRequest := none
  capacity := GoMap.set ∅ (ascii "u") 1
  budgetReturns := GoMap.set ∅ (ascii "a")
    ⟨3,ascii "d",ascii "r",ascii "e",∅,GoMap.set ∅ (ascii "u") (-1),1,1,⟨1⟩⟩

/-- The ledger alone does not look at the sign of what was returned. -/
theorem ledger_accepts_negative_return :
    validateChildCapacityLedger (GoMap.set ∅ (ascii "k") overdrawn) = .ok () ∧
      ¬BudgetConserved (GoMap.set ∅ (ascii "k") overdrawn : ChildGroups).values := by
  refine ⟨by decide +kernel,fun h => ?_⟩
  have hreturned := (h.returned overdrawn (by decide +kernel) _ List.mem_cons_self (ascii "u")).1
  exact absurd hreturned (by decide +kernel)

end Example
end Flowy
