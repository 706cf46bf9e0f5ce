import Mathlib.Data.List.Induction
import Flowy.Lib.Reserve
import Flowy.Child.Integrity

/-! The capacity ledger. It is checked by subtracting charge after charge in the order in which the
maps happen to be walked; this is what the check says of the groups themselves. -/
namespace Flowy

open Reserve
open scoped List

def childCharges (g : ChildGroupRecord) (c : ChildRecord) : List (Text × Int64) :=
  c.spec.allocation.entries.map fun e => (e.1,outstandingUnits g c e.1 e.2)

def groupCharges (g : ChildGroupRecord) : List (Text × Int64) := g.children.flatMap (childCharges g)

def activationCharges (groups : List ChildGroupRecord) (activation : Nat) : List (Text × Int64) :=
  (groups.filter fun g => g.activation == activation).flatMap groupCharges

theorem foldlM_toOption {α β : Type} {f : β → α → Result β} {h : β → α → Option β}
    (hf : ∀ b a, (f b a).toOption = h b a) (xs : List α) (b : β) :
    (xs.foldlM f b).toOption = xs.foldlM h b := by
  induction xs generalizing b with
  | nil => rfl
  | cons x xs ih =>
    rw [List.foldlM_cons,List.foldlM_cons,← hf]
    cases f b x with
    | error err => rfl
    | ok b' => exact ih b'

theorem chargeChild_toOption (g : ChildGroupRecord) (remaining : Counters) (c : ChildRecord) :
    (chargeChild g remaining c).toOption = takeAll remaining (childCharges g c) := by
  rw [chargeChild,takeAll,childCharges,List.foldlM_map]
  refine foldlM_toOption (fun remaining e => ?_) _ _
  simp only [take]
  cases remaining.get? e.1 with
  | none => rfl
  | some available =>
    simp only [require,fail,Bool.and_eq_true,decide_eq_true_eq]
    split
    · rfl
    · rfl

theorem chargeGroup_toOption (g : ChildGroupRecord) (remaining : Counters) :
    (g.children.foldlM (chargeChild g) remaining).toOption = takeAll remaining (groupCharges g) := by
  rw [groupCharges,takeAll_flatMap]
  exact foldlM_toOption (chargeChild_toOption g) _ _

theorem activationCharges_snoc (groups : List ChildGroupRecord) (g : ChildGroupRecord) (a : Nat) :
    activationCharges (groups ++ [g]) a =
      if g.activation = a then activationCharges groups a ++ groupCharges g else activationCharges groups a := by
  by_cases h : g.activation = a
  · simp [activationCharges,List.filter_append,List.flatMap_append,h]
  · have hb : (g.activation == a) = false := by simpa using h
    simp [activationCharges,List.filter_append,h,hb]

def accountOf (groups : List ChildGroupRecord) (a : Nat) : Option ChildGroupRecord :=
  groups.find? fun g => g.activation == a

theorem accountOf_snoc (groups : List ChildGroupRecord) (g : ChildGroupRecord) (a : Nat) :
    accountOf (groups ++ [g]) a = (accountOf groups a).or (if g.activation = a then some g else none) := by
  rw [accountOf,List.find?_append,accountOf]
  congr 1
  by_cases h : g.activation = a
  · simp [h]
  · have hb : (g.activation == a) = false := by simpa using h
    simp [h,hb]

theorem accountOf_eq_some {groups : List ChildGroupRecord} {a : Nat} {g : ChildGroupRecord}
    (h : accountOf groups a = some g) : g ∈ groups ∧ g.activation = a :=
  ⟨List.mem_of_find?_eq_some h,by simpa using List.find?_some h⟩

theorem accountOf_isSome {groups : List ChildGroupRecord} {g : ChildGroupRecord} (h : g ∈ groups) :
    ∃ g0, accountOf groups g.activation = some g0 := by
  rw [← Option.isSome_iff_exists,accountOf,List.find?_isSome]
  exact ⟨g,h,by simp⟩

structure LedgerReads (groups : List ChildGroupRecord) (ledger : CapacityLedger) : Prop where
  capacities : ∀ a, ledger.capacities.get? a = (accountOf groups a).map fun g => g.capacity
  remaining : ∀ a, ledger.remaining.get? a =
    (accountOf groups a).bind fun g => takeAll g.capacity (activationCharges groups a)

/-- All groups of an activation share one capacity, and their charges fit into it. -/
structure LedgerOk (groups : List ChildGroupRecord) : Prop where
  shared : ∀ g ∈ groups, ∀ g' ∈ groups, g.activation = g'.activation →
    ∀ name, g.capacity.get? name = g'.capacity.get? name
  fits : ∀ g ∈ groups, Fits g.capacity (activationCharges groups g.activation)

theorem LedgerOk.init {groups : List ChildGroupRecord} {g : ChildGroupRecord} (h : LedgerOk (groups ++ [g])) :
    LedgerOk groups := by
  refine ⟨fun x hx y hy => h.shared x (List.mem_append_left _ hx) y (List.mem_append_left _ hy),
    fun x hx => ?_⟩
  have hfits := h.fits x (List.mem_append_left _ hx)
  rw [activationCharges_snoc] at hfits
  split at hfits
  · exact hfits.left
  · exact hfits

theorem LedgerOk.snoc {groups : List ChildGroupRecord} {g : ChildGroupRecord} (h : LedgerOk groups)
    (hshared : ∀ g' ∈ groups, g'.activation = g.activation →
      ∀ name, g'.capacity.get? name = g.capacity.get? name)
    (hfits : Fits g.capacity (activationCharges groups g.activation ++ groupCharges g)) :
    LedgerOk (groups ++ [g]) := by
  refine ⟨fun x hx y hy hxy name => ?_,fun x hx => ?_⟩
  · rcases List.mem_append.mp hx with hx | hx <;> rcases List.mem_append.mp hy with hy | hy
    · exact h.shared x hx y hy hxy name
    · rw [List.mem_singleton.mp hy] at hxy ⊢
      exact hshared x hx hxy name
    · rw [List.mem_singleton.mp hx] at hxy ⊢
      exact (hshared y hy hxy.symm name).symm
    · rw [List.mem_singleton.mp hx,List.mem_singleton.mp hy]
  · rw [activationCharges_snoc]
    split
    · rename_i heq
      refine (heq ▸ hfits : Fits g.capacity _).congr fun name => ?_
      rcases List.mem_append.mp hx with hx | hx
      · exact hshared x hx heq.symm name
      · rw [List.mem_singleton.mp hx]
    · rename_i hne
      rcases List.mem_append.mp hx with hx | hx
      · exact h.fits x hx
      · exact absurd (congrArg ChildGroupRecord.activation (List.mem_singleton.mp hx).symm) hne

theorem charge_reads {groups : List ChildGroupRecord} {ledger : CapacityLedger} (hr : LedgerReads groups ledger)
    (h : LedgerOk groups) (g : ChildGroupRecord) :
    (∀ next, ledger.charge g = .ok next → LedgerReads (groups ++ [g]) next ∧ LedgerOk (groups ++ [g])) ∧
      (LedgerOk (groups ++ [g]) → ∃ next, ledger.charge g = .ok next) := by
  have hcap := hr.capacities g.activation
  have hrem := hr.remaining g.activation
  -- the units left once the charges of `g` are taken
  have hset : ∀ (account : ChildGroupRecord) (rest : Counters) (base : CapacityLedger),
      accountOf (groups ++ [g]) g.activation = some account →
      takeAll account.capacity (activationCharges groups g.activation ++ groupCharges g) = some rest →
      (∀ a, base.capacities.get? a = (accountOf (groups ++ [g]) a).map fun g => g.capacity) →
      (∀ a, a ≠ g.activation → base.remaining.get? a = ledger.remaining.get? a) →
      LedgerReads (groups ++ [g]) { base with remaining := base.remaining.set g.activation rest } := by
    intro account rest base hacc htake hcaps hrest
    refine ⟨hcaps,fun a => ?_⟩
    rw [GoMap.get?_set]
    split
    · rename_i heq
      rw [heq,hacc,activationCharges_snoc,if_pos rfl]
      exact htake.symm
    · rename_i hne
      rw [hrest a hne,hr.remaining a,accountOf_snoc,activationCharges_snoc,if_neg (Ne.symm hne),
        if_neg (Ne.symm hne),Option.or_none]
  have hcharge : ∀ (base : CapacityLedger), ledger.open g = .ok base → ∀ (left : Counters),
      base.remaining.get? g.activation = some left →
      (∀ next, ledger.charge g = .ok next ↔ ∃ rest, takeAll left (groupCharges g) = some rest ∧
        next = { base with remaining := base.remaining.set g.activation rest }) := by
    intro base hopen left hleft next
    simp only [CapacityLedger.charge,hopen,hleft,bind_eq_ok,Except.ok.injEq,exists_eq_left',Option.getD_some,
      ← chargeGroup_toOption]
    cases g.children.foldlM (chargeChild g) left with
    | error err => simp [Except.toOption]
    | ok rest => simp [Except.toOption,eq_comm]
  cases hacc : accountOf groups g.activation with
  | none =>
    -- the first group of its activation
    rw [hacc] at hcap hrem
    have hopen : ledger.open g = .ok ⟨ledger.remaining.set g.activation g.capacity,
        ledger.capacities.set g.activation g.capacity⟩ := by
      simp only [CapacityLedger.open]
      rw [hcap]
      rfl
    have hnone : ∀ g' ∈ groups, g'.activation ≠ g.activation := by
      intro g' hg' heq
      obtain ⟨g0,hg0⟩ := accountOf_isSome hg'
      rw [heq,hacc] at hg0
      cases hg0
    have hempty : activationCharges groups g.activation = [] := by
      have hf : groups.filter (fun g' => g'.activation == g.activation) = [] :=
        List.filter_eq_nil_iff.mpr fun g' hg' => by simpa using hnone g' hg'
      simp [activationCharges,hf]
    have hfirst : accountOf (groups ++ [g]) g.activation = some g := by
      rw [accountOf_snoc,hacc,if_pos rfl]
      rfl
    have hiff := hcharge _ hopen g.capacity (GoMap.get?_set_self _ _ _)
    refine ⟨fun next hnext => ?_,fun hok => ?_⟩
    · obtain ⟨rest,htake,rfl⟩ := (hiff next).mp hnext
      have htake' : takeAll g.capacity (activationCharges groups g.activation ++ groupCharges g) = some rest := by
        rwa [hempty,List.nil_append]
      refine ⟨hset g rest _ hfirst htake' (fun a => ?_) (fun a hne => GoMap.get?_set_of_ne _ _ hne),
        h.snoc (fun g' hg' heq => absurd heq (hnone g' hg')) (takeAll_isSome_iff.mp (by rw [htake']; rfl))⟩
      rw [accountOf_snoc,GoMap.get?_set]
      split
      · rename_i heq
        rw [heq,hacc,if_pos rfl]
        rfl
      · rename_i hne
        rw [hr.capacities a,if_neg (Ne.symm hne),Option.or_none]
    · have hfits := hok.fits g (by simp)
      rw [activationCharges_snoc,if_pos rfl,hempty,List.nil_append] at hfits
      obtain ⟨rest,htake⟩ := Option.isSome_iff_exists.mp (takeAll_isSome_iff.mpr hfits)
      exact ⟨_,(hiff _).mpr ⟨rest,htake,rfl⟩⟩
  | some account =>
    obtain ⟨hmem,hact⟩ := accountOf_eq_some hacc
    rw [hacc] at hcap hrem
    have hfits0 : Fits account.capacity (activationCharges groups g.activation) := hact ▸ h.fits account hmem
    obtain ⟨left,hleft⟩ := Option.isSome_iff_exists.mp (takeAll_isSome_iff.mpr hfits0)
    have hleft' : ledger.remaining.get? g.activation = some left := by rw [hrem]; exact hleft
    have hopen : ledger.open g = (do
        require (account.capacity.equal g.capacity) .budgetExceeded
        .ok ledger) := by
      simp only [CapacityLedger.open]
      rw [hcap]
      rfl
    have hfirst : accountOf (groups ++ [g]) g.activation = some account := by
      rw [accountOf_snoc,hacc]
      rfl
    have happ : ∀ rest, takeAll left (groupCharges g) = some rest ↔
        takeAll account.capacity (activationCharges groups g.activation ++ groupCharges g) = some rest := by
      intro rest
      rw [takeAll_append,hleft]
      rfl
    cases heq : account.capacity.equal g.capacity with
    | false =>
      have hfail : ledger.open g = .error (.of .budgetExceeded) := by
        rw [hopen,heq]
        rfl
      refine ⟨fun next hnext => ?_,fun hok => ?_⟩
      · simp only [CapacityLedger.charge,hfail,bind_eq_ok] at hnext
        obtain ⟨_,hbad,-⟩ := hnext
        cases hbad
      · have hsame := hok.shared account (List.mem_append_left _ hmem) g (by simp) hact
        rw [GoMap.equal_iff.mpr hsame] at heq
        cases heq
    | true =>
      have hopen' : ledger.open g = .ok ledger := by
        rw [hopen,heq]
        rfl
      have hiff := hcharge _ hopen' left hleft'
      have hsame := GoMap.equal_iff.mp heq
      refine ⟨fun next hnext => ?_,fun hok => ?_⟩
      · obtain ⟨rest,htake,rfl⟩ := (hiff next).mp hnext
        have htake' := (happ rest).mp htake
        refine ⟨hset account rest _ hfirst htake' (fun a => ?_) (fun _ _ => rfl),
          h.snoc (fun g' hg' hact' name => ?_)
            ((takeAll_isSome_iff.mp (by rw [htake']; rfl)).congr fun name => (hsame name).symm)⟩
        · rw [hr.capacities a,accountOf_snoc]
          by_cases ha : g.activation = a
          · subst ha
            rw [hacc]
            rfl
          · rw [if_neg ha,Option.or_none]
        · rw [← hsame name]
          exact h.shared g' hg' account hmem (hact'.trans hact.symm) name
      · have hfits := hok.fits g (by simp)
        rw [activationCharges_snoc,if_pos rfl] at hfits
        obtain ⟨rest,htake⟩ := Option.isSome_iff_exists.mp (takeAll_isSome_iff.mpr (hfits.congr hsame))
        exact ⟨_,(hiff _).mpr ⟨rest,(happ rest).mpr htake,rfl⟩⟩

theorem chargeAll_iff (groups : List ChildGroupRecord) :
    (∀ ledger, groups.foldlM CapacityLedger.charge ⟨∅,∅⟩ = .ok ledger → LedgerReads groups ledger ∧ LedgerOk groups) ∧
      (LedgerOk groups → ∃ ledger, groups.foldlM CapacityLedger.charge ⟨∅,∅⟩ = .ok ledger) := by
  induction groups using List.reverseRecOn with
  | nil =>
    refine ⟨fun ledger h => ?_,fun _ => ⟨_,rfl⟩⟩
    cases h
    exact ⟨⟨fun _ => rfl,fun _ => rfl⟩,⟨by simp,by simp⟩⟩
  | append_singleton groups g ih =>
    obtain ⟨ih1,ih2⟩ := ih
    rw [List.foldlM_append]
    refine ⟨fun ledger h => ?_,fun hok => ?_⟩
    · obtain ⟨mid,hmid,h⟩ := bind_eq_ok.mp h
      obtain ⟨hr,hok⟩ := ih1 mid hmid
      simp only [List.foldlM_cons,List.foldlM_nil,bind_eq_ok] at h
      obtain ⟨next,hnext,h⟩ := h
      cases h
      exact (charge_reads hr hok g).1 _ hnext
    · obtain ⟨mid,hmid⟩ := ih2 hok.init
      obtain ⟨hr,hok'⟩ := ih1 mid hmid
      obtain ⟨next,hnext⟩ := (charge_reads hr hok' g).2 hok
      refine ⟨next,bind_eq_ok.mpr ⟨mid,hmid,?_⟩⟩
      simp only [List.foldlM_cons,List.foldlM_nil,bind_eq_ok]
      exact ⟨next,hnext,rfl⟩

theorem validateChildCapacityLedger_iff {groups : ChildGroups} :
    validateChildCapacityLedger groups = .ok () ↔ LedgerOk groups.values := by
  obtain ⟨h1,h2⟩ := chargeAll_iff groups.values
  simp only [validateChildCapacityLedger,bind_eq_ok]
  constructor
  · rintro ⟨ledger,h,-⟩
    exact (h1 ledger h).2
  · intro h
    obtain ⟨ledger,hl⟩ := h2 h
    exact ⟨ledger,hl,trivial⟩

theorem activationCharges_cons (groups : List ChildGroupRecord) (g : ChildGroupRecord) (a : Nat) :
    activationCharges (g :: groups) a =
      if g.activation = a then groupCharges g ++ activationCharges groups a else activationCharges groups a := by
  by_cases h : g.activation = a
  · simp [activationCharges,h]
  · have hb : (g.activation == a) = false := by simpa using h
    simp [activationCharges,h,hb]

theorem LedgerOk.perm {xs ys : List ChildGroupRecord} (h : LedgerOk xs) (hp : xs ~ ys) : LedgerOk ys :=
  ⟨fun g hg g' hg' => h.shared g (hp.mem_iff.mpr hg) g' (hp.mem_iff.mpr hg'),
    fun g hg => (h.fits g (hp.mem_iff.mpr hg)).perm ((hp.filter _).flatMap_right _)⟩

theorem LedgerOk.replace {groups : List ChildGroupRecord} {g g' : ChildGroupRecord} (h : LedgerOk (g :: groups))
    (hact : g'.activation = g.activation) (hcap : g'.capacity = g.capacity)
    (hle : List.Forall₂ (fun x y => y.1 = x.1 ∧ 0 ≤ y.2.toInt ∧ y.2.toInt ≤ x.2.toInt)
      (groupCharges g) (groupCharges g')) : LedgerOk (g' :: groups) := by
  have hmem : ∀ x ∈ g' :: groups, ∃ y ∈ g :: groups, x.activation = y.activation ∧ x.capacity = y.capacity := by
    intro x hx
    rcases List.mem_cons.mp hx with rfl | hx
    · exact ⟨g,List.mem_cons_self,hact,hcap⟩
    · exact ⟨x,List.mem_cons_of_mem _ hx,rfl,rfl⟩
  refine ⟨fun x hx y hy hxy name => ?_,fun x hx => ?_⟩
  · obtain ⟨x',hx',ha,hc⟩ := hmem x hx
    obtain ⟨y',hy',ha',hc'⟩ := hmem y hy
    rw [hc,hc']
    exact h.shared x' hx' y' hy' (ha ▸ ha' ▸ hxy) name
  · obtain ⟨x',hx',ha,hc⟩ := hmem x hx
    have hfits := h.fits x' hx'
    rw [ha,hc]
    rw [activationCharges_cons] at hfits ⊢
    rw [hact]
    split
    · rename_i heq
      rw [if_pos heq] at hfits
      refine hfits.mono (List.rel_append hle (List.forall₂_same.mpr fun c hc => ⟨rfl,?_,le_refl _⟩))
      exact hfits.nonneg c (List.mem_append_right _ hc)
    · rename_i hne
      rwa [if_neg hne] at hfits

theorem groupCharges_reread (g : ChildGroupRecord) : groupCharges g.reread = groupCharges g := by
  rw [groupCharges,groupCharges,ChildGroupRecord.reread,List.flatMap_map]
  rfl

theorem LedgerOk.reread {groups : List ChildGroupRecord} (h : LedgerOk groups) :
    LedgerOk (groups.map ChildGroupRecord.reread) := by
  have hcharges : ∀ a, activationCharges (groups.map ChildGroupRecord.reread) a = activationCharges groups a := by
    intro a
    simp only [activationCharges,List.filter_map,List.flatMap_map,groupCharges_reread]
    rfl
  refine ⟨fun x hx y hy => ?_,fun x hx => ?_⟩
  · obtain ⟨g,hg,rfl⟩ := List.mem_map.mp hx
    obtain ⟨g',hg',rfl⟩ := List.mem_map.mp hy
    exact h.shared g hg g' hg'
  · obtain ⟨g,hg,rfl⟩ := List.mem_map.mp hx
    rw [hcharges]
    exact h.fits g hg

end Flowy
