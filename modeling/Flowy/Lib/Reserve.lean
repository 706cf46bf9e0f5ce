import Mathlib.Data.List.Perm.Basic
import Mathlib.Algebra.BigOperators.Group.List.Basic
import Mathlib.Algebra.Order.BigOperators.Group.List
import Mathlib.Algebra.Ring.Int.Defs
import Flowy.Lib.GoMap

/-! Sequential reservation of named units in 64-bit arithmetic. Charges are taken one after another
off what is left of a capacity; whether all of them fit does not depend on their order, and no
subtraction overflows. -/
namespace Flowy.Reserve

open scoped List

variable {K : Type*} [DecidableEq K]

theorem toInt_sub_of_le {a b : Int64} (hb : 0 ≤ b.toInt) (hle : b.toInt ≤ a.toInt) :
    (a - b).toInt = a.toInt - b.toInt := by
  have ha := a.toInt_lt
  have hlow := a.le_toInt
  rw [Int64.toInt_sub]
  apply Int.bmod_eq_of_le <;> omega

def take (remaining : GoMap K Int64) (charge : K × Int64) : Option (GoMap K Int64) :=
  match remaining.get? charge.1 with
  | none => none
  | some available =>
    if 0 ≤ charge.2 ∧ charge.2 ≤ available then some (remaining.set charge.1 (available - charge.2))
    else none

def takeAll (remaining : GoMap K Int64) (charges : List (K × Int64)) : Option (GoMap K Int64) :=
  charges.foldlM take remaining

def total (charges : List (K × Int64)) (name : K) : Int :=
  (charges.map fun c => if c.1 = name then c.2.toInt else 0).sum

structure Fits (capacity : GoMap K Int64) (charges : List (K × Int64)) : Prop where
  named : ∀ c ∈ charges, (capacity.get? c.1).isSome = true
  nonneg : ∀ c ∈ charges, 0 ≤ c.2.toInt
  within : ∀ c ∈ charges, ∀ units, capacity.get? c.1 = some units → total charges c.1 ≤ units.toInt

theorem total_cons (c : K × Int64) (charges : List (K × Int64)) (name : K) :
    total (c :: charges) name = (if c.1 = name then c.2.toInt else 0) + total charges name := by
  simp [total]

theorem total_append (xs ys : List (K × Int64)) (name : K) :
    total (xs ++ ys) name = total xs name + total ys name := by
  simp [total]

theorem total_nonneg {charges : List (K × Int64)} (h : ∀ c ∈ charges, 0 ≤ c.2.toInt) (name : K) :
    0 ≤ total charges name := by
  refine List.sum_nonneg fun x hx => ?_
  obtain ⟨c,hc,rfl⟩ := List.mem_map.mp hx
  split
  · exact h c hc
  · exact le_refl _

theorem total_eq_zero {charges : List (K × Int64)} {name : K} (h : ∀ c ∈ charges, c.1 ≠ name) :
    total charges name = 0 := by
  induction charges with
  | nil => rfl
  | cons c charges ih =>
    rw [total_cons,if_neg (h c List.mem_cons_self),ih fun d hd => h d (List.mem_cons_of_mem _ hd),zero_add]

theorem take_eq_some {remaining rest : GoMap K Int64} {c : K × Int64} :
    take remaining c = some rest ↔ ∃ available, remaining.get? c.1 = some available ∧ 0 ≤ c.2.toInt ∧
      c.2.toInt ≤ available.toInt ∧ rest = remaining.set c.1 (available - c.2) := by
  unfold take
  cases hg : remaining.get? c.1 with
  | none => simp
  | some available =>
    simp only [Option.ite_none_right_eq_some,Option.some.injEq,Int64.le_iff_toInt_le,Int64.toInt_zero,
      exists_eq_left']
    constructor
    · rintro ⟨⟨h0,hle⟩,rfl⟩
      exact ⟨h0,hle,rfl⟩
    · rintro ⟨h0,hle,rfl⟩
      exact ⟨⟨h0,hle⟩,rfl⟩

theorem Fits.cons_iff {capacity : GoMap K Int64} {c : K × Int64} {charges : List (K × Int64)}
    {available : Int64} (hg : capacity.get? c.1 = some available) (h0 : 0 ≤ c.2.toInt)
    (hle : c.2.toInt ≤ available.toInt) :
    Fits capacity (c :: charges) ↔ Fits (capacity.set c.1 (available - c.2)) charges := by
  have hsub := toInt_sub_of_le h0 hle
  have hget : ∀ name, (capacity.set c.1 (available - c.2)).get? name =
      if name = c.1 then some (available - c.2) else capacity.get? name := fun name => GoMap.get?_set _ _ _ _
  constructor
  · intro h
    refine ⟨fun d hd => ?_,fun d hd => h.nonneg d (List.mem_cons_of_mem _ hd),fun d hd units hu => ?_⟩
    · rw [hget]
      split
      · rfl
      · exact h.named d (List.mem_cons_of_mem _ hd)
    · rw [hget] at hu
      split at hu
      · rename_i heq
        cases hu
        have hw := h.within c List.mem_cons_self available hg
        rw [total_cons,if_pos rfl] at hw
        rw [heq,hsub]
        omega
      · rename_i hne
        have hw := h.within d (List.mem_cons_of_mem _ hd) units hu
        rwa [total_cons,if_neg (Ne.symm hne),zero_add] at hw
  · intro h
    refine ⟨fun d hd => ?_,fun d hd => ?_,fun d hd units hu => ?_⟩
    · rcases List.mem_cons.mp hd with rfl | hd
      · simp [hg]
      · have hn := h.named d hd
        rw [hget] at hn
        split at hn
        · rename_i heq
          simp [heq,hg]
        · exact hn
    · rcases List.mem_cons.mp hd with rfl | hd
      · exact h0
      · exact h.nonneg d hd
    · by_cases heq : d.1 = c.1
      · rw [heq,hg] at hu
        cases hu
        rw [heq,total_cons,if_pos rfl]
        by_cases hex : ∃ d' ∈ charges, d'.1 = c.1
        · obtain ⟨d',hd',heq'⟩ := hex
          have hw := h.within d' hd' (available - c.2) (by rw [hget,if_pos heq'])
          rw [heq',hsub] at hw
          omega
        · rw [total_eq_zero fun d' hd' heq' => hex ⟨d',hd',heq'⟩]
          omega
      · have hd : d ∈ charges := (List.mem_cons.mp hd).resolve_left fun h => heq (by rw [h])
        have hw := h.within d hd units (by rw [hget,if_neg heq]; exact hu)
        rwa [total_cons,if_neg (Ne.symm heq),zero_add]

/-- Taking the charges one by one succeeds exactly when they fit. -/
theorem takeAll_isSome_iff {capacity : GoMap K Int64} {charges : List (K × Int64)} :
    (takeAll capacity charges).isSome = true ↔ Fits capacity charges := by
  induction charges generalizing capacity with
  | nil => simp [takeAll,show Fits capacity [] from ⟨by simp,by simp,by simp⟩]
  | cons c charges ih =>
    rw [takeAll,List.foldlM_cons]
    cases ht : take capacity c with
    | none =>
      refine ⟨(fun h => by cases h),fun h => ?_⟩
      obtain ⟨available,hg⟩ := Option.isSome_iff_exists.mp (h.named c List.mem_cons_self)
      have hw := h.within c List.mem_cons_self available hg
      have hrest := total_nonneg (fun d hd => h.nonneg d (List.mem_cons_of_mem _ hd)) c.1
      rw [total_cons,if_pos rfl] at hw
      rw [take_eq_some.mpr ⟨available,hg,h.nonneg c List.mem_cons_self,by omega,rfl⟩] at ht
      cases ht
    | some rest =>
      obtain ⟨available,hg,h0,hle,rfl⟩ := take_eq_some.mp ht
      rw [Fits.cons_iff hg h0 hle]
      exact ih

theorem takeAll_append (capacity : GoMap K Int64) (xs ys : List (K × Int64)) :
    takeAll capacity (xs ++ ys) = (takeAll capacity xs).bind fun rest => takeAll rest ys := by
  simp only [takeAll,List.foldlM_append]
  rfl

theorem takeAll_flatMap {α : Type*} (f : α → List (K × Int64)) (xs : List α) (capacity : GoMap K Int64) :
    takeAll capacity (xs.flatMap f) = xs.foldlM (fun rest x => takeAll rest (f x)) capacity := by
  induction xs generalizing capacity with
  | nil => rfl
  | cons x xs ih =>
    rw [List.flatMap_cons,takeAll_append,List.foldlM_cons]
    exact congrArg _ (funext fun rest => ih rest)

theorem Fits.left {capacity : GoMap K Int64} {xs ys : List (K × Int64)} (h : Fits capacity (xs ++ ys)) :
    Fits capacity xs := by
  refine ⟨fun c hc => h.named c (List.mem_append_left _ hc),
    fun c hc => h.nonneg c (List.mem_append_left _ hc),fun c hc units hu => ?_⟩
  have hw := h.within c (List.mem_append_left _ hc) units hu
  have hys := total_nonneg (fun d hd => h.nonneg d (List.mem_append_right _ hd)) c.1
  rw [total_append] at hw
  omega

theorem Fits.perm {capacity : GoMap K Int64} {xs ys : List (K × Int64)} (h : Fits capacity xs)
    (hp : xs ~ ys) : Fits capacity ys := by
  have htotal : ∀ name, total ys name = total xs name := fun name => ((hp.map _).sum_eq).symm
  exact ⟨fun c hc => h.named c (hp.mem_iff.mpr hc),fun c hc => h.nonneg c (hp.mem_iff.mpr hc),
    fun c hc units hu => by rw [htotal]; exact h.within c (hp.mem_iff.mpr hc) units hu⟩

theorem Fits.congr {capacity capacity' : GoMap K Int64} {charges : List (K × Int64)}
    (h : Fits capacity charges) (hc : ∀ name, capacity'.get? name = capacity.get? name) :
    Fits capacity' charges :=
  ⟨fun c hm => by rw [hc]; exact h.named c hm,h.nonneg,
    fun c hm units hu => h.within c hm units (by rw [← hc]; exact hu)⟩

theorem Fits.mono {capacity : GoMap K Int64} {xs ys : List (K × Int64)} (h : Fits capacity xs)
    (hle : List.Forall₂ (fun x y => y.1 = x.1 ∧ 0 ≤ y.2.toInt ∧ y.2.toInt ≤ x.2.toInt) xs ys) :
    Fits capacity ys := by
  have hmem : ∀ y ∈ ys, 0 ≤ y.2.toInt ∧ ∃ x ∈ xs, x.1 = y.1 := by
    clear h
    induction hle with
    | nil => simp
    | cons hxy _ ih =>
      intro y hy
      rcases List.mem_cons.mp hy with rfl | hy
      · exact ⟨hxy.2.1,_,List.mem_cons_self,hxy.1.symm⟩
      · obtain ⟨h0,x,hx,heq⟩ := ih y hy
        exact ⟨h0,x,List.mem_cons_of_mem _ hx,heq⟩
  have htotal : ∀ name, total ys name ≤ total xs name := by
    intro name
    clear h hmem
    induction hle with
    | nil => exact le_refl _
    | cons hxy _ ih =>
      rw [total_cons,total_cons,hxy.1]
      have hle := hxy.2.2
      split <;> omega
  refine ⟨fun y hy => ?_,fun y hy => (hmem y hy).1,fun y hy units hu => ?_⟩
  · obtain ⟨-,x,hx,heq⟩ := hmem y hy
    rw [← heq]
    exact h.named x hx
  · obtain ⟨-,x,hx,heq⟩ := hmem y hy
    rw [← heq] at hu ⊢
    exact (htotal _).trans (h.within x hx units hu)

theorem total_entries (m : GoMap K Int64) (f : K → Int64 → Int64) (name : K) :
    total (m.entries.map fun e => (e.1,f e.1 e.2)) name = (m.get? name).elim 0 fun v => (f name v).toInt := by
  have hloop : ∀ es : List (Sigma fun _ : K => Int64), es.NodupKeys →
      total (es.map fun e => (e.1,f e.1 e.2)) name = (es.dlookup name).elim 0 fun v => (f name v).toInt := by
    intro es
    induction es with
    | nil => exact fun _ => rfl
    | cons e es ih =>
      intro hnd
      obtain ⟨hfresh,hnd⟩ := List.nodupKeys_cons.mp hnd
      rw [List.map_cons,total_cons,ih hnd]
      by_cases hk : e.1 = name
      · subst hk
        rw [List.dlookup_eq_none.mpr hfresh,show (e :: es).dlookup e.1 = some e.2 from
          List.dlookup_cons_eq es e.1 e.2,if_pos rfl]
        simp
      · rw [if_neg hk,List.dlookup_cons_ne es e (Ne.symm hk),zero_add]
  exact hloop m.entries m.nodupKeys

end Flowy.Reserve
