import Mathlib.Data.List.Sort
import Mathlib.Order.Defs.LinearOrder

/-! Reading an ordered table page by page. A page asks for one row more than it returns, and the next
one starts after the key of the last row that was returned. -/
namespace Flowy.Keyset

variable {α K : Type*} [LinearOrder K] (key : α → K)

def ordered (rows : List α) : List α := rows.insertionSort fun a b => key a ≤ key b

/-- The rows behind a position; without one, all of them. -/
def after (table : List α) : Option K → List α
  | none => table
  | some k => table.filter fun r => decide (k < key r)

def position (rows : List α) (start : Option K) : Option K := (rows.getLast?.map key).or start

theorem mem_ordered (rows : List α) (r : α) : r ∈ ordered key rows ↔ r ∈ rows :=
  (List.perm_insertionSort _ rows).mem_iff

theorem ordered_pairwise {rows : List α} (h : (rows.map key).Nodup) :
    (ordered key rows).Pairwise fun a b => key a < key b := by
  have hle : (ordered key rows).Pairwise fun a b => key a ≤ key b :=
    List.pairwise_insertionSort (fun a b => key a ≤ key b) rows
  have hne : (ordered key rows).Pairwise fun a b => key a ≠ key b := by
    have hperm := (List.perm_insertionSort (fun a b => key a ≤ key b) rows).map key
    exact List.pairwise_map.mp (hperm.nodup_iff.mpr h)
  exact hle.imp₂ (fun _ _ hab hn => lt_of_le_of_ne hab hn) hne

variable {key}

theorem after_position {table rows rest : List α} {start : Option K}
    (hs : table.Pairwise fun a b => key a < key b) (h : after key table start = rows ++ rest) :
    after key table (position key rows start) = rest := by
  rcases List.eq_nil_or_concat rows with rfl | ⟨front,last,rfl⟩
  · simpa [position] using h
  rw [List.concat_eq_append] at h ⊢
  have hpos : position key (front ++ [last]) start = some (key last) := by simp [position]
  have hsub : (front ++ [last] ++ rest).Sublist table := by
    rw [← h]
    cases start with
    | none => exact List.Sublist.refl _
    | some k => exact List.filter_sublist
  have hsorted := hs.sublist hsub
  have hbefore : ∀ r ∈ front ++ [last], ¬ key last < key r := by
    intro r hr
    rcases List.mem_append.mp hr with hr | hr
    · rw [List.append_assoc,List.pairwise_append] at hsorted
      exact not_lt_of_gt (hsorted.2.2 r hr last (by simp))
    · rw [List.mem_singleton.mp hr]
      exact lt_irrefl _
  have hafter : ∀ r ∈ rest, key last < key r := by
    intro r hr
    rw [List.pairwise_append] at hsorted
    exact hsorted.2.2 last (by simp) r hr
  have hnarrow : table.filter (fun r => decide (key last < key r)) =
      (after key table start).filter fun r => decide (key last < key r) := by
    cases start with
    | none => rfl
    | some k =>
      have hk : k < key last := by
        have hmem : last ∈ after key table (some k) := by
          rw [h]
          simp
        simpa using (List.mem_filter.mp hmem).2
      simp only [after,List.filter_filter]
      refine List.filter_congr fun r _ => ?_
      by_cases hr : key last < key r
      · simp [hr,hk.trans hr]
      · simp [hr]
  rw [hpos]
  change table.filter _ = rest
  rw [hnarrow,h,List.filter_append,List.filter_eq_nil_iff.mpr (fun r hr => by simpa using hbefore r hr),
    List.filter_eq_self.mpr (fun r hr => by simpa using hafter r hr)]
  rfl

/-- The look-ahead row says whether a page leaves anything behind. -/
theorem take_succ_take (rows : List α) (limit : Nat) : (rows.take (limit + 1)).take limit = rows.take limit := by
  rw [List.take_take]
  congr 1
  omega

theorem drop_eq_nil_of_not_more {rows : List α} {limit : Nat} (h : ¬ limit < (rows.take (limit + 1)).length) :
    rows.drop limit = [] := by
  rw [List.length_take] at h
  exact List.drop_eq_nil_of_le (by omega)

end Flowy.Keyset
