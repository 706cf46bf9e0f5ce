import Mathlib.Data.List.AList
import Mathlib.Data.List.Perm.Subperm

/-! Finite maps with the reading of Go's built-in `map`: lookup with a presence bit,
assignment, and loops over all entries in an unspecified order. -/
namespace Flowy

/-- Go's `map[K]V`; the order of `entries` is the unspecified iteration order. -/
abbrev GoMap (K V : Type*) := AList (fun _ : K => V)

namespace GoMap

variable {K V W : Type*} [DecidableEq K]

instance [DecidableEq V] : DecidableEq (GoMap K V) := fun m n =>
  decidable_of_iff (m.entries = n.entries) AList.ext_iff.symm

def get? (m : GoMap K V) (k : K) : Option V := m.lookup k

def set (m : GoMap K V) (k : K) (v : V) : GoMap K V := m.insert k v

/-- A `for k, v := range m` loop that leaves as soon as `p` fails. -/
def all (m : GoMap K V) (p : K → V → Bool) : Bool := m.entries.all fun e => p e.1 e.2

def values (m : GoMap K V) : List V := m.entries.map fun e => e.2

def isEmpty (m : GoMap K V) : Bool := m.entries.isEmpty

/-- `delete(m, k)`. -/
def delete (m : GoMap K V) (k : K) : GoMap K V := m.erase k

/-- A loop that deletes the entries that fail `p`. -/
def filter (m : GoMap K V) (p : K → V → Bool) : GoMap K V where
  entries := m.entries.filter fun e => p e.1 e.2
  nodupKeys := List.nodupKeys_iff_pairwise.mpr
    ((List.nodupKeys_iff_pairwise.mp m.nodupKeys).filter _)

/-- `maps.Equal`. -/
def equal [BEq V] (m n : GoMap K V) : Bool :=
  m.entries.length == n.entries.length && m.all fun k v => (n.get? k).any fun w => v == w

def mapValues (m : GoMap K V) (f : V → W) : GoMap K W where
  entries := m.entries.map fun e => ⟨e.1,f e.2⟩
  nodupKeys := by
    have h : (m.entries.map fun e : Sigma (fun _ : K => V) =>
        (⟨e.1,f e.2⟩ : Sigma (fun _ : K => W))).keys = m.entries.keys := by
      simp [List.keys,Function.comp_def]
    rw [List.NodupKeys,h]
    exact m.nodupKeys

@[simp] theorem get?_empty (k : K) : get? (∅ : GoMap K V) k = none := rfl

@[simp] theorem get?_set_self (m : GoMap K V) (k : K) (v : V) : (m.set k v).get? k = some v :=
  AList.lookup_insert m

theorem get?_set_of_ne (m : GoMap K V) {k k' : K} (v : V) (h : k' ≠ k) :
    (m.set k v).get? k' = m.get? k' :=
  AList.lookup_insert_ne h

theorem get?_set (m : GoMap K V) (k k' : K) (v : V) :
    (m.set k v).get? k' = if k' = k then some v else m.get? k' := by
  by_cases h : k' = k
  · subst h
    simp
  · simp [h,get?_set_of_ne m v h]

theorem mem_entries_iff (m : GoMap K V) (k : K) (v : V) :
    (⟨k,v⟩ : Sigma (fun _ : K => V)) ∈ m.entries ↔ m.get? k = some v :=
  AList.mem_lookup_iff.symm

theorem get?_delete (m : GoMap K V) (k k' : K) :
    (m.delete k).get? k' = if k' = k then none else m.get? k' := by
  by_cases h : k' = k
  · subst h
    rw [if_pos rfl]
    exact AList.lookup_erase k' m
  · rw [if_neg h]
    exact AList.lookup_erase_ne h

theorem get?_filter (m : GoMap K V) (p : K → V → Bool) (k : K) :
    (m.filter p).get? k = (m.get? k).filter fun v => p k v := by
  ext v
  rw [← mem_entries_iff,Option.filter_eq_some_iff,← mem_entries_iff]
  simp [filter,List.mem_filter]

theorem get?_filter_key (m : GoMap K V) (q : K → Bool) (k : K) :
    (m.filter fun k _ => q k).get? k = if q k then m.get? k else none := by
  rw [get?_filter]
  cases m.get? k with
  | none => simp
  | some v => simp [Option.filter]

theorem all_iff (m : GoMap K V) (p : K → V → Bool) :
    m.all p = true ↔ ∀ k v, m.get? k = some v → p k v = true := by
  simp only [all,List.all_eq_true]
  constructor
  · intro h k v hk
    exact h ⟨k,v⟩ ((mem_entries_iff m k v).mpr hk)
  · rintro h ⟨k,v⟩ he
    exact h k v ((mem_entries_iff m k v).mp he)

theorem all_set {m : GoMap K V} {k : K} {v : V} {p : K → V → Bool} (h : m.all p = true)
    (hv : p k v = true) : (m.set k v).all p = true := by
  rw [all_iff] at h ⊢
  intro k' v' hget
  by_cases hk : k' = k
  · subst hk
    rw [get?_set_self] at hget
    cases hget
    exact hv
  · exact h k' v' (by rwa [get?_set_of_ne _ _ hk] at hget)

theorem all_set_self {m : GoMap K V} {k : K} {v : V} {p : K → V → Bool}
    (h : (m.set k v).all p = true) : p k v = true :=
  (all_iff _ _).mp h k v (get?_set_self m k v)

theorem mem_values_iff (m : GoMap K V) (v : V) : v ∈ m.values ↔ ∃ k, m.get? k = some v := by
  simp only [values,List.mem_map]
  constructor
  · rintro ⟨⟨k,w⟩,he,rfl⟩
    exact ⟨k,(mem_entries_iff m k w).mp he⟩
  · rintro ⟨k,hk⟩
    exact ⟨⟨k,v⟩,(mem_entries_iff m k v).mpr hk,rfl⟩

theorem get?_mapValues (m : GoMap K V) (f : V → W) (k : K) :
    (m.mapValues f).get? k = (m.get? k).map f := by
  ext w
  rw [← mem_entries_iff,Option.map_eq_some_iff]
  simp only [mapValues,List.mem_map]
  constructor
  · rintro ⟨⟨k',v⟩,he,hw⟩
    cases hw
    exact ⟨v,(mem_entries_iff m k' v).mp he,rfl⟩
  · rintro ⟨v,hv,rfl⟩
    exact ⟨⟨k,v⟩,(mem_entries_iff m k v).mpr hv,rfl⟩

theorem mapValues_eq_self {m : GoMap K V} {f : V → V} (h : ∀ k v, m.get? k = some v → f v = v) :
    m.mapValues f = m := by
  refine AList.ext ((List.map_congr_left fun e he => ?_).trans (List.map_id _))
  have hv := h e.1 e.2 ((mem_entries_iff m e.1 e.2).mp he)
  rw [hv]
  rfl

omit [DecidableEq K] in
theorem nodup_entries (m : GoMap K V) : m.entries.Nodup := m.nodupKeys.nodup

theorem entries_perm {m n : GoMap K V} (h : ∀ k, m.get? k = n.get? k) : m.entries.Perm n.entries :=
  (List.perm_ext_iff_of_nodup m.nodup_entries n.nodup_entries).mpr fun e => by
    rw [show e = ⟨e.1,e.2⟩ from rfl,mem_entries_iff,mem_entries_iff,h]

theorem equal_iff [BEq V] [LawfulBEq V] {m n : GoMap K V} :
    m.equal n = true ↔ ∀ k, m.get? k = n.get? k := by
  simp only [equal,Bool.and_eq_true,beq_iff_eq,all_iff,Option.any_eq_true,exists_eq_right']
  constructor
  · rintro ⟨hlen,hall⟩
    have hsub : m.entries ⊆ n.entries := fun e he =>
      (mem_entries_iff n e.1 e.2).mpr (hall e.1 e.2 ((mem_entries_iff m e.1 e.2).mp he))
    have hperm : m.entries.Perm n.entries :=
      (List.subperm_of_subset m.nodup_entries hsub).perm_of_length_le (Nat.le_of_eq hlen.symm)
    exact fun k => AList.perm_lookup hperm
  · intro h
    exact ⟨(entries_perm h).length_eq,fun k v hk => by rw [← h]; exact hk⟩

theorem entries_set_perm {m : GoMap K V} {k : K} {v : V} (h : m.get? k = some v) (w : V) :
    ∃ rest : List (Sigma fun _ : K => V), m.entries.Perm (⟨k,v⟩ :: rest) ∧
      (m.set k w).entries.Perm (⟨k,w⟩ :: rest) := by
  have hmem := (mem_entries_iff m k v).mpr h
  obtain ⟨v',pre,post,-,hsplit,herase⟩ := List.exists_of_kerase (List.mem_keys_of_mem hmem)
  have hv : v' = v := by
    have hv' : m.get? k = some v' := (mem_entries_iff m k v').mp (by rw [hsplit]; simp)
    rw [h] at hv'
    exact (Option.some.inj hv').symm
  subst hv
  refine ⟨pre ++ post,?_,?_⟩
  · rw [hsplit]
    exact List.perm_middle
  · rw [show (m.set k w).entries = ⟨k,w⟩ :: m.entries.kerase k from AList.entries_insert,herase]

theorem values_set_perm {m : GoMap K V} {k : K} {v : V} (h : m.get? k = some v) (w : V) :
    ∃ rest, m.values.Perm (v :: rest) ∧ (m.set k w).values.Perm (w :: rest) := by
  obtain ⟨rest,h1,h2⟩ := entries_set_perm h w
  exact ⟨rest.map fun e : Sigma (fun _ : K => V) => e.2,h1.map fun e : Sigma (fun _ : K => V) => e.2,
    h2.map fun e : Sigma (fun _ : K => V) => e.2⟩

theorem values_set_new {m : GoMap K V} {k : K} (h : m.get? k = none) (v : V) :
    (m.set k v).values = v :: m.values := by
  have hk : k ∉ m.entries.keys := AList.lookup_eq_none.mp h
  rw [values,show (m.set k v).entries = ⟨k,v⟩ :: m.entries.kerase k from AList.entries_insert,
    List.kerase_of_notMem_keys hk]
  rfl

theorem get?_foldl_set (m : GoMap K V) (f : K → V → W) (n : GoMap K W) (k : K) :
    (m.entries.foldl (fun n e => n.set e.1 (f e.1 e.2)) n).get? k =
      ((m.get? k).map (f k)).or (n.get? k) := by
  have hloop : ∀ (es : List (Sigma fun _ : K => V)) (n : GoMap K W), es.NodupKeys →
      (es.foldl (fun n e => n.set e.1 (f e.1 e.2)) n).get? k = ((es.dlookup k).map (f k)).or (n.get? k) := by
    intro es
    induction es with
    | nil => exact fun n _ => rfl
    | cons e es ih =>
      intro n hnd
      obtain ⟨hfresh,hnd⟩ := List.nodupKeys_cons.mp hnd
      rw [List.foldl_cons,ih _ hnd,get?_set]
      by_cases hk : k = e.1
      · subst hk
        rw [List.dlookup_eq_none.mpr hfresh,if_pos rfl,show (e :: es).dlookup e.1 = some e.2 from
          List.dlookup_cons_eq es e.1 e.2]
        rfl
      · rw [if_neg hk,List.dlookup_cons_ne es e hk]
  exact hloop m.entries n m.nodupKeys

omit [DecidableEq K] in
theorem values_mapValues (m : GoMap K V) (f : V → W) : (m.mapValues f).values = m.values.map f := by
  simp [values,mapValues,List.map_map,Function.comp_def]

end GoMap
end Flowy
