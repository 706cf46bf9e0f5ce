import Mathlib.Data.List.Sort
import Flowy.Lib.GoMap
import Flowy.Lib.Json

/-! Values written as JSON text, read back and written again. Ill-formed strings come back
repaired, and map keys that become equal collapse; everything else survives. Each codec carries
the two laws that decide when the second text equals the first. -/
namespace Flowy.Json

open Utf8

def size (ts : List Token) : Nat := (render ts).length

@[simp] theorem size_nil : size [] = 0 := rfl

@[simp] theorem size_append (ts us : List Token) : size (ts ++ us) = size ts + size us := by
  simp [size]

@[simp] theorem size_cons (t : Token) (ts : List Token) : size (t :: ts) = t.render.length + size ts := by
  simp [size,render]

@[simp] theorem wellFormed_nil : wellFormed [] = true := rfl

@[simp] theorem wellFormed_cons (t : Token) (ts : List Token) :
    wellFormed (t :: ts) = (t.valid && wellFormed ts) := rfl

@[simp] theorem valid_punct (b : Bytes) : (Token.punct b).valid = true := rfl

/-- `ts'` is not longer than `ts`, and shorter when `ts` has an ill-formed string. -/
structure Shrinks (ts' ts : List Token) : Prop where
  le : size ts' ≤ size ts
  lt : wellFormed ts = false → size ts' < size ts

theorem Shrinks.of_wellFormed {ts : List Token} (h : wellFormed ts = true) : Shrinks ts ts :=
  ⟨Nat.le_refl _,fun hn => by rw [h] at hn; cases hn⟩

theorem Shrinks.append {ts ts' us us' : List Token} (h : Shrinks ts' ts) (k : Shrinks us' us) :
    Shrinks (ts' ++ us') (ts ++ us) := by
  have hle := h.le
  have kle := k.le
  refine ⟨by simp only [size_append]; omega,fun hn => ?_⟩
  rw [wellFormed_append,Bool.and_eq_false_iff] at hn
  simp only [size_append]
  rcases hn with hn | hn
  · have := h.lt hn
    omega
  · have := k.lt hn
    omega

theorem Shrinks.punct {ts ts' : List Token} (h : Shrinks ts' ts) (b : Bytes) :
    Shrinks (.punct b :: ts') (.punct b :: ts) :=
  have hb : Shrinks [.punct b] [.punct b] := .of_wellFormed rfl
  hb.append h

/-- A type with its JSON text, `reread` being what decoding the text gives. -/
structure Codec (α : Type*) where
  tokens : α → List Token
  reread : α → α
  fixed : ∀ x, wellFormed (tokens x) = true → reread x = x
  shrinks : ∀ x, Shrinks (tokens (reread x)) (tokens x)

theorem Codec.render_reread_iff {α : Type*} (c : Codec α) (x : α) :
    render (c.tokens (c.reread x)) = render (c.tokens x) ↔ wellFormed (c.tokens x) = true := by
  constructor
  · intro h
    by_contra hn
    have hlt := (c.shrinks x).lt (Bool.eq_false_iff.mpr hn)
    simp only [size,h] at hlt
    omega
  · intro h
    rw [c.fixed x h]

def Codec.literal {α : Type*} (f : α → Bytes) : Codec α where
  tokens x := [.punct (f x)]
  reread := id
  fixed _ _ := rfl
  shrinks _ := .of_wellFormed rfl

def Codec.text : Codec Bytes where
  tokens s := [.str s]
  reread := coerce
  fixed s h := coerce_of_valid (by simpa [Token.valid] using h)
  shrinks s := by
    refine ⟨by simpa [Token.render] using length_quote_coerce_le s,fun h => ?_⟩
    simpa [Token.render] using length_quote_coerce_lt (s := s) (by simpa [Token.valid] using h)

def commaJoin : List (List Token) → List Token
  | [] => []
  | [x] => x
  | x :: y :: xs => x ++ .punct [0x2C] :: commaJoin (y :: xs)

theorem size_commaJoin (xs : List (List Token)) :
    size (commaJoin xs) = (xs.map size).sum + (xs.length - 1) := by
  induction xs using commaJoin.induct with
  | case1 => rfl
  | case2 x => simp [commaJoin]
  | case3 x y xs ih =>
    simp only [commaJoin,size_append,size_cons,ih,List.map_cons,List.sum_cons,List.length_cons,
      Token.render,List.length_nil]
    omega

theorem wellFormed_commaJoin (xs : List (List Token)) :
    wellFormed (commaJoin xs) = xs.all wellFormed := by
  induction xs using commaJoin.induct with
  | case1 => rfl
  | case2 x => simp [commaJoin]
  | case3 x y xs ih => simp [commaJoin,ih]

theorem Shrinks.commaJoin {xs xs' : List (List Token)} (h : List.Forall₂ Shrinks xs' xs) :
    Shrinks (commaJoin xs') (commaJoin xs) := by
  have hsum : (xs'.map size).sum ≤ (xs.map size).sum ∧
      (xs.all wellFormed = false → (xs'.map size).sum < (xs.map size).sum) := by
    induction h with
    | nil => simp
    | cons hx hxs ih =>
      have hle := hx.le
      simp only [List.map_cons,List.sum_cons,List.all_cons,Bool.and_eq_false_iff]
      refine ⟨by omega,?_⟩
      rintro (hn | hn)
      · have := hx.lt hn
        omega
      · have := ih.2 hn
        omega
  have hlen := h.length_eq
  refine ⟨by rw [size_commaJoin,size_commaJoin,hlen]; omega,fun hn => ?_⟩
  rw [wellFormed_commaJoin] at hn
  have := hsum.2 hn
  rw [size_commaJoin,size_commaJoin,hlen]
  omega

def Codec.list {α : Type*} (c : Codec α) : Codec (List α) where
  tokens xs := .punct [0x5B] :: commaJoin (xs.map c.tokens) ++ [.punct [0x5D]]
  reread xs := xs.map c.reread
  fixed xs h := by
    simp only [List.cons_append,wellFormed_cons,valid_punct,Bool.true_and,wellFormed_append,
      wellFormed_commaJoin,wellFormed_nil,Bool.and_true,List.all_map,List.all_eq_true,
      Function.comp_apply] at h
    exact (List.map_congr_left fun x hx => c.fixed x (h x hx)).trans (List.map_id xs)
  shrinks xs := by
    refine Shrinks.append (.punct (.commaJoin ?_) _) (.of_wellFormed rfl)
    rw [List.map_map,List.forall₂_map_left_iff,List.forall₂_map_right_iff,List.forall₂_same]
    exact fun x _ => c.shrinks x

def Codec.nullable {α : Type*} (c : Codec α) : Codec (Option α) where
  tokens x := x.elim [.punct [0x6E,0x75,0x6C,0x6C]] c.tokens
  reread x := x.map c.reread
  fixed x h := by
    cases x with
    | none => rfl
    | some y => exact congrArg some (c.fixed y h)
  shrinks x := by
    cases x with
    | none => exact .of_wellFormed rfl
    | some y => exact c.shrinks y

section Maps

variable {V : Type*}

abbrev Entry (V : Type*) := Sigma fun _ : Bytes => V

/-- Keys that read back equal collapse to the one written last, which is the greatest. -/
def survives (entries : List (Entry V)) (e : Entry V) : Bool :=
  entries.all fun e' => !decide (coerce e'.1 = coerce e.1) || decide (e'.1 ≤ e.1)

def rereadEntry (c : Codec V) (e : Entry V) : Entry V := ⟨coerce e.1,c.reread e.2⟩

theorem rereadEntries_nodupKeys (c : Codec V) (m : GoMap Bytes V) :
    ((m.entries.filter (survives m.entries)).map (rereadEntry c)).NodupKeys := by
  rw [List.nodupKeys_iff_pairwise,List.pairwise_map]
  have hkeys := (List.nodupKeys_iff_pairwise.mp m.nodupKeys).filter (survives m.entries)
  refine hkeys.imp_of_mem fun {a b} ha hb hne heq => hne ?_
  obtain ⟨ham,has⟩ := List.mem_filter.mp ha
  obtain ⟨hbm,hbs⟩ := List.mem_filter.mp hb
  have heq' : coerce a.1 = coerce b.1 := heq
  have hab := List.all_eq_true.mp hbs a ham
  have hba := List.all_eq_true.mp has b hbm
  simp only [heq',decide_true,Bool.not_true,Bool.false_or,decide_eq_true_eq] at hab hba
  exact List.le_antisymm hab hba

def rereadMap (c : Codec V) (m : GoMap Bytes V) : GoMap Bytes V where
  entries := (m.entries.filter (survives m.entries)).map (rereadEntry c)
  nodupKeys := rereadEntries_nodupKeys c m

def entryTokens (c : Codec V) (e : Entry V) : List Token := .str e.1 :: .punct [0x3A] :: c.tokens e.2

def sortedEntries (m : GoMap Bytes V) : List (Entry V) :=
  m.entries.insertionSort fun a b => a.1 ≤ b.1

theorem mem_sortedEntries (m : GoMap Bytes V) (e : Entry V) :
    e ∈ sortedEntries m ↔ m.get? e.1 = some e.2 := by
  rw [sortedEntries,(List.perm_insertionSort _ _).mem_iff]
  exact GoMap.mem_entries_iff m e.1 e.2

theorem sortedEntries_ascending (m : GoMap Bytes V) : (sortedEntries m).Pairwise fun a b => a.1 < b.1 := by
  have htrans : IsTrans (Entry V) (fun a b => a.1 ≤ b.1) := ⟨fun _ _ _ h1 h2 => List.le_trans h1 h2⟩
  have htotal : Std.Total (fun a b : Entry V => a.1 ≤ b.1) := ⟨fun a b => List.le_total a.1 b.1⟩
  have hle : (sortedEntries m).Pairwise fun a b => a.1 ≤ b.1 := List.pairwise_insertionSort _ _
  have hne : (sortedEntries m).Pairwise fun a b => a.1 ≠ b.1 :=
    List.pairwise_map.mp (((List.perm_insertionSort _ _).map _).nodup_iff.mpr m.nodupKeys)
  refine hle.imp₂ (fun a b hab hdiff => ?_) hne
  by_contra hlt
  exact hdiff (List.le_antisymm hab (List.not_lt.mp hlt))

theorem sortedEntries_congr {m n : GoMap Bytes V} (h : ∀ k, m.get? k = n.get? k) :
    sortedEntries m = sortedEntries n := by
  have htrans : IsTrans (Entry V) (fun a b => a.1 ≤ b.1) := ⟨fun _ _ _ h1 h2 => List.le_trans h1 h2⟩
  have htotal : Std.Total (fun a b : Entry V => a.1 ≤ b.1) := ⟨fun a b => List.le_total a.1 b.1⟩
  have hperm : (sortedEntries m).Perm (sortedEntries n) :=
    (List.perm_insertionSort _ _).trans ((GoMap.entries_perm h).trans (List.perm_insertionSort _ _).symm)
  refine hperm.eq_of_pairwise ?_ (List.pairwise_insertionSort _ _) (List.pairwise_insertionSort _ _)
  intro a b ha hb hab hba
  have hkey : a.1 = b.1 := List.le_antisymm hab hba
  rw [mem_sortedEntries] at ha hb
  rw [h,hkey,hb] at ha
  exact Sigma.ext hkey (heq_of_eq (Option.some.inj ha).symm)

def mapTokens (c : Codec V) (m : GoMap Bytes V) : List Token :=
  .punct [0x7B] :: commaJoin ((sortedEntries m).map (entryTokens c)) ++ [.punct [0x7D]]

theorem wellFormed_mapTokens (c : Codec V) (m : GoMap Bytes V) :
    wellFormed (mapTokens c m) = m.entries.all fun e => wellFormed (entryTokens c e) := by
  simp only [mapTokens,List.cons_append,wellFormed_cons,valid_punct,Bool.true_and,wellFormed_append,
    wellFormed_commaJoin,wellFormed_nil,Bool.and_true,List.all_map]
  exact (List.perm_insertionSort _ _).all_eq

theorem size_mapTokens (c : Codec V) (m : GoMap Bytes V) :
    size (mapTokens c m) =
      2 + (m.entries.map fun e => size (entryTokens c e)).sum + (m.entries.length - 1) := by
  have hperm := List.perm_insertionSort (fun a b : Entry V => a.1 ≤ b.1) m.entries
  have hsum := (hperm.map fun e => size (entryTokens c e)).sum_nat
  have hlen := hperm.length_eq
  simp only [mapTokens,sortedEntries,List.cons_append,size_cons,size_append,size_commaJoin,List.map_map,
    List.length_map,hlen,size_nil,Token.render,List.length_cons,List.length_nil]
  simp only [Function.comp_def,hsum]
  omega

theorem entry_shrinks (c : Codec V) (e : Entry V) :
    Shrinks (entryTokens c (rereadEntry c e)) (entryTokens c e) :=
  (Codec.text.shrinks e.1).append ((c.shrinks e.2).punct _)

theorem sum_filter_map_le (c : Codec V) (p : Entry V → Bool) (es : List (Entry V)) :
    (((es.filter p).map (rereadEntry c)).map fun e => size (entryTokens c e)).sum ≤
        (es.map fun e => size (entryTokens c e)).sum ∧
      ((es.all fun e => wellFormed (entryTokens c e)) = false →
        (((es.filter p).map (rereadEntry c)).map fun e => size (entryTokens c e)).sum <
          (es.map fun e => size (entryTokens c e)).sum) := by
  induction es with
  | nil => simp
  | cons e es ih =>
    have hs := entry_shrinks c e
    have hle := hs.le
    have hpos : 0 < size (entryTokens c e) := by simp [entryTokens,Token.render,quote]
    simp only [List.all_cons,Bool.and_eq_false_iff]
    by_cases hp : p e = true
    · simp only [List.filter_cons_of_pos hp,List.map_cons,List.sum_cons]
      refine ⟨by omega,?_⟩
      rintro (hn | hn)
      · have := hs.lt hn
        omega
      · have := ih.2 hn
        omega
    · simp only [List.filter_cons_of_neg hp,List.map_cons,List.sum_cons]
      omega

theorem rereadMap_fixed (c : Codec V) (m : GoMap Bytes V) (h : wellFormed (mapTokens c m) = true) :
    rereadMap c m = m := by
  rw [wellFormed_mapTokens,List.all_eq_true] at h
  have hkey : ∀ e ∈ m.entries, coerce e.1 = e.1 := by
    intro e he
    have hv := h e he
    simp only [entryTokens,wellFormed_cons,Bool.and_eq_true] at hv
    exact coerce_of_valid hv.1
  have hfilter : m.entries.filter (survives m.entries) = m.entries := by
    refine List.filter_eq_self.mpr fun e he => List.all_eq_true.mpr fun e' he' => ?_
    rw [hkey e he,hkey e' he']
    by_cases heq : e'.1 = e.1
    · simp [heq]
    · simp [heq]
  have hmap : m.entries.map (rereadEntry c) = m.entries := by
    refine (List.map_congr_left fun e he => ?_).trans (List.map_id m.entries)
    have hv := h e he
    simp only [entryTokens,wellFormed_cons,Bool.and_eq_true] at hv
    simp only [rereadEntry,hkey e he,c.fixed e.2 hv.2.2]
    rfl
  refine AList.ext ?_
  simp only [rereadMap,hfilter,hmap]

def Codec.map (c : Codec V) : Codec (GoMap Bytes V) where
  tokens := mapTokens c
  reread := rereadMap c
  fixed := rereadMap_fixed c
  shrinks m := by
    have hsum := sum_filter_map_le c (survives m.entries) m.entries
    have hlen : (rereadMap c m).entries.length ≤ m.entries.length := by
      simpa [rereadMap] using List.length_filter_le _ m.entries
    refine ⟨?_,fun hn => ?_⟩
    · have := hsum.1
      rw [size_mapTokens,size_mapTokens]
      simp only [rereadMap] at hlen ⊢
      omega
    · rw [wellFormed_mapTokens] at hn
      have := hsum.2 hn
      rw [size_mapTokens,size_mapTokens]
      simp only [rereadMap] at hlen ⊢
      omega

theorem rereadMap_eq_empty_iff (c : Codec V) (m : GoMap Bytes V) :
    (rereadMap c m).entries = [] ↔ m.entries = [] := by
  simp only [rereadMap,List.map_eq_nil_iff,List.filter_eq_nil_iff]
  constructor
  · intro h
    by_contra hne
    obtain ⟨e,he,hmax⟩ : ∃ e ∈ m.entries, ∀ e' ∈ m.entries, e'.1 ≤ e.1 := by
      generalize m.entries = es at hne
      induction es with
      | nil => exact absurd rfl hne
      | cons a es ih =>
        by_cases hes : es = []
        · subst hes
          exact ⟨a,by simp,by simp⟩
        · obtain ⟨e,he,hmax⟩ := ih hes
          rcases List.le_total a.1 e.1 with hle | hle
          · refine ⟨e,by simp [he],?_⟩
            rintro e' he'
            rcases List.mem_cons.mp he' with rfl | he'
            · exact hle
            · exact hmax e' he'
          · refine ⟨a,by simp,?_⟩
            rintro e' he'
            rcases List.mem_cons.mp he' with rfl | he'
            · exact List.le_refl _
            · exact List.le_trans (hmax e' he') hle
    refine h e he (List.all_eq_true.mpr fun e' he' => ?_)
    simp [hmax e' he']
  · intro h e he
    rw [h] at he
    cases he

section Injective

variable {c : Codec V} {good : V → Prop}

def closes (b : UInt8) : Prop := b = 0x2C ∨ b = 0x7D

/-- Such values can be read off their text, up to the byte that follows. -/
def Delimited (c : Codec V) (good : V → Prop) : Prop :=
  ∀ v w, good v → good w → ∀ b b', closes b → closes b' → ∀ x y,
    render (c.tokens v) ++ b :: x = render (c.tokens w) ++ b' :: y → v = w ∧ b = b' ∧ x = y

theorem delimited_literal {f : V → Bytes} {p : UInt8 → Prop} (hf : Function.Injective f)
    (hp : ∀ v, ∀ b ∈ f v, p b) (hcomma : ¬p 0x2C) (hbrace : ¬p 0x7D) :
    Delimited (.literal f) fun _ => True := by
  intro v w _ _ b b' hb hb' x y h
  have hstop : ∀ {b : UInt8}, closes b → ¬p b := by
    rintro b (rfl | rfl)
    · exact hcomma
    · exact hbrace
  simp only [Codec.literal,render,List.flatMap_cons,List.flatMap_nil,List.append_nil,Token.render] at h
  obtain ⟨hvw,hbb,hxy⟩ := append_stop_inj (hp v) (hp w) (hstop hb) (hstop hb') x y h
  exact ⟨hf hvw,hbb,hxy⟩

theorem delimited_text : Delimited .text fun s => valid s = true := by
  intro v w _ hw b b' _ _ x y h
  simp only [Codec.text,render,List.flatMap_cons,List.flatMap_nil,List.append_nil,Token.render] at h
  obtain ⟨hvw,htail⟩ := quote_append_inj hw _ _ h
  exact ⟨hvw,List.cons.inj htail⟩

theorem render_entry (e : Entry V) :
    render (entryTokens c e) = quote e.1 ++ 0x3A :: render (c.tokens e.2) := by
  simp [render,entryTokens,Token.render]

theorem entry_append_inj (hc : Delimited c good) {e e' : Entry V} (he : good e.2) (he' : good e'.2)
    (hv : valid e'.1 = true) {b b' : UInt8} (hb : closes b) (hb' : closes b') (x y : Bytes)
    (h : render (entryTokens c e) ++ b :: x = render (entryTokens c e') ++ b' :: y) :
    e = e' ∧ b = b' ∧ x = y := by
  rw [render_entry,render_entry,List.append_assoc,List.append_assoc] at h
  obtain ⟨hkey,h⟩ := quote_append_inj hv _ _ h
  rw [List.cons_append,List.cons_append,List.cons.injEq] at h
  obtain ⟨hval,hbb⟩ := hc _ _ he he' _ _ hb hb' _ _ h.2
  exact ⟨Sigma.ext hkey (heq_of_eq hval),hbb⟩

theorem entries_append_inj (hc : Delimited c good) (es es' : List (Entry V)) (hes : ∀ e ∈ es, good e.2)
    (hes' : ∀ e ∈ es', good e.2) (hv : ∀ e ∈ es', valid e.1 = true) (x y : Bytes)
    (h : render (commaJoin (es.map (entryTokens c))) ++ 0x7D :: x =
      render (commaJoin (es'.map (entryTokens c))) ++ 0x7D :: y) : es = es' ∧ x = y := by
  have hhead : ∀ (e : Entry V) (s t : Bytes), render (entryTokens c e) ++ s ≠ 0x7D :: t := by
    intro e s t heq
    simp [render_entry,quote] at heq
  -- an entry ends at a comma when another one follows, and at the brace when none does
  have hsplit : ∀ (e : Entry V) (es : List (Entry V)) (x : Bytes), ∃ b z,
      render (commaJoin ((e :: es).map (entryTokens c))) ++ 0x7D :: x =
        render (entryTokens c e) ++ b :: z ∧
      ((es = [] ∧ b = 0x7D ∧ z = x) ∨ (es ≠ [] ∧ b = 0x2C ∧
        z = render (commaJoin (es.map (entryTokens c))) ++ 0x7D :: x)) := by
    intro e es x
    cases es with
    | nil => exact ⟨0x7D,x,by simp [commaJoin],.inl ⟨rfl,rfl,rfl⟩⟩
    | cons e' es =>
      refine ⟨0x2C,_,?_,.inr ⟨List.cons_ne_nil _ _,rfl,rfl⟩⟩
      simp only [List.map_cons,commaJoin,render_append,List.append_assoc]
      rfl
  induction es generalizing es' with
  | nil =>
    cases es' with
    | nil => exact ⟨rfl,by simpa [commaJoin,render] using h⟩
    | cons e' es' =>
      obtain ⟨b,z,heq,-⟩ := hsplit e' es' y
      rw [heq] at h
      exact absurd h.symm (hhead e' _ _)
  | cons e es ih =>
    obtain ⟨b,z,heq,hcase⟩ := hsplit e es x
    cases es' with
    | nil =>
      rw [heq] at h
      exact absurd h (hhead e _ _)
    | cons e' es' =>
      obtain ⟨b',z',heq',hcase'⟩ := hsplit e' es' y
      rw [heq,heq'] at h
      have hb : closes b := hcase.symm.imp (fun h => h.2.1) fun h => h.2.1
      have hb' : closes b' := hcase'.symm.imp (fun h => h.2.1) fun h => h.2.1
      obtain ⟨rfl,hbb,hzz⟩ := entry_append_inj hc (hes e List.mem_cons_self) (hes' e' List.mem_cons_self)
        (hv e' List.mem_cons_self) hb hb' _ _ h
      rcases hcase with ⟨rfl,hb,hz⟩ | ⟨-,hb,hz⟩ <;> rcases hcase' with ⟨rfl,hb',hz'⟩ | ⟨-,hb',hz'⟩
      · exact ⟨rfl,by rw [← hz,← hz',hzz]⟩
      · rw [hb,hb'] at hbb
        exact absurd hbb (by decide)
      · rw [hb,hb'] at hbb
        exact absurd hbb (by decide)
      · obtain ⟨rfl,hxy⟩ := ih es' (fun d hd => hes d (List.mem_cons_of_mem _ hd))
          (fun d hd => hes' d (List.mem_cons_of_mem _ hd))
          (fun d hd => hv d (List.mem_cons_of_mem _ hd)) (by rw [← hz,← hz',hzz])
        exact ⟨rfl,hxy⟩

theorem render_object (ts : List Token) (x : Bytes) :
    render (.punct [0x7B] :: ts ++ [.punct [0x7D]]) ++ x = 0x7B :: (render ts ++ 0x7D :: x) := by
  simp [render,Token.render]

theorem mapTokens_append_inj (hc : Delimited c fun _ => True) {m n : GoMap Bytes V}
    (hv : ∀ e ∈ n.entries, valid e.1 = true) (x y : Bytes)
    (h : render (mapTokens c m) ++ x = render (mapTokens c n) ++ y) (k : Bytes) : m.get? k = n.get? k := by
  have hperm : ∀ m : GoMap Bytes V, (sortedEntries m).Perm m.entries := fun m => List.perm_insertionSort _ _
  rw [mapTokens,mapTokens,render_object,render_object,List.cons.injEq] at h
  obtain ⟨hes,-⟩ := entries_append_inj hc _ _ (fun _ _ => trivial) (fun _ _ => trivial)
    (fun e he => hv e ((hperm n).mem_iff.mp he)) _ _ h.2
  exact AList.perm_lookup ((hperm m).symm.trans (hes ▸ hperm n))

end Injective
end Maps

section Objects

variable {α : Type*}

/-- A member of an object with its name, `none` when it is left out. -/
abbrev Member := Option (List Token)

def named (name : Bytes) (ts : List Token) : List Token := .punct (0x22 :: name ++ [0x22,0x3A]) :: ts

def field (name : Bytes) (c : Codec α) (x : α) : Member := some (named name (c.tokens x))

/-- A pointer with `omitempty`. -/
def optional (name : Bytes) (c : Codec α) (x : Option α) : Member :=
  x.map fun y => named name (c.tokens y)

/-- A value with `omitempty` or `omitzero`. -/
def omitting (skip : α → Bool) (name : Bytes) (c : Codec α) (x : α) : Member :=
  if skip x then none else field name c x

def Member.ok (m : Member) : Bool := m.elim true wellFormed

def objectTokens (ms : List Member) : List Token :=
  .punct [0x7B] :: commaJoin (ms.filterMap id) ++ [.punct [0x7D]]

theorem wellFormed_objectTokens (ms : List Member) : wellFormed (objectTokens ms) = ms.all Member.ok := by
  simp only [objectTokens,List.cons_append,wellFormed_cons,valid_punct,Bool.true_and,wellFormed_append,
    wellFormed_commaJoin,wellFormed_nil,Bool.and_true]
  induction ms with
  | nil => rfl
  | cons m ms ih =>
    cases m with
    | none => exact ih
    | some ts => exact congrArg (wellFormed ts && ·) ih

inductive MemberShrinks : Member → Member → Prop
  | omitted : MemberShrinks none none
  | written {ts' ts : List Token} (h : Shrinks ts' ts) : MemberShrinks (some ts') (some ts)

theorem objectTokens_shrinks {ms' ms : List Member} (h : List.Forall₂ MemberShrinks ms' ms) :
    Shrinks (objectTokens ms') (objectTokens ms) := by
  have hpresent : List.Forall₂ Shrinks (ms'.filterMap id) (ms.filterMap id) := by
    induction h with
    | nil => exact .nil
    | cons hm _ ih =>
      cases hm with
      | omitted => exact ih
      | written hs => exact .cons hs ih
  exact Shrinks.append (.punct (.commaJoin hpresent) _) (.of_wellFormed rfl)

def Codec.object (members : α → List Member) (reread : α → α)
    (fixed : ∀ x, (members x).all Member.ok = true → reread x = x)
    (shrinks : ∀ x, List.Forall₂ MemberShrinks (members (reread x)) (members x)) : Codec α where
  tokens x := objectTokens (members x)
  reread := reread
  fixed x h := fixed x (by rwa [wellFormed_objectTokens] at h)
  shrinks x := objectTokens_shrinks (shrinks x)

@[simp] theorem field_shrinks (name : Bytes) (c : Codec α) (x : α) :
    MemberShrinks (field name c (c.reread x)) (field name c x) :=
  .written ((c.shrinks x).punct _)

@[simp] theorem ok_field (name : Bytes) (c : Codec α) (x : α) :
    (field name c x).ok = wellFormed (c.tokens x) := rfl

@[simp] theorem optional_shrinks (name : Bytes) (c : Codec α) (x : Option α) :
    MemberShrinks (optional name c (x.map c.reread)) (optional name c x) := by
  cases x with
  | none => exact .omitted
  | some y => exact .written ((c.shrinks y).punct _)

theorem optional_fixed {name : Bytes} {c : Codec α} {x : Option α} (h : (optional name c x).ok = true) :
    x.map c.reread = x := by
  cases x with
  | none => rfl
  | some y => exact congrArg some (c.fixed y h)

theorem omitting_shrinks {skip : α → Bool} {c : Codec α} {x : α} (h : skip (c.reread x) = skip x)
    (name : Bytes) : MemberShrinks (omitting skip name c (c.reread x)) (omitting skip name c x) := by
  rw [omitting,omitting,h]
  split
  · exact .omitted
  · exact field_shrinks name c x

theorem omitting_fixed {skip : α → Bool} {name : Bytes} {c : Codec α} {x : α}
    (h : (omitting skip name c x).ok = true) (hskip : skip x = true → c.reread x = x) :
    c.reread x = x := by
  unfold omitting at h
  split at h
  · rename_i hs
    exact hskip hs
  · exact c.fixed x h

@[simp] theorem omitting_literal_shrinks (skip : α → Bool) (name : Bytes) (f : α → Bytes) (x : α) :
    MemberShrinks (omitting skip name (.literal f) x) (omitting skip name (.literal f) x) :=
  omitting_shrinks (c := .literal f) rfl name

@[simp] theorem omitting_text_shrinks (name x : Bytes) :
    MemberShrinks (omitting List.isEmpty name .text (Codec.text.reread x))
      (omitting List.isEmpty name .text x) := by
  refine omitting_shrinks ?_ name
  rw [Bool.eq_iff_iff,List.isEmpty_iff,List.isEmpty_iff]
  exact coerce_eq_nil_iff x

theorem omitting_text_fixed {name x : Bytes} (h : (omitting List.isEmpty name .text x).ok = true) :
    Codec.text.reread x = x :=
  omitting_fixed h fun hx => List.isEmpty_iff.mp hx ▸ rfl

@[simp] theorem omitting_map_shrinks {V : Type*} (name : Bytes) (c : Codec V) (x : GoMap Bytes V) :
    MemberShrinks (omitting GoMap.isEmpty name c.map (c.map.reread x))
      (omitting GoMap.isEmpty name c.map x) := by
  refine omitting_shrinks ?_ name
  rw [Bool.eq_iff_iff,GoMap.isEmpty,GoMap.isEmpty,List.isEmpty_iff,List.isEmpty_iff]
  exact rereadMap_eq_empty_iff c x

theorem omitting_map_fixed {V : Type*} {name : Bytes} {c : Codec V} {x : GoMap Bytes V}
    (h : (omitting GoMap.isEmpty name c.map x).ok = true) : c.map.reread x = x := by
  refine omitting_fixed h fun hx => AList.ext ?_
  have hx' := List.isEmpty_iff.mp hx
  exact ((rereadMap_eq_empty_iff c x).mpr hx').trans hx'.symm

theorem textMembers_append_inj (names ss ts : List Bytes) (hs : ss.length = names.length)
    (ht : ts.length = names.length) (hv : ∀ t ∈ ts, valid t = true) (x y : Bytes)
    (h : render (commaJoin (List.zipWith (fun n s => named n (Codec.text.tokens s)) names ss)) ++ x =
      render (commaJoin (List.zipWith (fun n s => named n (Codec.text.tokens s)) names ts)) ++ y) :
    ss = ts ∧ x = y := by
  induction names generalizing ss ts with
  | nil =>
    rw [List.length_eq_zero_iff.mp hs,List.length_eq_zero_iff.mp ht] at h ⊢
    exact ⟨rfl,h⟩
  | cons name names ih =>
    obtain ⟨s,ss,rfl⟩ := List.exists_cons_of_length_eq_add_one hs
    obtain ⟨t,ts,rfl⟩ := List.exists_cons_of_length_eq_add_one ht
    rw [List.length_cons,List.length_cons,Nat.add_right_cancel_iff] at hs ht
    have hhead : ∀ (s z : Bytes), render (named name (Codec.text.tokens s)) ++ z =
        (0x22 :: name ++ [0x22,0x3A]) ++ (quote s ++ z) := by
      intro s z
      simp [render,named,Codec.text,Token.render]
    cases names with
    | nil =>
      rw [List.length_eq_zero_iff.mp hs,List.length_eq_zero_iff.mp ht] at h ⊢
      simp only [List.zipWith_cons_cons,List.zipWith_nil_left,commaJoin,hhead,List.append_cancel_left_eq] at h
      obtain ⟨rfl,hxy⟩ := quote_append_inj (hv t List.mem_cons_self) _ _ h
      exact ⟨rfl,hxy⟩
    | cons name' names =>
      obtain ⟨s',ss,rfl⟩ := List.exists_cons_of_length_eq_add_one hs
      obtain ⟨t',ts,rfl⟩ := List.exists_cons_of_length_eq_add_one ht
      have hcomma : ∀ us : List Token, render (.punct [0x2C] :: us) = 0x2C :: render us := fun _ => rfl
      simp only [List.zipWith_cons_cons,commaJoin,render_append,List.append_assoc,hcomma,
        List.cons_append] at h
      rw [hhead,hhead,List.append_cancel_left_eq] at h
      obtain ⟨rfl,htail⟩ := quote_append_inj (hv t List.mem_cons_self) _ _ h
      obtain ⟨hst,hxy⟩ := ih (s' :: ss) (t' :: ts) hs ht (fun u hu => hv u (List.mem_cons_of_mem _ hu))
        (by simpa only [List.zipWith_cons_cons] using (List.cons.inj htail).2)
      exact ⟨by rw [hst],hxy⟩

end Objects
end Flowy.Json
