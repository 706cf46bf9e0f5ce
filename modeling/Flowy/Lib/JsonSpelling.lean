import Flowy.Lib.JsonCodec

/-! The raw spelling of a value that is written, read back and written again. Repaired strings are
spelled as before, so only maps can change the text: keys that were ill-formed may collapse, or sort
at another place. -/
namespace Flowy.Json

open Utf8

/-- `ts'` is written for what the raw text of `ts` reads back as; the texts agree when `kept`. -/
structure Respelled (kept : Bool) (ts' ts : List Token) : Prop where
  wellFormed : wellFormed ts' = true
  same : kept = true → ts' = ts.map Token.repair
  kept_of_eq : ∀ x y, render ts' ++ x = render (ts.map Token.repair) ++ y → kept = true ∧ x = y

theorem wellFormed_repair (ts : List Token) : wellFormed (ts.map Token.repair) = true := by
  rw [wellFormed,List.all_map,List.all_eq_true]
  intro t _
  cases t with
  | punct b => rfl
  | str s => exact valid_coerce s

theorem Respelled.of_eq {ts ts' : List Token} (h : ts' = ts.map Token.repair) : Respelled true ts' ts :=
  ⟨h ▸ wellFormed_repair ts,fun _ => h,
    fun x y heq => ⟨rfl,by rwa [h,List.append_cancel_left_eq] at heq⟩⟩

theorem Respelled.append {k l : Bool} {ts ts' us us' : List Token} (h : Respelled k ts' ts)
    (g : Respelled l us' us) : Respelled (k && l) (ts' ++ us') (ts ++ us) := by
  refine ⟨?_,?_,?_⟩
  · rw [wellFormed_append,h.wellFormed,g.wellFormed]
    rfl
  · intro hkl
    rw [Bool.and_eq_true] at hkl
    rw [List.map_append,h.same hkl.1,g.same hkl.2]
  · intro x y heq
    simp only [List.map_append,render_append,List.append_assoc] at heq
    obtain ⟨hk,htail⟩ := h.kept_of_eq _ _ heq
    obtain ⟨hl,hxy⟩ := g.kept_of_eq _ _ htail
    exact ⟨by rw [hk,hl]; rfl,hxy⟩

theorem Respelled.punct {k : Bool} {ts ts' : List Token} (h : Respelled k ts' ts) (b : Bytes) :
    Respelled k (.punct b :: ts') (.punct b :: ts) :=
  have hb : Respelled true [.punct b] [.punct b] := .of_eq rfl
  hb.append h

theorem Respelled.render_iff {k : Bool} {ts ts' : List Token} (h : Respelled k ts' ts) :
    Spelling.raw.render ts' = Spelling.raw.render ts ↔ k = true := by
  have hfixed : ts'.map Token.repair = ts' := by
    refine (List.map_congr_left fun t ht => ?_).trans (List.map_id ts')
    have htv := List.all_eq_true.mp h.wellFormed t ht
    cases t with
    | punct b => rfl
    | str s => exact congrArg Token.str (coerce_of_valid htv)
  rw [Spelling.render_raw,Spelling.render_raw,hfixed]
  constructor
  · intro heq
    exact (h.kept_of_eq [] [] (by simpa using heq)).1
  · intro hk
    rw [h.same hk]

theorem map_repair_commaJoin (xs : List (List Token)) :
    (commaJoin xs).map Token.repair = commaJoin (xs.map (List.map Token.repair)) := by
  induction xs using commaJoin.induct with
  | case1 => rfl
  | case2 x => rfl
  | case3 x y xs ih =>
    simp only [commaJoin,List.map_append,List.map_cons] at ih ⊢
    rw [ih]
    rfl

section Plain

variable {α : Type*}

/-- Values without maps: what is read back is written like the raw text. -/
class Codec.Plain (c : Codec α) : Prop where
  tokens_reread : ∀ x, c.tokens (c.reread x) = (c.tokens x).map Token.repair

instance (f : α → Bytes) : (Codec.literal f).Plain := ⟨fun _ => rfl⟩

instance : Codec.text.Plain := ⟨fun _ => rfl⟩

instance (c : Codec α) [c.Plain] : c.list.Plain where
  tokens_reread xs := by
    have hitems : (xs.map c.reread).map c.tokens = (xs.map c.tokens).map (List.map Token.repair) := by
      simp only [List.map_map]
      exact List.map_congr_left fun x _ => Codec.Plain.tokens_reread x
    simp only [Codec.list,List.map_append,List.map_cons,map_repair_commaJoin,hitems]
    rfl

def Member.repair (m : Member) : Member := m.map (List.map Token.repair)

theorem map_repair_objectTokens (ms : List Member) :
    (objectTokens ms).map Token.repair = objectTokens (ms.map Member.repair) := by
  have hpresent : (ms.filterMap id).map (List.map Token.repair) = (ms.map Member.repair).filterMap id := by
    induction ms with
    | nil => rfl
    | cons m ms ih =>
      cases m with
      | none => exact ih
      | some ts => exact congrArg (ts.map Token.repair :: ·) ih
  simp only [objectTokens,List.map_append,List.map_cons,map_repair_commaJoin,hpresent]
  rfl

theorem field_reread (name : Bytes) (c : Codec α) [c.Plain] (x : α) :
    field name c (c.reread x) = (field name c x).repair := by
  rw [field,Codec.Plain.tokens_reread]
  rfl

theorem optional_reread (name : Bytes) (c : Codec α) [c.Plain] (x : Option α) :
    optional name c (x.map c.reread) = (optional name c x).repair := by
  cases x with
  | none => rfl
  | some y => exact field_reread name c y

theorem omitting_reread {skip : α → Bool} {c : Codec α} [c.Plain] {x : α} (h : skip (c.reread x) = skip x)
    (name : Bytes) : omitting skip name c (c.reread x) = (omitting skip name c x).repair := by
  rw [omitting,omitting,h]
  split
  · rfl
  · exact field_reread name c x

theorem omitting_literal_reread (skip : α → Bool) (name : Bytes) (f : α → Bytes) (x : α) :
    omitting skip name (.literal f) x = (omitting skip name (.literal f) x).repair :=
  omitting_reread (c := .literal f) rfl name

theorem omitting_text_reread (name x : Bytes) :
    omitting List.isEmpty name .text (Codec.text.reread x) =
      (omitting List.isEmpty name .text x).repair := by
  refine omitting_reread ?_ name
  rw [Bool.eq_iff_iff,List.isEmpty_iff,List.isEmpty_iff]
  exact coerce_eq_nil_iff x

theorem Codec.Plain.object {members : α → List Member} {reread : α → α}
    {fixed : ∀ x, (members x).all Member.ok = true → reread x = x}
    {shrinks : ∀ x, List.Forall₂ MemberShrinks (members (reread x)) (members x)}
    (h : ∀ x, members (reread x) = (members x).map Member.repair) :
    (Codec.object members reread fixed shrinks).Plain :=
  ⟨fun x => (congrArg objectTokens (h x)).trans (map_repair_objectTokens (members x)).symm⟩

end Plain

section Maps

variable {V : Type*}

/-- Repairing the keys, in the order they are written in, leaves them strictly increasing. -/
def keysKept (m : GoMap Bytes V) : Bool :=
  decide (((sortedEntries m).map fun e => coerce e.1).Pairwise (· < ·))

variable {c : Codec V}

theorem eq_of_coerce_eq {m : GoMap Bytes V} (h : keysKept m = true) {e e' : Entry V} (he : e ∈ m.entries)
    (he' : e' ∈ m.entries) (heq : coerce e.1 = coerce e'.1) : e = e' := by
  have hmem : ∀ e, e ∈ m.entries → e ∈ sortedEntries m := fun e =>
    (List.perm_insertionSort _ _).mem_iff.mpr
  have hnodup : ((sortedEntries m).map fun e => coerce e.1).Nodup := by
    refine (of_decide_eq_true h).imp fun {a b} hlt => ?_
    rintro rfl
    exact List.lt_irrefl a hlt
  exact List.inj_on_of_nodup_map hnodup (hmem e he) (hmem e' he') heq

theorem sortedEntries_rereadMap_iff (c : Codec V) (m : GoMap Bytes V) :
    sortedEntries (rereadMap c m) = (sortedEntries m).map (rereadEntry c) ↔ keysKept m = true := by
  constructor
  · intro h
    have hascend := sortedEntries_ascending (rereadMap c m)
    rw [h,List.pairwise_map] at hascend
    exact decide_eq_true (List.pairwise_map.mpr hascend)
  · intro h
    have hsurvive : m.entries.filter (survives m.entries) = m.entries := by
      refine List.filter_eq_self.mpr fun e he => List.all_eq_true.mpr fun e' he' => ?_
      by_cases heq : coerce e'.1 = coerce e.1
      · rw [eq_of_coerce_eq h he' he heq]
        simp
      · simp [heq]
    have hentries : (rereadMap c m).entries = m.entries.map (rereadEntry c) :=
      congrArg (List.map (rereadEntry c)) hsurvive
    have hperm : (sortedEntries (rereadMap c m)).Perm ((sortedEntries m).map (rereadEntry c)) := by
      refine (List.perm_insertionSort _ _).trans ?_
      rw [hentries]
      exact ((List.perm_insertionSort _ _).map _).symm
    have hascend : ((sortedEntries m).map (rereadEntry c)).Pairwise fun a b => a.1 < b.1 :=
      List.pairwise_map.mpr (List.pairwise_map.mp (of_decide_eq_true h))
    refine hperm.eq_of_pairwise ?_ (sortedEntries_ascending _) hascend
    intro a b _ _ hab hba
    exact absurd hba (List.lt_asymm hab)

theorem map_repair_mapTokens (c : Codec V) [c.Plain] (m : GoMap Bytes V) :
    (mapTokens c m).map Token.repair =
      .punct [0x7B] :: commaJoin (((sortedEntries m).map (rereadEntry c)).map (entryTokens c)) ++
        [.punct [0x7D]] := by
  have hentry : ∀ e : Entry V, (entryTokens c e).map Token.repair = entryTokens c (rereadEntry c e) := by
    intro e
    rw [entryTokens,entryTokens,rereadEntry,Codec.Plain.tokens_reread]
    rfl
  simp only [mapTokens,List.map_append,List.map_cons,map_repair_commaJoin,List.map_map,Function.comp_def,
    hentry]
  rfl

theorem mapTokens_respelled (c : Codec V) [c.Plain] {good : V → Prop} (hc : Delimited c good)
    (hgood : ∀ v, good (c.reread v)) (m : GoMap Bytes V) :
    Respelled (keysKept m) (mapTokens c (rereadMap c m)) (mapTokens c m) := by
  refine ⟨?_,?_,?_⟩
  · rw [wellFormed_mapTokens,rereadMap,List.all_map,List.all_eq_true]
    intro e _
    have hvalue : wellFormed (c.tokens (c.reread e.2)) = true := by
      rw [Codec.Plain.tokens_reread]
      exact wellFormed_repair _
    simp [entryTokens,rereadEntry,Token.valid,valid_coerce,hvalue]
  · intro h
    rw [map_repair_mapTokens,mapTokens,(sortedEntries_rereadMap_iff c m).mpr h]
  · intro x y h
    rw [map_repair_mapTokens,mapTokens,render_object,render_object,List.cons.injEq] at h
    have hread : ∀ e ∈ sortedEntries (rereadMap c m), good e.2 := by
      intro e he
      obtain ⟨e',-,rfl⟩ := List.mem_map.mp ((List.perm_insertionSort _ _).mem_iff.mp he)
      exact hgood e'.2
    obtain ⟨hes,hxy⟩ := entries_append_inj hc _ ((sortedEntries m).map (rereadEntry c)) hread
      (fun e he => by obtain ⟨e',-,rfl⟩ := List.mem_map.mp he; exact hgood e'.2)
      (fun e he => by obtain ⟨e',-,rfl⟩ := List.mem_map.mp he; exact valid_coerce e'.1) _ _ h.2
    exact ⟨(sortedEntries_rereadMap_iff c m).mp hes,hxy⟩

end Maps

section Objects

variable {α V : Type*} {k : Bool} {ms ms' : List Member}

inductive MembersRespelled : Bool → List Member → List Member → Prop
  | nil : MembersRespelled true [] []
  | omitted {k : Bool} {ms' ms : List Member} (h : MembersRespelled k ms' ms) :
      MembersRespelled k (none :: ms') (none :: ms)
  | written {j k : Bool} {ts' ts : List Token} {ms' ms : List Member} (hts : Respelled j ts' ts)
      (h : MembersRespelled k ms' ms) : MembersRespelled (j && k) (some ts' :: ms') (some ts :: ms)

theorem MembersRespelled.plain {m m' : Member} (hm : m' = m.repair) (h : MembersRespelled k ms' ms) :
    MembersRespelled k (m' :: ms') (m :: ms) := by
  subst hm
  cases m with
  | none => exact .omitted h
  | some ts => exact .written (.of_eq rfl) h

theorem MembersRespelled.field {j : Bool} {name : Bytes} {c : Codec α} {x : α}
    (hx : Respelled j (c.tokens (c.reread x)) (c.tokens x)) (h : MembersRespelled k ms' ms) :
    MembersRespelled (j && k) (field name c (c.reread x) :: ms') (field name c x :: ms) :=
  .written (hx.punct _) h

theorem MembersRespelled.omittingMap {name : Bytes} {c : Codec V} {m : GoMap Bytes V}
    (hm : Respelled (keysKept m) (mapTokens c (rereadMap c m)) (mapTokens c m))
    (h : MembersRespelled k ms' ms) :
    MembersRespelled (keysKept m && k) (omitting GoMap.isEmpty name c.map (c.map.reread m) :: ms')
      (omitting GoMap.isEmpty name c.map m :: ms) := by
  have hskip : (rereadMap c m).isEmpty = m.isEmpty := by
    rw [Bool.eq_iff_iff,GoMap.isEmpty,GoMap.isEmpty,List.isEmpty_iff,List.isEmpty_iff]
    exact rereadMap_eq_empty_iff c m
  have hread : c.map.reread m = rereadMap c m := rfl
  rw [omitting,omitting,hread,hskip]
  split
  · rename_i hempty
    have hkept : keysKept m = true := by
      rw [keysKept,sortedEntries,List.isEmpty_iff.mp hempty]
      rfl
    rw [hkept]
    exact .omitted h
  · exact .written (hm.punct _) h

theorem MembersRespelled.commaJoin (h : MembersRespelled k ms' ms) :
    Respelled k (commaJoin (ms'.filterMap id)) (commaJoin (ms.filterMap id)) ∧
      (ms'.filterMap id = [] ↔ ms.filterMap id = []) := by
  induction h with
  | nil => exact ⟨.of_eq rfl,Iff.rfl⟩
  | omitted h ih => exact ih
  | @written j k ts' ts ms' ms hts h ih =>
    obtain ⟨ih,hempty⟩ := ih
    refine ⟨?_,by simp⟩
    change Respelled (j && k) (Json.commaJoin (ts' :: ms'.filterMap id)) (Json.commaJoin (ts :: ms.filterMap id))
    cases hms : ms.filterMap id with
    | nil =>
      rw [hms,hempty.mpr hms] at ih
      rw [hempty.mpr hms]
      have happend := hts.append ih
      simpa [Json.commaJoin] using happend
    | cons m rest =>
      cases hms' : ms'.filterMap id with
      | nil => rw [hempty.mp hms'] at hms; cases hms
      | cons m' rest' =>
        rw [hms,hms'] at ih
        exact hts.append (ih.punct _)

theorem MembersRespelled.object (h : MembersRespelled k ms' ms) :
    Respelled k (objectTokens ms') (objectTokens ms) := by
  have hbrace : Respelled true [.punct [0x7D]] [.punct [0x7D]] := .of_eq rfl
  have hclosed := (h.commaJoin.1.punct [0x7B]).append hbrace
  rwa [Bool.and_true] at hclosed

end Objects
end Flowy.Json
