import Mathlib.Data.Nat.Digits.Defs
import Mathlib.Tactic.IntervalCases
import Flowy.Lib.Utf8

/-! JSON text as `encoding/json` writes it: punctuation and quoted strings. The writer escapes a
few runes. For an ill-formed byte it has two spellings, which differ by version: the six bytes of
the escape for U+FFFD, or the three bytes of the character itself. -/
namespace Flowy.Json

open Utf8

def hexDigit (n : UInt8) : UInt8 := if n < 10 then 48 + n else 87 + n

def unhexDigit (b : UInt8) : UInt8 := if b < 58 then b - 48 else b - 87

/-- Control characters and the characters HTML escaping covers. -/
def escaped (b : UInt8) : Bool := b < 0x20 || b == 0x26 || b == 0x3C || b == 0x3E

/-- Two-character escapes: the byte and the letter after the backslash. -/
def shortEscapes : List (UInt8 × UInt8) :=
  [(0x22,0x22),(0x5C,0x5C),(0x08,0x62),(0x09,0x74),(0x0A,0x6E),(0x0C,0x66),(0x0D,0x72)]

def code : Bytes → Bytes
  | [b] =>
    match shortEscapes.lookup b with
    | some e => [0x5C,e]
    | none => if escaped b then [0x5C,0x75,0x30,0x30,hexDigit (b / 16),hexDigit (b % 16)] else [b]
  | r =>
    if r = [0xE2,0x80,0xA8] then [0x5C,0x75,0x32,0x30,0x32,0x38]
    else if r = [0xE2,0x80,0xA9] then [0x5C,0x75,0x32,0x30,0x32,0x39]
    else r

def uncode (s : Bytes) : Bytes :=
  if s = [0x5C,0x75,0x32,0x30,0x32,0x38] then [0xE2,0x80,0xA8]
  else if s = [0x5C,0x75,0x32,0x30,0x32,0x39] then [0xE2,0x80,0xA9]
  else match s with
    | [_,e] => ((shortEscapes.find? fun p => p.2 == e).map fun p => p.1).toList
    | [_,_,_,_,h,l] => [unhexDigit h * 16 + unhexDigit l]
    | _ => s

inductive Spelling
  | escape
  | raw
deriving DecidableEq, Repr

def Spelling.bad : Spelling → Bytes
  | .escape => [0x5C,0x75,0x66,0x66,0x66,0x64]
  | .raw => replacement

def Spelling.pieceCode (sp : Spelling) : Piece → Bytes
  | .rune r => code r
  | .bad _ => sp.bad

def Spelling.quote (sp : Spelling) (s : Bytes) : Bytes :=
  0x22 :: (pieces s).flatMap sp.pieceCode ++ [0x22]

-- The escape alone keeps an ill-formed text apart from every other one.
def pieceCode : Piece → Bytes := Spelling.escape.pieceCode

def quoteBody (s : Bytes) : Bytes := (pieces s).flatMap pieceCode

def quote (s : Bytes) : Bytes := 0x22 :: quoteBody s ++ [0x22]

def codeLen : Bytes → Nat
  | 0x5C :: 0x75 :: _ => 6
  | 0x5C :: _ => 2
  | s => runeLen s

theorem isRune_cases {r : Bytes} (h : IsRune r) :
    (∃ b, r = [b] ∧ b < 0x80) ∨ ∃ b0 b1 s, r = b0 :: b1 :: s ∧ 0x80 ≤ b0 := by
  obtain ⟨hne,hlen⟩ := h
  rcases r with _ | ⟨b0,_ | ⟨b1,s⟩⟩
  · exact absurd rfl hne
  · refine .inl ⟨b0,rfl,?_⟩
    by_contra hb
    simp [runeLen,hb] at hlen
  · refine .inr ⟨b0,b1,s,rfl,?_⟩
    by_contra hb
    have hlt : b0 < 0x80 := UInt8.not_le.mp hb
    simp [runeLen,hlt] at hlen

theorem forall_byte {p : UInt8 → Prop} (h : ∀ n : Fin 256, p (UInt8.ofNat n)) (b : UInt8) : p b := by
  simpa using h ⟨b.toNat,b.toNat_lt⟩

theorem uncode_short (b e : UInt8) (h : shortEscapes.lookup b = some e) :
    e ≠ 0x75 ∧ uncode [0x5C,e] = [b] := by
  refine forall_byte (p := fun b => ∀ e ∈ shortEscapes.lookup b, e ≠ 0x75 ∧ uncode [0x5C,e] = [b])
    ?_ b e h
  decide +kernel

theorem unhex_hex (b : UInt8) (h : escaped b = true) :
    unhexDigit (hexDigit (b / 16)) * 16 + unhexDigit (hexDigit (b % 16)) = b := by
  refine forall_byte (p := fun b => escaped b = true →
    unhexDigit (hexDigit (b / 16)) * 16 + unhexDigit (hexDigit (b % 16)) = b) ?_ b h
  decide +kernel

theorem plain_of_no_short (b : UInt8) (h : shortEscapes.lookup b = none) : b ≠ 0x5C ∧ b ≠ 0x22 := by
  refine ⟨?_,?_⟩ <;> rintro rfl <;> exact absurd h (by decide)

theorem code_cases {r : Bytes} (h : IsRune r) :
    (∃ e, code r = [0x5C,e] ∧ e ≠ 0x75 ∧ uncode (code r) = r) ∨
    (∃ s, code r = 0x5C :: 0x75 :: s ∧ s.length = 4 ∧ uncode (code r) = r) ∨
    (code r = r ∧ r.head? ≠ some 0x5C ∧ r.head? ≠ some 0x22) := by
  rcases isRune_cases h with ⟨b,rfl,hb⟩ | ⟨b0,b1,s,rfl,hb⟩
  · simp only [code]
    split
    · rename_i e he
      exact .inl ⟨e,rfl,uncode_short b e he⟩
    · rename_i hnone
      split
      · rename_i hesc
        exact .inr (.inl ⟨_,rfl,rfl,by simp [uncode,unhex_hex b hesc]⟩)
      · exact .inr (.inr ⟨rfl,by simpa using plain_of_no_short b hnone⟩)
  · simp only [code]
    split
    · rename_i heq
      rw [heq]
      exact .inr (.inl ⟨_,rfl,rfl,by decide⟩)
    split
    · rename_i heq
      rw [heq]
      exact .inr (.inl ⟨_,rfl,rfl,by decide⟩)
    · refine .inr (.inr ⟨rfl,?_,?_⟩)
      all_goals
        simp only [List.head?_cons,ne_eq,Option.some.injEq]
        rintro rfl
        exact absurd hb (by decide)

theorem codeLen_of_head {s : Bytes} (h : s.head? ≠ some 0x5C) : codeLen s = runeLen s := by
  unfold codeLen
  split <;> simp_all

/-- Spellings form a prefix code: their length can be read off any text they start. -/
theorem codeLen_code {r : Bytes} (h : IsRune r) (s : Bytes) :
    codeLen (code r ++ s) = (code r).length := by
  rcases code_cases h with ⟨e,hc,he,-⟩ | ⟨t,hc,ht,-⟩ | ⟨hc,hb,-⟩
  · rw [hc]
    unfold codeLen
    split
    · simp_all
    · rfl
    · simp_all
  · simp [hc,codeLen,ht]
  · have hpos : 0 < runeLen r := by
      rw [h.2]
      exact List.length_pos_iff.mpr h.1
    rw [hc,codeLen_of_head,runeLen_append r s hpos,h.2]
    obtain ⟨b,t,rfl⟩ := List.exists_cons_of_ne_nil h.1
    simpa using hb

theorem code_invert {r : Bytes} (h : IsRune r) :
    ((code r).head? = some 0x5C ∧ uncode (code r) = r) ∨
      ((code r).head? ≠ some 0x5C ∧ code r = r) := by
  rcases code_cases h with ⟨e,hc,-,hr⟩ | ⟨t,hc,-,hr⟩ | ⟨hc,hb,-⟩
  · exact .inl ⟨by simp [hc],hr⟩
  · exact .inl ⟨by simp [hc],hr⟩
  · exact .inr ⟨by rwa [hc],hc⟩

theorem code_injective {r r' : Bytes} (h : IsRune r) (h' : IsRune r') (he : code r = code r') :
    r = r' := by
  rcases code_invert h with ⟨hb,hr⟩ | ⟨hb,hr⟩ <;> rcases code_invert h' with ⟨hb',hr'⟩ | ⟨hb',hr'⟩
  · rw [← hr,he,hr']
  · exact absurd (he ▸ hb) hb'
  · exact absurd (he ▸ hb') hb
  · rw [← hr,he,hr']

theorem code_head {r : Bytes} (h : IsRune r) : ∃ b s, code r = b :: s ∧ b ≠ 0x22 := by
  rcases code_cases h with ⟨e,hc,-,-⟩ | ⟨t,hc,-,-⟩ | ⟨hc,-,hq⟩
  · exact ⟨_,_,hc,by decide⟩
  · exact ⟨_,_,hc,by decide⟩
  · obtain ⟨b,s,rfl⟩ := List.exists_cons_of_ne_nil h.1
    exact ⟨b,s,hc,by simpa using hq⟩

theorem code_ne_bad {r : Bytes} (h : IsRune r) (b : UInt8) : pieceCode (.bad b) ≠ code r := by
  intro he
  rcases code_invert h with ⟨-,hr⟩ | ⟨hb,-⟩
  · rw [← he] at hr
    have hlen := h.2
    rw [← hr,show pieceCode (.bad b) = [0x5C,0x75,0x66,0x66,0x66,0x64] from rfl] at hlen
    exact absurd hlen (by decide)
  · rw [← he] at hb
    exact hb rfl

theorem codeLen_pieceCode {p : Piece} (h : ∀ r, p = .rune r → IsRune r) (s : Bytes) :
    codeLen (pieceCode p ++ s) = (pieceCode p).length := by
  cases p with
  | rune r => exact codeLen_code (h r rfl) s
  | bad b => rfl

theorem pieceCode_head {p : Piece} (h : ∀ r, p = .rune r → IsRune r) :
    ∃ b s, pieceCode p = b :: s ∧ b ≠ 0x22 := by
  cases p with
  | rune r => exact code_head (h r rfl)
  | bad b => exact ⟨_,_,rfl,by decide⟩

theorem codes_append_inj (ps : List Piece) (rs : List Bytes) (hps : ∀ r, .rune r ∈ ps → IsRune r)
    (hrs : ∀ r ∈ rs, IsRune r) (x y : Bytes)
    (h : ps.flatMap pieceCode ++ 0x22 :: x = rs.flatMap code ++ 0x22 :: y) :
    ps = rs.map .rune ∧ x = y := by
  induction ps generalizing rs with
  | nil =>
    cases rs with
    | nil => simpa using h
    | cons r rs =>
      obtain ⟨b,s,hc,hb⟩ := code_head (hrs r (by simp))
      simp only [List.flatMap_nil,List.nil_append,List.flatMap_cons,hc,List.cons_append,
        List.cons.injEq] at h
      exact absurd h.1.symm hb
  | cons p ps ih =>
    have hp : ∀ r, p = .rune r → IsRune r := fun r hr => hps r (by simp [hr])
    cases rs with
    | nil =>
      obtain ⟨b,s,hc,hb⟩ := pieceCode_head hp
      simp only [List.flatMap_nil,List.nil_append,List.flatMap_cons,hc,List.cons_append,
        List.cons.injEq] at h
      exact absurd h.1 hb
    | cons r rs =>
      have hr := hrs r (by simp)
      simp only [List.flatMap_cons,List.append_assoc] at h
      have hlen : (pieceCode p).length = (code r).length := by
        rw [← codeLen_pieceCode hp (ps.flatMap pieceCode ++ 0x22 :: x),h,codeLen_code hr]
      obtain ⟨hcode,htail⟩ := List.append_inj h hlen
      obtain ⟨htl,hxy⟩ := ih rs (fun q hq => hps q (by simp [hq])) (fun q hq => hrs q (by simp [hq])) htail
      refine ⟨?_,hxy⟩
      rw [htl,List.map_cons]
      cases p with
      | rune q => rw [code_injective (hp q rfl) hr hcode]
      | bad b => exact absurd hcode (code_ne_bad hr b)

theorem exists_runes {s : Bytes} (h : valid s = true) :
    ∃ rs : List Bytes, (∀ r ∈ rs, IsRune r) ∧ s = rs.flatten ∧ quoteBody s = rs.flatMap code := by
  have hp : pieces s = ((pieces s).map Piece.source).map Piece.rune := by
    rw [List.map_map]
    refine (List.map_id _).symm.trans (List.map_congr_left fun p hp => ?_)
    have hr := List.all_eq_true.mp h p hp
    cases p with
    | rune r => rfl
    | bad b => simp [Piece.isRune] at hr
  refine ⟨(pieces s).map Piece.source,?_,?_,?_⟩
  · intro r hr
    refine isRune_of_mem_pieces (s := s) ?_
    rw [hp]
    exact List.mem_map_of_mem hr
  · rw [← List.flatMap_def,source_pieces]
  · rw [quoteBody,hp,List.flatMap_map]
    simp [pieceCode,Spelling.pieceCode,Piece.source,Function.comp_def,List.flatMap_map]

/-- Quoting loses nothing of a well-formed text, whatever follows: no other text is quoted like it. -/
theorem quote_append_inj {s t : Bytes} (ht : valid t = true) (x y : Bytes)
    (h : quote s ++ x = quote t ++ y) : s = t ∧ x = y := by
  obtain ⟨rs,hrs,rfl,hqt⟩ := exists_runes ht
  simp only [quote,hqt,List.cons_append,List.append_assoc,List.cons.injEq,true_and] at h
  obtain ⟨hp,hxy⟩ := codes_append_inj (pieces s) rs (fun _ => isRune_of_mem_pieces) hrs x y h
  refine ⟨?_,hxy⟩
  rw [← source_pieces s,hp,List.flatMap_map]
  simp [Piece.source,List.flatMap_def]

theorem length_pieceCode_bad (b : UInt8) :
    (pieceCode (Piece.bad b).repair).length < (pieceCode (.bad b)).length := by
  change (code replacement).length < 6
  decide

theorem length_pieceCode_repair (p : Piece) : (pieceCode p.repair).length ≤ (pieceCode p).length := by
  cases p with
  | rune r => exact Nat.le_refl _
  | bad b => exact Nat.le_of_lt (length_pieceCode_bad b)

theorem quoteBody_coerce (s : Bytes) :
    quoteBody (coerce s) = (pieces s).flatMap fun p => pieceCode p.repair := by
  rw [quoteBody,pieces_coerce,List.flatMap_map]

/-- The raw spelling of a text is the spelling of its repaired text. -/
theorem Spelling.quote_raw (s : Bytes) : Spelling.raw.quote s = Json.quote (coerce s) := by
  have hpiece : Spelling.raw.pieceCode = fun p => Json.pieceCode p.repair := by
    funext p
    cases p with
    | rune r => rfl
    | bad b => exact (show code replacement = replacement by decide).symm
  rw [Spelling.quote,Json.quote,quoteBody_coerce,hpiece]

private theorem length_flatMap_lt {α : Type*} (f g : α → Bytes) (hle : ∀ a, (f a).length ≤ (g a).length)
    (xs : List α) : (xs.flatMap f).length ≤ (xs.flatMap g).length ∧
      ((∃ a ∈ xs, (f a).length < (g a).length) → (xs.flatMap f).length < (xs.flatMap g).length) := by
  induction xs with
  | nil => simp
  | cons a xs ih =>
    have ha := hle a
    simp only [List.flatMap_cons,List.length_append,List.mem_cons,exists_eq_or_imp]
    refine ⟨by omega,?_⟩
    rintro (h | h)
    · omega
    · have := ih.2 h
      omega

theorem length_quote_coerce_le (s : Bytes) : (quote (coerce s)).length ≤ (quote s).length := by
  have h := (length_flatMap_lt (fun p => pieceCode p.repair) pieceCode length_pieceCode_repair
    (pieces s)).1
  simp only [quote,quoteBody_coerce,List.length_append,List.length_cons]
  simpa [quoteBody] using h

theorem length_quote_coerce_lt {s : Bytes} (hs : valid s = false) :
    (quote (coerce s)).length < (quote s).length := by
  have hbad : ∃ p ∈ pieces s, (pieceCode p.repair).length < (pieceCode p).length := by
    simp only [valid,List.all_eq_false] at hs
    obtain ⟨p,hp,hr⟩ := hs
    refine ⟨p,hp,?_⟩
    cases p with
    | rune r => simp [Piece.isRune] at hr
    | bad b => exact length_pieceCode_bad b
  have h := (length_flatMap_lt (fun p => pieceCode p.repair) pieceCode length_pieceCode_repair
    (pieces s)).2 hbad
  simp only [quote,quoteBody_coerce,List.length_append,List.length_cons]
  simpa [quoteBody] using h

def natText (n : Nat) : Bytes :=
  if n = 0 then [0x30] else ((Nat.digits 10 n).reverse.map fun d => 0x30 + UInt8.ofNat d)

theorem natText_digits (n : Nat) : ∀ b ∈ natText n, 0x30 ≤ b ∧ b ≤ 0x39 := by
  intro b hb
  unfold natText at hb
  split at hb
  · rw [List.mem_singleton.mp hb]
    decide
  · obtain ⟨d,hd,rfl⟩ := List.mem_map.mp hb
    have hlt : d < 10 := Nat.digits_lt_base (by decide) (List.mem_reverse.mp hd)
    interval_cases d <;> decide

theorem natText_ne_nil (n : Nat) : natText n ≠ [] := by
  unfold natText
  split
  · simp
  · simpa using Nat.digits_ne_nil_iff_ne_zero.mpr ‹_›

theorem natText_injective {m n : Nat} (h : natText m = natText n) : m = n := by
  have hdigit : ∀ k, ∀ d ∈ (Nat.digits 10 k).reverse, d < 10 := fun k d hd =>
    Nat.digits_lt_base (by decide) (List.mem_reverse.mp hd)
  have hval : ∀ k, ((natText k).map fun b => (b - 0x30).toNat).reverse =
      if k = 0 then [0] else Nat.digits 10 k := by
    intro k
    unfold natText
    split
    · decide
    · rw [List.map_map,← List.reverse_inj,List.reverse_reverse]
      refine (List.map_congr_left fun d hd => ?_).trans (List.map_id _)
      have hlt := hdigit k d hd
      simp only [Function.comp_apply,id_eq]
      interval_cases d <;> decide
  have hmn := hval m
  rw [h,hval n] at hmn
  split at hmn <;> split at hmn
  · omega
  · have := congrArg (Nat.ofDigits 10) hmn
    simp [Nat.ofDigits_digits] at this
    omega
  · have := congrArg (Nat.ofDigits 10) hmn
    simp [Nat.ofDigits_digits] at this
    omega
  · exact (Nat.digits_inj_iff.mp hmn).symm

theorem append_stop_inj {p : UInt8 → Prop} {s t : Bytes} (hs : ∀ b ∈ s, p b) (ht : ∀ b ∈ t, p b)
    {b c : UInt8} (hb : ¬p b) (hc : ¬p c) (x y : Bytes) (h : s ++ b :: x = t ++ c :: y) :
    s = t ∧ b = c ∧ x = y := by
  induction s generalizing t with
  | nil =>
    cases t with
    | nil => simpa using h
    | cons a t =>
      simp only [List.nil_append,List.cons_append,List.cons.injEq] at h
      exact absurd (ht a (by simp)) (h.1 ▸ hb)
  | cons a s ih =>
    cases t with
    | nil =>
      simp only [List.nil_append,List.cons_append,List.cons.injEq] at h
      exact absurd (hs a (by simp)) (h.1 ▸ hc)
    | cons d t =>
      simp only [List.cons_append,List.cons.injEq] at h
      obtain ⟨rfl,hbc⟩ := ih (fun q hq => hs q (by simp [hq])) (fun q hq => ht q (by simp [hq])) h.2
      exact ⟨by rw [h.1],hbc⟩

theorem append_sep_inj {c : UInt8} {s t : Bytes} (hs : ∀ b ∈ s, b ≠ c) (ht : ∀ b ∈ t, b ≠ c)
    (x y : Bytes) (h : s ++ c :: x = t ++ c :: y) : s = t ∧ x = y := by
  obtain ⟨hst,-,hxy⟩ := append_stop_inj hs ht (not_not.mpr rfl) (not_not.mpr rfl) x y h
  exact ⟨hst,hxy⟩

inductive Scalar
  | text (s : Bytes)
  | nat (n : Nat)
deriving DecidableEq

def Scalar.render : Scalar → Bytes
  | .text s => quote s
  | .nat n => natText n

def Scalar.valid : Scalar → Bool
  | .text s => Utf8.valid s
  | .nat _ => true

def scalars : List Scalar → Bytes
  | [] => [0x5D]
  | [x] => x.render ++ [0x5D]
  | x :: y :: rest => x.render ++ 0x2C :: scalars (y :: rest)

def scalarArray (xs : List Scalar) : Bytes := 0x5B :: scalars xs

theorem Scalar.render_append_inj {x y : Scalar} (hx : x.valid = true) (hy : y.valid = true)
    {b c : UInt8} (hb : ¬(0x30 ≤ b ∧ b ≤ 0x39)) (hc : ¬(0x30 ≤ c ∧ c ≤ 0x39)) (s t : Bytes)
    (h : x.render ++ b :: s = y.render ++ c :: t) : x = y ∧ b = c ∧ s = t := by
  -- a quoted text and a number differ in their first byte
  have hne : ∀ (q : Bytes) (n : Nat) (u v : Bytes), quote q ++ u ≠ natText n ++ v := by
    intro q n u v he
    have hdigits := natText_digits n
    cases hn : natText n with
    | nil => exact natText_ne_nil n hn
    | cons d ds =>
      simp only [hn,quote,List.cons_append,List.cons.injEq] at he
      exact absurd (hdigits d (by simp [hn])).1 (he.1 ▸ by decide)
  cases x with
  | text p =>
    cases y with
    | text q =>
      obtain ⟨rfl,hst⟩ := quote_append_inj hy _ _ h
      simpa using hst
    | nat n => exact absurd h (hne p n _ _)
  | nat m =>
    cases y with
    | text q => exact absurd h.symm (hne q m _ _)
    | nat n =>
      obtain ⟨hmn,hbc⟩ := append_stop_inj (natText_digits m) (natText_digits n) hb hc s t h
      exact ⟨by rw [natText_injective hmn],hbc⟩

theorem Scalar.render_ne_bracket {x : Scalar} (s : Bytes) : x.render ++ s ≠ [0x5D] := by
  intro h
  cases x with
  | text q => simp [Scalar.render,quote] at h
  | nat n =>
    cases hn : natText n with
    | nil => exact natText_ne_nil n hn
    | cons d ds =>
      simp only [Scalar.render,hn,List.cons_append,List.cons.injEq] at h
      exact absurd (natText_digits n d (by simp [hn])).2 (h.1 ▸ by decide)

theorem scalars_injective {xs ys : List Scalar} (hxs : xs.all Scalar.valid = true)
    (hys : ys.all Scalar.valid = true) (h : scalars xs = scalars ys) : xs = ys := by
  have hcomma : ¬((0x30 : UInt8) ≤ 0x2C ∧ (0x2C : UInt8) ≤ 0x39) := by decide
  have hclose : ¬((0x30 : UInt8) ≤ 0x5D ∧ (0x5D : UInt8) ≤ 0x39) := by decide
  induction xs using scalars.induct generalizing ys with
  | case1 =>
    match ys with
    | [] => rfl
    | [y] => exact absurd h.symm (Scalar.render_ne_bracket _)
    | y :: z :: rest => exact absurd h.symm (Scalar.render_ne_bracket _)
  | case2 x =>
    match ys with
    | [] => exact absurd h (Scalar.render_ne_bracket _)
    | [y] =>
      simp only [List.all_cons,List.all_nil,Bool.and_true] at hxs hys
      rw [(Scalar.render_append_inj hxs hys hclose hclose _ _ h).1]
    | y :: z :: rest =>
      simp only [List.all_cons,Bool.and_eq_true] at hxs hys
      exact absurd (Scalar.render_append_inj hxs.1 hys.1 hclose hcomma _ _ h).2.1 (by decide)
  | case3 x x' rest ih =>
    match ys with
    | [] => exact absurd h (Scalar.render_ne_bracket _)
    | [y] =>
      simp only [List.all_cons,Bool.and_eq_true] at hxs hys
      exact absurd (Scalar.render_append_inj hxs.1 hys.1 hcomma hclose _ _ h).2.1 (by decide)
    | y :: z :: rest' =>
      rw [List.all_cons,Bool.and_eq_true] at hxs hys
      obtain ⟨rfl,-,htail⟩ := Scalar.render_append_inj hxs.1 hys.1 hcomma hcomma _ _ h
      rw [ih hxs.2 hys.2 htail]

theorem scalarArray_injective {xs ys : List Scalar} (hxs : xs.all Scalar.valid = true)
    (hys : ys.all Scalar.valid = true) (h : scalarArray xs = scalarArray ys) : xs = ys :=
  scalars_injective hxs hys (List.cons.inj h).2

def scalarsThen (xs : List Scalar) (tail : Bytes) : Bytes := xs.foldr (fun x rest => x.render ++ 0x2C :: rest) tail

theorem scalarsThen_inj {xs ys : List Scalar} {s t : Bytes} (hlen : xs.length = ys.length)
    (hxs : xs.all Scalar.valid = true) (hys : ys.all Scalar.valid = true)
    (h : scalarsThen xs s = scalarsThen ys t) : xs = ys ∧ s = t := by
  have hcomma : ¬((0x30 : UInt8) ≤ 0x2C ∧ (0x2C : UInt8) ≤ 0x39) := by decide
  induction xs generalizing ys with
  | nil =>
    obtain rfl := List.length_eq_zero_iff.mp hlen.symm
    exact ⟨rfl,h⟩
  | cons x xs ih =>
    match ys with
    | [] => cases hlen
    | y :: ys =>
      rw [List.all_cons,Bool.and_eq_true] at hxs hys
      obtain ⟨rfl,-,htail⟩ := Scalar.render_append_inj hxs.1 hys.1 hcomma hcomma _ _ h
      obtain ⟨rfl,hst⟩ := ih (Nat.succ.inj hlen) hxs.2 hys.2 htail
      exact ⟨rfl,hst⟩

inductive Token
  | punct (b : Bytes)
  | str (s : Bytes)
deriving DecidableEq

def Token.render : Token → Bytes
  | .punct b => b
  | .str s => quote s

def Token.valid : Token → Bool
  | .punct _ => true
  | .str s => Utf8.valid s

def Token.repair : Token → Token
  | .punct b => .punct b
  | .str s => .str (coerce s)

def render (ts : List Token) : Bytes := ts.flatMap Token.render

def Spelling.render (sp : Spelling) (ts : List Token) : Bytes := ts.flatMap fun
  | .punct b => b
  | .str s => sp.quote s

def wellFormed (ts : List Token) : Bool := ts.all Token.valid

@[simp] theorem render_append (ts us : List Token) : render (ts ++ us) = render ts ++ render us := by
  simp [render]

theorem Spelling.render_escape (ts : List Token) : Spelling.escape.render ts = Json.render ts :=
  List.flatMap_congr fun t _ => by cases t <;> rfl

theorem Spelling.render_raw (ts : List Token) :
    Spelling.raw.render ts = Json.render (ts.map Token.repair) := by
  rw [Spelling.render,Json.render,List.flatMap_map]
  refine List.flatMap_congr fun t _ => ?_
  cases t with
  | punct b => rfl
  | str s => exact Spelling.quote_raw s

@[simp] theorem wellFormed_append (ts us : List Token) :
    wellFormed (ts ++ us) = (wellFormed ts && wellFormed us) := by
  simp [wellFormed]

end Flowy.Json
