import Mathlib.Data.List.Basic

/-! Byte strings read as UTF-8 the way Go reads them: a maximal run of well-formed runes, where
every byte that starts no rune stands for one U+FFFD. -/
namespace Flowy

abbrev Bytes := List UInt8

namespace Utf8

def cont (b : UInt8) : Bool := 0x80 ≤ b && b ≤ 0xBF

def lead2 (b0 : UInt8) : Bool := 0xC2 ≤ b0 && b0 ≤ 0xDF

/-- Three-byte leads; `E0` excludes overlong forms and `ED` excludes surrogates. -/
def lead3 (b0 b1 : UInt8) : Bool :=
  (b0 == 0xE0 && 0xA0 ≤ b1 && b1 ≤ 0xBF) || (b0 == 0xED && 0x80 ≤ b1 && b1 ≤ 0x9F) ||
    (((0xE1 ≤ b0 && b0 ≤ 0xEC) || b0 == 0xEE || b0 == 0xEF) && cont b1)

/-- Four-byte leads; `F0` excludes overlong forms and `F4` code points above U+10FFFF. -/
def lead4 (b0 b1 : UInt8) : Bool :=
  (b0 == 0xF0 && 0x90 ≤ b1 && b1 ≤ 0xBF) || (b0 == 0xF4 && 0x80 ≤ b1 && b1 ≤ 0x8F) ||
    ((0xF1 ≤ b0 && b0 ≤ 0xF3) && cont b1)

def runeLen : Bytes → Nat
  | [] => 0
  | b0 :: s1 =>
    if b0 < 0x80 then 1
    else match s1 with
    | [] => 0
    | b1 :: s2 =>
      if lead2 b0 && cont b1 then 2
      else match s2 with
      | [] => 0
      | b2 :: s3 =>
        if lead3 b0 b1 && cont b2 then 3
        else match s3 with
        | [] => 0
        | b3 :: _ => if lead4 b0 b1 && cont b2 && cont b3 then 4 else 0

def IsRune (r : Bytes) : Prop := r ≠ [] ∧ runeLen r = r.length

inductive Piece
  | rune (r : Bytes)
  | bad (b : UInt8)
deriving DecidableEq

def Piece.source : Piece → Bytes
  | .rune r => r
  | .bad b => [b]

def piecesFrom : Nat → Bytes → List Piece
  | _, [] => []
  | 0, b :: s =>
    match runeLen (b :: s) with
    | 0 => .bad b :: piecesFrom 0 s
    | n + 1 => .rune ((b :: s).take (n + 1)) :: piecesFrom n s
  | n + 1, _ :: s => piecesFrom n s

def pieces (s : Bytes) : List Piece := piecesFrom 0 s

def replacement : Bytes := [0xEF,0xBF,0xBD]

def Piece.isRune : Piece → Bool
  | .rune _ => true
  | .bad _ => false

def Piece.repair : Piece → Piece
  | .rune r => .rune r
  | .bad _ => .rune replacement

/-- `utf8.ValidString`. -/
def valid (s : Bytes) : Bool := (pieces s).all Piece.isRune

/-- `strings.ToValidUTF8` with one replacement for each ill-formed byte. -/
def coerce (s : Bytes) : Bytes := (pieces s).flatMap fun p => p.repair.source

theorem runeLen_le (s : Bytes) : runeLen s ≤ s.length := by
  unfold runeLen
  repeat' split
  all_goals simp

theorem runeLen_append (s t : Bytes) (h : 0 < runeLen s) : runeLen (s ++ t) = runeLen s := by
  rcases s with _ | ⟨b0,_ | ⟨b1,_ | ⟨b2,_ | ⟨b3,s⟩⟩⟩⟩ <;> simp only [runeLen] at h ⊢
  all_goals grind [runeLen]

theorem runeLen_take (s : Bytes) : runeLen (s.take (runeLen s)) = runeLen s := by
  rcases s with _ | ⟨b0,_ | ⟨b1,_ | ⟨b2,_ | ⟨b3,s⟩⟩⟩⟩ <;> grind [runeLen]

theorem piecesFrom_eq_drop (n : Nat) (s : Bytes) : piecesFrom n s = pieces (s.drop n) := by
  induction n generalizing s with
  | zero => rfl
  | succ n ih =>
    cases s with
    | nil => rfl
    | cons b s => simpa [piecesFrom] using ih s

theorem pieces_bad (b : UInt8) (s : Bytes) (h : runeLen (b :: s) = 0) :
    pieces (b :: s) = .bad b :: pieces s := by
  simp [pieces,piecesFrom,h]

theorem pieces_rune (r s : Bytes) (h : IsRune r) : pieces (r ++ s) = .rune r :: pieces s := by
  obtain ⟨hne,hlen⟩ := h
  obtain ⟨b,r,rfl⟩ := List.exists_cons_of_ne_nil hne
  have hrune : runeLen (b :: (r ++ s)) = r.length + 1 := by
    have hpos : 0 < runeLen (b :: r) := by simp [hlen]
    simpa [hlen] using runeLen_append (b :: r) s hpos
  simp only [pieces,List.cons_append,piecesFrom,hrune]
  rw [piecesFrom_eq_drop]
  simp [pieces]

theorem decode_induct {motive : Bytes → Prop} (nil : motive [])
    (bad : ∀ b s, runeLen (b :: s) = 0 → motive s → motive (b :: s))
    (rune : ∀ r s, IsRune r → motive s → motive (r ++ s)) (s : Bytes) : motive s := by
  induction hn : s.length using Nat.strongRecOn generalizing s with
  | ind n ih =>
    subst hn
    cases s with
    | nil => exact nil
    | cons b s =>
      by_cases h0 : runeLen (b :: s) = 0
      · exact bad b s h0 (ih s.length (by simp) s rfl)
      · have hle := runeLen_le (b :: s)
        have hrune : IsRune ((b :: s).take (runeLen (b :: s))) := by
          refine ⟨by simp [List.take_eq_nil_iff,h0],?_⟩
          rw [runeLen_take,List.length_take]
          omega
        rw [← List.take_append_drop (runeLen (b :: s)) (b :: s)]
        refine rune _ _ hrune (ih _ ?_ _ rfl)
        simp only [List.length_drop]
        omega

theorem source_pieces (s : Bytes) : (pieces s).flatMap Piece.source = s := by
  induction s using decode_induct with
  | nil => rfl
  | bad b s h ih => simp [pieces_bad b s h,Piece.source,ih]
  | rune r s h ih => simp [pieces_rune r s h,Piece.source,ih]

theorem isRune_of_mem_pieces {s r : Bytes} (h : Piece.rune r ∈ pieces s) : IsRune r := by
  induction s using decode_induct with
  | nil => simp [pieces,piecesFrom] at h
  | bad b s hb ih =>
    rw [pieces_bad b s hb] at h
    simpa using ih (by simpa using h)
  | rune r' s hr ih =>
    rw [pieces_rune r' s hr,List.mem_cons] at h
    rcases h with h | h
    · cases h
      exact hr
    · exact ih h

theorem pieces_runes (rs : List Bytes) (h : ∀ r ∈ rs, IsRune r) :
    pieces rs.flatten = rs.map .rune := by
  induction rs with
  | nil => rfl
  | cons r rs ih =>
    rw [List.flatten_cons,pieces_rune r _ (h r (by simp)),ih fun r' hr' => h r' (by simp [hr'])]
    rfl

theorem isRune_replacement : IsRune replacement := ⟨by decide,by decide⟩

theorem pieces_coerce (s : Bytes) : pieces (coerce s) = (pieces s).map Piece.repair := by
  have hflat : coerce s = ((pieces s).map fun p => p.repair.source).flatten := by
    simp [coerce,List.flatMap_def]
  have hrunes : ∀ r ∈ (pieces s).map (fun p => p.repair.source), IsRune r := by
    intro r hr
    obtain ⟨p,hp,rfl⟩ := List.mem_map.mp hr
    cases p with
    | rune r => exact isRune_of_mem_pieces hp
    | bad b => exact isRune_replacement
  rw [hflat,pieces_runes _ hrunes,List.map_map]
  refine List.map_congr_left fun p _ => ?_
  cases p <;> rfl

theorem valid_coerce (s : Bytes) : valid (coerce s) = true := by
  simp only [valid,pieces_coerce,List.all_map,List.all_eq_true]
  intro p _
  cases p <;> rfl

theorem coerce_of_valid {s : Bytes} (h : valid s = true) : coerce s = s := by
  have hmap : (pieces s).map (fun p => p.repair.source) = (pieces s).map Piece.source := by
    refine List.map_congr_left fun p hp => ?_
    have hp' := List.all_eq_true.mp h p hp
    cases p with
    | rune r => rfl
    | bad b => simp [Piece.isRune] at hp'
  rw [coerce,List.flatMap_def,hmap,← List.flatMap_def,source_pieces]

theorem valid_of_ascii {s : Bytes} (h : ∀ b ∈ s, b < 0x80) : valid s = true := by
  induction s with
  | nil => rfl
  | cons b s ih =>
    have hb : IsRune [b] := ⟨by simp,by simp [runeLen,h b (by simp)]⟩
    have hs := ih fun c hc => h c (by simp [hc])
    rw [valid] at hs ⊢
    rw [← List.singleton_append,pieces_rune [b] s hb,List.all_cons,hs]
    rfl

theorem coerce_eq_nil_iff (s : Bytes) : coerce s = [] ↔ s = [] := by
  constructor
  · intro h
    have hp : (pieces s).map Piece.repair = [] := by
      rw [← pieces_coerce,h]
      rfl
    rw [← source_pieces s,List.map_eq_nil_iff.mp hp]
    rfl
  · rintro rfl
    rfl

end Utf8
end Flowy
