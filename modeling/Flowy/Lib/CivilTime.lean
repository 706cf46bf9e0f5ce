import Mathlib.Data.Nat.Digits.Lemmas
import Flowy.Lib.Scan

/-! Proleptic Gregorian dates of instants counted in nanoseconds from 1 January of year 1, and
their RFC 3339 spelling in UTC. -/
namespace Flowy.CivilTime

def nsPerDay : Int := 86400000000000

/-- Year, month and day of a day number counted from 1 January of year 1. The computation shifts
to years that start on 1 March, so that the leap day is the last day of a year. -/
def civil (day : Int) : Int × Int × Int :=
  let z := day + 306
  let era := z / 146097
  let doe := z % 146097
  let yoe := (doe - doe / 1460 + doe / 36524 - doe / 146096) / 365
  let doy := doe - (365 * yoe + yoe / 4 - yoe / 100)
  let mp := (5 * doy + 2) / 153
  let d := doy - (153 * mp + 2) / 5 + 1
  let m := if mp < 10 then mp + 3 else mp - 9
  (yoe + era * 400 + (if m ≤ 2 then 1 else 0),m,d)

def padded (width : Nat) (n : Int) : Bytes :=
  let digits := Json.natText n.toNat
  List.replicate (width - digits.length) 0x30 ++ digits

def fraction (ns : Int) : Bytes :=
  if ns = 0 then []
  else 0x2E :: ((padded 9 ns).reverse.dropWhile fun b => b == 0x30).reverse

/-- Layout `2006-01-02T15:04:05.999999999Z07:00` in UTC. -/
def rfc3339Nano (ns : Int) : Bytes :=
  let (y,m,d) := civil (ns / nsPerDay)
  let rest := ns % nsPerDay
  let secs := rest / 1000000000
  padded 4 y ++ [0x2D] ++ padded 2 m ++ [0x2D] ++ padded 2 d ++ [0x54] ++
    padded 2 (secs / 3600) ++ [0x3A] ++ padded 2 (secs / 60 % 60) ++ [0x3A] ++ padded 2 (secs % 60) ++
    fraction (rest % 1000000000) ++ [0x5A]

example : civil 0 = (1,1,1) := by decide
example : civil 738944 = (2024,2,29) := by decide
example : civil 3652058 = (9999,12,31) := by decide
example : civil (-366) = (0,1,1) := by decide

def days (date : Int × Int × Int) : Int :=
  let (y,m,d) := date
  let y := if m ≤ 2 then y - 1 else y
  let mp := if m ≤ 2 then m + 9 else m - 3
  y / 400 * 146097 + 365 * (y % 400) + y % 400 / 4 - y % 400 / 100 + (153 * mp + 2) / 5 + d - 1 - 306

/-- Days of an era without its leap days, up to a year's last: what the year is read off. -/
def flattened (doe : Nat) : Nat := doe - doe / 1460 + doe / 36524 - doe / 146096

def yearStart (yoe : Nat) : Nat := 365 * yoe + yoe / 4 - yoe / 100

theorem flattened_mono {a b : Nat} (h : a ≤ b) : flattened a ≤ flattened b := by
  induction b, h using Nat.le_induction with
  | base => exact Nat.le_refl _
  | succ b _ ih =>
    refine ih.trans ?_
    unfold flattened
    have hera : ∀ n : Nat, n / 146096 = n / 36524 / 4 := fun n => by omega
    rw [hera,hera]
    omega

theorem flattened_years : ∀ y : Fin 400, 365 * y.val ≤ flattened (yearStart y) ∧
    flattened (yearStart (y + 1) - 1) < 365 * (y.val + 1) := by
  decide +kernel

theorem yearStart_le {doe : Nat} (h : doe < 146097) :
    yearStart (flattened doe / 365) ≤ doe ∧ doe ≤ yearStart (flattened doe / 365) + 365 := by
  have hlt : flattened doe / 365 < 400 := by
    have := flattened_mono (show doe ≤ 146096 by omega)
    have hmax : flattened 146096 = 145999 := by decide
    omega
  generalize hy : flattened doe / 365 = y at *
  constructor
  · by_contra hno
    cases y with
    | zero => exact hno (Nat.zero_le _)
    | succ y =>
      have hlast := (flattened_years ⟨y,by omega⟩).2
      have hmono := flattened_mono (show doe ≤ yearStart (y + 1) - 1 by omega)
      simp only at hlast
      omega
  · by_contra hno
    rcases Nat.lt_or_ge (y + 1) 400 with hnext | hend
    · have hfirst := (flattened_years ⟨y + 1,hnext⟩).1
      have hlength : yearStart (y + 1) ≤ yearStart y + 366 := by
        unfold yearStart
        omega
      have hmono := flattened_mono (show yearStart (y + 1) ≤ doe by omega)
      simp only at hfirst
      omega
    · -- the era ends with a leap day
      have hlast : y = 399 := by omega
      subst hlast
      have hstart : yearStart 399 = 145731 := by decide
      omega

theorem yearOfEra {doe yoe : Int} (h0 : 0 ≤ doe) (h1 : doe < 146097)
    (hy : (doe - doe / 1460 + doe / 36524 - doe / 146096) / 365 = yoe) :
    0 ≤ yoe ∧ yoe < 400 ∧ 0 ≤ doe - (365 * yoe + yoe / 4 - yoe / 100) ∧
      doe - (365 * yoe + yoe / 4 - yoe / 100) ≤ 365 := by
  obtain ⟨n,rfl⟩ := Int.eq_ofNat_of_zero_le h0
  have hn : n < 146097 := by omega
  have hyear : yoe = (flattened n / 365 : Nat) := by
    unfold flattened
    omega
  obtain ⟨hstart,hend⟩ := yearStart_le hn
  have hlt : flattened n / 365 < 400 := by
    have := flattened_mono (show n ≤ 146096 by omega)
    have hmax : flattened 146096 = 145999 := by decide
    omega
  generalize flattened n / 365 = y at *
  unfold yearStart at hstart hend
  subst hyear
  omega

theorem civil_eq (day : Int) : ∃ era yoe doy : Int,
    day + 306 = 146097 * era + (365 * yoe + yoe / 4 - yoe / 100) + doy ∧ 0 ≤ yoe ∧ yoe < 400 ∧
      0 ≤ doy ∧ doy ≤ 365 ∧ civil day =
        let mp := (5 * doy + 2) / 153
        let m := if mp < 10 then mp + 3 else mp - 9
        (yoe + era * 400 + (if m ≤ 2 then 1 else 0),m,doy - (153 * mp + 2) / 5 + 1) := by
  obtain ⟨era,doe,hz,hdoe0,hdoe1⟩ : ∃ era doe : Int, day + 306 = 146097 * era + doe ∧ 0 ≤ doe ∧
      doe < 146097 := ⟨(day + 306) / 146097,(day + 306) % 146097,by omega,by omega,by omega⟩
  have hera : (day + 306) / 146097 = era := by omega
  have hrest : (day + 306) % 146097 = doe := by omega
  obtain ⟨hyoe0,hyoe1,hdoy0,hdoy1⟩ := yearOfEra hdoe0 hdoe1 rfl
  refine ⟨era,_,_,by omega,hyoe0,hyoe1,hdoy0,hdoy1,?_⟩
  unfold civil
  dsimp only
  rw [hera,hrest]

theorem days_civil (day : Int) : days (civil day) = day := by
  obtain ⟨era,yoe,doy,hday,hyoe0,hyoe1,hdoy0,hdoy1,hcivil⟩ := civil_eq day
  rw [hcivil]
  unfold days
  dsimp only
  generalize hmp : (5 * doy + 2) / 153 = mp
  have hmp0 : 0 ≤ mp := by omega
  have hmp1 : mp < 12 := by omega
  by_cases hm : mp < 10
  · rw [if_pos hm,if_neg (by omega),if_neg (by omega),if_neg (by omega)]
    have hy : (yoe + era * 400 + 0) / 400 = era := by omega
    have hy' : (yoe + era * 400 + 0) % 400 = yoe := by omega
    rw [hy,hy',show mp + 3 - 3 = mp by omega]
    omega
  · rw [if_neg hm,if_pos (by omega),if_pos (by omega),if_pos (by omega)]
    have hy : (yoe + era * 400 + 1 - 1) / 400 = era := by omega
    have hy' : (yoe + era * 400 + 1 - 1) % 400 = yoe := by omega
    rw [hy,hy',show mp - 9 + 9 = mp by omega]
    omega

theorem civil_range {day : Int} (h0 : -366 ≤ day) (h1 : day < 3652059) :
    (0 ≤ (civil day).1 ∧ (civil day).1 < 10000) ∧ (0 ≤ (civil day).2.1 ∧ (civil day).2.1 < 100) ∧
      0 ≤ (civil day).2.2 ∧ (civil day).2.2 < 100 := by
  obtain ⟨era,yoe,doy,hday,hyoe0,hyoe1,hdoy0,hdoy1,hcivil⟩ := civil_eq day
  rw [hcivil]
  dsimp only
  generalize hmp : (5 * doy + 2) / 153 = mp
  have hmp0 : 0 ≤ mp := by omega
  have hmp1 : mp < 12 := by omega
  -- January and February belong to the year after the one that started in March
  have hwinter : 10 ≤ mp ↔ 306 ≤ doy := by omega
  have hera : -1 ≤ era ∧ era ≤ 24 := by omega
  have hfirst : era = -1 ∨ 0 ≤ era := by omega
  have hlast : yoe = 399 ∨ yoe ≤ 398 := by omega
  by_cases hm : mp < 10
  · rw [if_pos hm,if_neg (by omega)]
    rcases hfirst with rfl | hfirst <;> rcases hlast with rfl | hlast <;> omega
  · rw [if_neg hm,if_pos (by omega)]
    rcases hfirst with rfl | hfirst <;> rcases hlast with rfl | hlast <;> omega

def readFraction (s : Bytes) : Option (Nat × Bytes) :=
  match Scan.expect 0x2E s with
  | none => some (0,s)
  | some s =>
    let (run,s) := Scan.upTo (fun b => !Scan.isDigit b) s
    if 0 < run.length ∧ run.length ≤ 9 then some (Scan.value run * 10 ^ (9 - run.length),s) else none

def readPart (width : Nat) (sep : UInt8) (s : Bytes) : Option (Nat × Bytes) := do
  let (n,s) ← Scan.digits width s
  let s ← Scan.expect sep s
  some (n,s)

/-- Reads `2006-01-02T`; a date is one if it is the date of its day. -/
def readDate (s : Bytes) : Option (Int × Bytes) := do
  let (y,s) ← readPart 4 0x2D s
  let (m,s) ← readPart 2 0x2D s
  let (d,s) ← readPart 2 0x54 s
  let day := days (y,m,d)
  if civil day = ((y : Int),(m : Int),(d : Int)) then some (day,s) else none

def readClock (s : Bytes) : Option (Int × Bytes) := do
  let (hour,s) ← readPart 2 0x3A s
  let (minute,s) ← readPart 2 0x3A s
  let (second,s) ← Scan.digits 2 s
  if hour < 24 ∧ minute < 60 ∧ second < 60 then some ((hour * 60 + minute) * 60 + second,s) else none

def parse (s : Bytes) : Option Int := do
  let (day,s) ← readDate s
  let (seconds,s) ← readClock s
  let (ns,s) ← readFraction s
  let s ← Scan.expect 0x5A s
  if s = [] then some (day * nsPerDay + seconds * 1000000000 + ns) else none

theorem length_padded {width : Nat} {n : Int} (hw : 0 < width) (h : n < 10 ^ width) :
    (padded width n).length = width := by
  have hlen : (Json.natText n.toNat).length ≤ width := by
    unfold Json.natText
    split
    · exact hw
    · rw [List.length_map,List.length_reverse,Nat.digits_length_le_iff (by decide)]
      zify
      omega
  simp only [padded,List.length_append,List.length_replicate]
  omega

theorem value_padded (width : Nat) {n : Int} (h : 0 ≤ n) : (Scan.value (padded width n) : Int) = n := by
  rw [padded,Scan.value_append,Scan.value_replicate_zero,Nat.mul_zero,Nat.zero_add,Scan.value_natText]
  exact Int.toNat_of_nonneg h

theorem isDigit_padded (width : Nat) (n : Int) : ∀ b ∈ padded width n, Scan.isDigit b = true := by
  intro b hb
  rcases List.mem_append.mp hb with hb | hb
  · rw [List.eq_of_mem_replicate hb]
    rfl
  · exact Scan.isDigit_natText _ b hb

theorem digits_padded {width : Nat} {n : Int} (hw : 0 < width) (h0 : 0 ≤ n) (h1 : n < 10 ^ width) (s : Bytes) :
    Scan.digits width (padded width n ++ s) = some (n.toNat,s) := by
  have hread := Scan.digits_append (isDigit_padded width n) s
  rw [length_padded hw h1] at hread
  rw [hread]
  have hv := value_padded width h0
  simp only [Option.some.injEq,Prod.mk.injEq,and_true]
  omega

theorem trimmed_append (s : Bytes) : ∃ k, s = (s.reverse.dropWhile fun b => b == 0x30).reverse ++
    List.replicate k 0x30 := by
  refine ⟨(s.reverse.takeWhile fun b => b == 0x30).length,?_⟩
  have hzeros : (s.reverse.takeWhile fun b => b == 0x30) =
      List.replicate (s.reverse.takeWhile fun b => b == 0x30).length 0x30 :=
    List.eq_replicate_of_mem fun b hb => beq_iff_eq.mp (List.all_eq_true.mp List.all_takeWhile b hb)
  have hsplit := List.takeWhile_append_dropWhile (p := fun b : UInt8 => b == 0x30) (l := s.reverse)
  rw [← List.reverse_replicate,← hzeros,← List.reverse_append,hsplit,List.reverse_reverse]

theorem readFraction_fraction {ns : Int} (h0 : 0 ≤ ns) (h1 : ns < 1000000000) (s : Bytes) :
    readFraction (fraction ns ++ 0x5A :: s) = some (ns.toNat,0x5A :: s) := by
  unfold fraction
  split
  · rename_i h
    rw [h]
    rfl
  · rename_i hne
    obtain ⟨k,hk⟩ := trimmed_append (padded 9 ns)
    generalize hrun : ((padded 9 ns).reverse.dropWhile fun b => b == 0x30).reverse = run at hk ⊢
    have hlen : run.length + k = 9 := by
      have := congrArg List.length hk
      rw [length_padded (by decide) (by omega),List.length_append,List.length_replicate] at this
      omega
    have hval : (Scan.value run * 10 ^ k : Nat) = ns.toNat := by
      have := value_padded 9 h0
      rw [hk,Scan.value_append,Scan.value_replicate_zero,List.length_replicate,Nat.add_zero,Nat.mul_comm] at this
      omega
    have hpos : 0 < run.length := by
      rw [List.length_pos_iff]
      rintro rfl
      rw [show Scan.value [] = 0 from rfl,Nat.zero_mul] at hval
      omega
    have hdigits : ∀ b ∈ run, (!Scan.isDigit b) = false := by
      intro b hb
      rw [isDigit_padded 9 ns b (by rw [hk]; exact List.mem_append_left _ hb)]
      rfl
    have hrest : Scan.upTo (fun b => !Scan.isDigit b) (run ++ 0x5A :: s) = (run,0x5A :: s) :=
      Scan.upTo_append hdigits rfl s
    rw [List.cons_append,readFraction,Scan.expect_cons]
    simp only [hrest]
    rw [if_pos ⟨hpos,by omega⟩,show 9 - run.length = k by omega,hval]

theorem readPart_padded {width : Nat} {n : Int} (hw : 0 < width) (h0 : 0 ≤ n) (h1 : n < 10 ^ width)
    (sep : UInt8) (s : Bytes) : readPart width sep (padded width n ++ sep :: s) = some (n.toNat,s) := by
  rw [readPart,digits_padded hw h0 h1]
  simp

theorem readDate_civil {day : Int} (h0 : -366 ≤ day) (h1 : day < 3652059) (s : Bytes) :
    readDate (padded 4 (civil day).1 ++ 0x2D :: (padded 2 (civil day).2.1 ++ 0x2D ::
      (padded 2 (civil day).2.2 ++ 0x54 :: s))) = some (day,s) := by
  obtain ⟨⟨hy0,hy1⟩,⟨hm0,hm1⟩,hd0,hd1⟩ := civil_range h0 h1
  have hdays := days_civil day
  rw [readDate,readPart_padded (by decide) hy0 hy1,Option.bind_eq_bind,Option.bind_some]
  dsimp only
  rw [readPart_padded (by decide) hm0 hm1,Option.bind_some]
  dsimp only
  rw [readPart_padded (by decide) hd0 hd1,Option.bind_some]
  dsimp only
  rw [Int.toNat_of_nonneg hy0,Int.toNat_of_nonneg hm0,Int.toNat_of_nonneg hd0,hdays,if_pos rfl]

theorem readClock_padded {seconds : Int} (h0 : 0 ≤ seconds) (h1 : seconds < 86400) (s : Bytes) :
    readClock (padded 2 (seconds / 3600) ++ 0x3A :: (padded 2 (seconds / 60 % 60) ++ 0x3A ::
      (padded 2 (seconds % 60) ++ s))) = some (seconds,s) := by
  rw [readClock,readPart_padded (by decide) (by omega) (by omega),Option.bind_eq_bind,Option.bind_some]
  dsimp only
  rw [readPart_padded (by decide) (by omega) (by omega),Option.bind_some]
  dsimp only
  rw [digits_padded (by decide) (by omega) (by omega),Option.bind_some]
  dsimp only
  rw [if_pos (by omega)]
  simp only [Option.some.injEq,Prod.mk.injEq,and_true]
  omega

theorem parse_rfc3339Nano {ns : Int} (h0 : -(366 * nsPerDay) ≤ ns) (h1 : ns < 3652059 * nsPerDay) :
    parse (rfc3339Nano ns) = some ns := by
  unfold parse rfc3339Nano nsPerDay at *
  have hdate := readDate_civil (show -366 ≤ ns / 86400000000000 by omega) (by omega)
  have hclock := readClock_padded (show 0 ≤ ns % 86400000000000 / 1000000000 by omega) (by omega)
  have hfraction := readFraction_fraction (show 0 ≤ ns % 86400000000000 % 1000000000 by omega) (by omega)
  simp only [List.append_assoc,List.cons_append,List.nil_append]
  rw [hdate,Option.bind_eq_bind,Option.bind_some]
  dsimp only
  rw [hclock,Option.bind_some]
  dsimp only
  rw [hfraction,Option.bind_eq_bind,Option.bind_some]
  dsimp only
  rw [Scan.expect_cons,Option.bind_eq_bind,Option.bind_some,if_pos rfl]
  congr 1
  omega

end Flowy.CivilTime
