import Flowy.Lib.Json

/-! Reading back what was written: single bytes, decimal numbers, runs of bytes, and objects whose
members are plain values. Each reader returns what it read and the rest of the text. -/
namespace Flowy.Scan

open Json

def expect (b : UInt8) : Bytes → Option Bytes
  | [] => none
  | c :: s => if c = b then some s else none

@[simp] theorem expect_cons (b : UInt8) (s : Bytes) : expect b (b :: s) = some s := by
  simp [expect]

def isDigit (b : UInt8) : Bool := 0x30 ≤ b && b ≤ 0x39

def value (s : Bytes) : Nat := s.foldl (fun n b => 10 * n + (b - 0x30).toNat) 0

theorem foldl_value (s : Bytes) (n : Nat) :
    s.foldl (fun n b => 10 * n + (b - 0x30).toNat) n = 10 ^ s.length * n + value s := by
  induction s generalizing n with
  | nil => simp [value]
  | cons b s ih =>
    rw [value,List.foldl_cons,List.foldl_cons,ih,ih,List.length_cons,Nat.pow_succ]
    ring

theorem value_append (s t : Bytes) : value (s ++ t) = 10 ^ t.length * value s + value t := by
  rw [value,List.foldl_append,foldl_value]
  rfl

@[simp] theorem value_replicate_zero (n : Nat) : value (List.replicate n 0x30) = 0 := by
  induction n with
  | zero => rfl
  | succ n ih =>
    rw [List.replicate_succ,value,List.foldl_cons,foldl_value,ih]
    rfl

theorem value_natText (n : Nat) : value (natText n) = n := by
  unfold natText
  split
  · rename_i h
    rw [h]
    rfl
  · have hdigits : ∀ ds : List Nat, (∀ d ∈ ds, d < 10) →
        value (ds.reverse.map fun d => 0x30 + UInt8.ofNat d) = Nat.ofDigits 10 ds := by
      intro ds
      induction ds with
      | nil => simp [value]
      | cons d ds ih =>
        intro h
        have hd : d < 10 := h d List.mem_cons_self
        have hlast : value [0x30 + UInt8.ofNat d] = d := by interval_cases d <;> rfl
        rw [List.reverse_cons,List.map_append,List.map_singleton,value_append,hlast,
          ih fun x hx => h x (List.mem_cons_of_mem _ hx),Nat.ofDigits_cons]
        simp [Nat.add_comm]
    rw [hdigits _ fun d hd => Nat.digits_lt_base (by decide) hd,Nat.ofDigits_digits]

theorem isDigit_natText (n : Nat) : ∀ b ∈ natText n, isDigit b = true := by
  intro b hb
  simpa [isDigit] using natText_digits n b hb

def digits (n : Nat) (s : Bytes) : Option (Nat × Bytes) :=
  if (s.take n).length = n ∧ (s.take n).all isDigit then some (value (s.take n),s.drop n) else none

theorem digits_append {s : Bytes} (h : ∀ b ∈ s, isDigit b = true) (t : Bytes) :
    digits s.length (s ++ t) = some (value s,t) := by
  have hall : s.all isDigit = true := List.all_eq_true.mpr h
  simp [digits,hall]

def upTo (stop : UInt8 → Bool) (s : Bytes) : Bytes × Bytes :=
  (s.takeWhile fun b => !stop b,s.dropWhile fun b => !stop b)

theorem upTo_append {stop : UInt8 → Bool} {s : Bytes} (h : ∀ b ∈ s, stop b = false) {c : UInt8}
    (hc : stop c = true) (t : Bytes) : upTo stop (s ++ c :: t) = (s,c :: t) := by
  have hs : ∀ b ∈ s, (!stop b) = true := fun b hb => by rw [h b hb]; rfl
  rw [upTo,List.takeWhile_append_of_pos hs,List.dropWhile_append_of_pos hs]
  simp [hc]

/-- A member of a flat object: its name, and the text of its value. -/
abbrev Member := Bytes × Bytes

def endsName (b : UInt8) : Bool := b == 0x22
def endsValue (b : UInt8) : Bool := b == 0x2C || b == 0x7D

def Member.plain (m : Member) : Bool := m.1.all (fun b => !endsName b) && m.2.all fun b => !endsValue b

def writeMember (m : Member) : Bytes := 0x22 :: m.1 ++ 0x22 :: 0x3A :: m.2

def writeMembers : List Member → Bytes
  | [] => [0x7D]
  | [m] => writeMember m ++ [0x7D]
  | m :: ms => writeMember m ++ 0x2C :: writeMembers ms

def writeObject (ms : List Member) : Bytes := 0x7B :: writeMembers ms

def readMember (s : Bytes) : Option (Member × Bytes) := do
  let s ← expect 0x22 s
  let (name,s) := upTo endsName s
  let s ← expect 0x22 s
  let s ← expect 0x3A s
  let (text,s) := upTo endsValue s
  some ((name,text),s)

theorem readMember_write {m : Member} (h : m.plain = true) {c : UInt8} (hc : endsValue c = true) (t : Bytes) :
    readMember (writeMember m ++ c :: t) = some (m,c :: t) := by
  simp only [Member.plain,Bool.and_eq_true,List.all_eq_true,Bool.not_eq_true'] at h
  have hname : upTo endsName (m.1 ++ 0x22 :: 0x3A :: (m.2 ++ c :: t)) = (m.1,0x22 :: 0x3A :: (m.2 ++ c :: t)) :=
    upTo_append h.1 rfl _
  have htext : upTo endsValue (m.2 ++ c :: t) = (m.2,c :: t) := upTo_append h.2 hc _
  simp [readMember,writeMember,hname,htext]

def readMembers : Nat → Bytes → Option (List Member)
  | 0, _ => none
  | n + 1, s => do
    let (m,s) ← readMember s
    match expect 0x2C s with
    | some s => (readMembers n s).map (m :: ·)
    | none => if s = [0x7D] then some [m] else none

theorem readMembers_write {ms : List Member} (h : ∀ m ∈ ms, m.plain = true) (hne : ms ≠ []) {n : Nat}
    (hn : ms.length ≤ n) : readMembers n (writeMembers ms) = some ms := by
  induction ms generalizing n with
  | nil => exact absurd rfl hne
  | cons m ms ih =>
    obtain ⟨n,rfl⟩ : ∃ k, n = k + 1 := ⟨n - 1,by simp at hn; omega⟩
    have hm := h m List.mem_cons_self
    cases ms with
    | nil =>
      rw [writeMembers,readMembers,readMember_write hm rfl]
      rfl
    | cons m' ms =>
      rw [writeMembers,readMembers,readMember_write hm rfl,Option.bind_eq_bind,Option.bind_some]
      · simp only [expect_cons]
        rw [ih (fun x hx => h x (List.mem_cons_of_mem _ hx)) (by simp) (by simpa using hn)]
        rfl
      · simp

def readObject (s : Bytes) : Option (List Member) := do
  let s ← expect 0x7B s
  if s = [0x7D] then some [] else readMembers s.length s

theorem length_writeMembers (ms : List Member) : ms.length < (writeMembers ms).length := by
  induction ms with
  | nil => simp [writeMembers]
  | cons m ms ih =>
    cases ms with
    | nil => simp [writeMembers,writeMember]
    | cons m' ms =>
      simp only [writeMembers,writeMember,List.length_append,List.length_cons] at ih ⊢
      omega

theorem readObject_write {ms : List Member} (h : ∀ m ∈ ms, m.plain = true) :
    readObject (writeObject ms) = some ms := by
  rw [readObject,writeObject,expect_cons,Option.bind_eq_bind,Option.bind_some]
  cases ms with
  | nil => rfl
  | cons m ms =>
    rw [if_neg]
    · exact readMembers_write h (by simp) (length_writeMembers _).le
    · intro heq
      have hlen := congrArg List.length heq
      cases ms <;> simp [writeMembers,writeMember] at hlen

end Flowy.Scan
