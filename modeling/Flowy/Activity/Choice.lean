import Flowy.Activity.Backoff
import Flowy.Encoding

/-! A chosen retry schedule, as it is stored and as it is checked when it is read again. -/
namespace Flowy

open Json Scan

def ScheduleRejection.text : ScheduleRejection → Text
  | .policy => ascii "policy"
  | .clock => ascii "clock"
  | .hintTime => ascii "hint_time"
  | .hintLabel => ascii "hint_label"
  | .random => ascii "random"
  | .deadline => ascii "deadline"

def ScheduleRejection.parse (s : Text) : Option ScheduleRejection :=
  [ScheduleRejection.policy,.clock,.hintTime,.hintLabel,.random,.deadline].find? fun r => r.text == s

section Members

def timeMember (name : Text) (t : Time) : List Scan.Member :=
  if t.isZero then [] else [(name,quoted t.format)]

/-- The members that `encoding/json` writes: zero times and an empty rejection are left out. -/
def ActivityRetryScheduleDecision.members (d : ActivityRetryScheduleDecision) : List Scan.Member :=
  [(ascii "attempt",natText d.attempt),(ascii "prepared_at",quoted d.preparedAt.format),
    (ascii "base_delay",intText d.baseDelay),(ascii "selected_delay",intText d.selectedDelay)] ++
  timeMember (ascii "not_before") d.notBefore ++ timeMember (ascii "deadline") d.deadline ++
  d.rejection.toList.map fun r => (ascii "rejection",quoted r.text)

def ActivityRetryScheduleDecision.marshal (d : ActivityRetryScheduleDecision) : Option Bytes :=
  if d.marshals then some (writeObject d.members) else none

def readNat (s : Bytes) : Option Nat := if s ≠ [] ∧ s.all isDigit then some (value s) else none

def readInt (s : Bytes) : Option Int :=
  match expect 0x2D s with
  | some s => (readNat s).map fun n : Nat => -(n : Int)
  | none => (readNat s).map fun n : Nat => (n : Int)

def unquote (s : Bytes) : Option Bytes := do
  let s ← expect 0x22 s
  let (text,s) := upTo endsName s
  if s = [0x22] then some text else none

/-- A member that is missing has its zero value. -/
def member {α : Type} (ms : List Scan.Member) (name : Text) (zero : α) (read : Bytes → Option α) : Option α :=
  ((ms.lookup name).map read).getD (some zero)

def ActivityRetryScheduleDecision.unmarshal (s : Bytes) : Option ActivityRetryScheduleDecision := do
  let ms ← readObject s
  let readTime := fun s => (unquote s).bind Time.parse
  let attempt ← member ms (ascii "attempt") 0 readNat
  let preparedAt ← member ms (ascii "prepared_at") .zero readTime
  let baseDelay ← member ms (ascii "base_delay") 0 readInt
  let selectedDelay ← member ms (ascii "selected_delay") 0 readInt
  let notBefore ← member ms (ascii "not_before") .zero readTime
  let deadline ← member ms (ascii "deadline") .zero readTime
  let rejection ← member ms (ascii "rejection") none fun s =>
    ((unquote s).bind ScheduleRejection.parse).map some
  some ⟨attempt,preparedAt,baseDelay,selectedDelay,notBefore,deadline,rejection⟩

theorem readNat_natText (n : Nat) : readNat (natText n) = some n := by
  rw [readNat,if_pos ⟨natText_ne_nil n,List.all_eq_true.mpr (isDigit_natText n)⟩,value_natText]

theorem readInt_intText (n : Int) : readInt (intText n) = some n := by
  unfold intText
  split
  · simp only [readInt,expect_cons,readNat_natText,Option.map_some,Option.some.injEq]
    omega
  · have hno : expect 0x2D (natText n.natAbs) = none := by
      cases hs : natText n.natAbs with
      | nil => rfl
      | cons b s =>
        have hb := (natText_digits n.natAbs b (by rw [hs]; exact List.mem_cons_self)).1
        rw [expect,if_neg]
        rintro rfl
        exact absurd hb (by decide)
    simp only [readInt,hno,readNat_natText,Option.map_some,Option.some.injEq]
    omega

theorem unquote_quoted {s : Bytes} (h : ∀ b ∈ s, endsName b = false) : unquote (quoted s) = some s := by
  rw [unquote,quoted,List.cons_append,expect_cons]
  simp [upTo_append h (c := 0x22) rfl []]

def plainByte (b : UInt8) : Bool := !endsName b && !endsValue b

theorem plainByte_of_isDigit {b : UInt8} (h : isDigit b = true) : plainByte b = true := by
  simp only [isDigit,Bool.and_eq_true,decide_eq_true_eq] at h
  have hne : ∀ c : UInt8, ¬(0x30 ≤ c ∧ c ≤ 0x39) → b ≠ c := fun c hc heq => hc (heq ▸ h)
  simp [plainByte,endsName,endsValue,hne 0x22 (by decide),hne 0x2C (by decide),hne 0x7D (by decide)]

theorem plainByte_padded (width : Nat) (n : Int) : ∀ b ∈ CivilTime.padded width n, plainByte b = true :=
  fun b hb => plainByte_of_isDigit (CivilTime.isDigit_padded width n b hb)

theorem plainByte_format (t : Time) : ∀ b ∈ t.format, plainByte b = true := by
  have hfraction : ∀ ns, ∀ b ∈ CivilTime.fraction ns, plainByte b = true := by
    intro ns b hb
    unfold CivilTime.fraction at hb
    split at hb
    · cases hb
    · rcases List.mem_cons.mp hb with rfl | hb
      · rfl
      · exact plainByte_padded 9 ns b (List.mem_reverse.mp
          (List.dropWhile_subset _ (List.mem_reverse.mp hb)))
  intro b hb
  unfold Time.format CivilTime.rfc3339Nano at hb
  simp only [List.mem_append,List.mem_singleton] at hb
  rcases hb with ((((((((((((hb | rfl) | hb) | rfl) | hb) | rfl) | hb) | rfl) | hb) | rfl) | hb) | hb) | rfl)
  all_goals first | rfl | exact plainByte_padded _ _ b hb | exact hfraction _ b hb

theorem plainByte_natText (n : Nat) : ∀ b ∈ natText n, plainByte b = true :=
  fun b hb => plainByte_of_isDigit (isDigit_natText n b hb)

theorem plainByte_intText (n : Int) : ∀ b ∈ intText n, plainByte b = true := by
  intro b hb
  rcases intText_numeric n b hb with rfl | hd
  · rfl
  · exact plainByte_of_isDigit (by simpa [isDigit] using hd)

theorem plainByte_text (r : ScheduleRejection) : ∀ b ∈ r.text, plainByte b = true := by
  apply List.all_eq_true.mp
  cases r <;> decide +kernel

theorem plainByte_iff {b : UInt8} : plainByte b = true ↔ endsName b = false ∧ endsValue b = false := by
  simp [plainByte]

theorem plain_member {name s : Bytes} (hname : name.all plainByte = true) (h : ∀ b ∈ s, plainByte b = true) :
    Member.plain (name,s) = true ∧ Member.plain (name,quoted s) = true := by
  have hn : name.all (fun b => !endsName b) = true := List.all_eq_true.mpr fun b hb => by
    simp [(plainByte_iff.mp (List.all_eq_true.mp hname b hb)).1]
  have hs : s.all (fun b => !endsValue b) = true := List.all_eq_true.mpr fun b hb => by
    simp [(plainByte_iff.mp (h b hb)).2]
  have hq : (quoted s).all (fun b => !endsValue b) = true := by
    simp only [quoted,List.all_append,List.all_cons,hs]
    rfl
  simp [Member.plain,hn,hs,hq]

theorem ActivityRetryScheduleDecision.members_plain (d : ActivityRetryScheduleDecision) :
    ∀ m ∈ d.members, m.plain = true := by
  have htime : ∀ name t, name.all plainByte = true → ∀ m ∈ timeMember name t, m.plain = true := by
    intro name t hname m hm
    unfold timeMember at hm
    split at hm
    · cases hm
    · rw [List.mem_singleton.mp hm]
      exact (plain_member hname (plainByte_format t)).2
  intro m hm
  simp only [members,List.mem_append,List.mem_cons,List.not_mem_nil,or_false,List.mem_map] at hm
  rcases hm with (((rfl | rfl | rfl | rfl) | hm) | hm) | ⟨r,-,rfl⟩
  · exact (plain_member (by decide) (plainByte_natText _)).1
  · exact (plain_member (by decide) (plainByte_format _)).2
  · exact (plain_member (by decide) (plainByte_intText _)).1
  · exact (plain_member (by decide) (plainByte_intText _)).1
  · exact htime _ _ (by decide) m hm
  · exact htime _ _ (by decide) m hm
  · exact (plain_member (by decide) (plainByte_text r)).2

theorem readTime_quoted {t : Time} (h : t.marshals = true) :
    (unquote (quoted t.format)).bind Time.parse = some t := by
  rw [unquote_quoted fun b hb => (plainByte_iff.mp (plainByte_format t b hb)).1,Option.bind_some,
    Time.parse_format h]

theorem member_time {pre post : List Scan.Member} {name : Text} {t : Time} (h : t.marshals = true)
    (hpre : pre.lookup name = none) (hpost : post.lookup name = none) :
    member (pre ++ timeMember name t ++ post) name .zero (fun s => (unquote s).bind Time.parse) = some t := by
  unfold member timeMember
  split
  · rename_i hz
    rw [List.append_nil,List.lookup_append,hpre,hpost,(Time.isZero_iff t).mp hz]
    rfl
  · rw [List.append_assoc,List.lookup_append,hpre]
    simp only [List.cons_append,List.nil_append,List.lookup_cons_self,Option.none_or,Option.map_some,
      Option.getD_some]
    exact readTime_quoted h

theorem ScheduleRejection.parse_text (r : ScheduleRejection) : parse r.text = some r := by
  cases r <;> decide

theorem lookup_timeMember {name name' : Text} (h : name ≠ name') (t : Time) :
    (timeMember name' t).lookup name = none := by
  unfold timeMember
  split
  · rfl
  · rw [List.lookup_cons,beq_false_of_ne h]
    rfl

def rejectionMember (r : Option ScheduleRejection) : List Scan.Member :=
  r.toList.map fun r => (ascii "rejection",quoted r.text)

theorem lookup_rejectionMember {name : Text} (h : name ≠ ascii "rejection") (r : Option ScheduleRejection) :
    (rejectionMember r).lookup name = none := by
  cases r with
  | none => rfl
  | some r =>
    rw [rejectionMember,Option.toList_some,List.map_singleton,List.lookup_cons,beq_false_of_ne h]
    rfl

theorem member_rejection {pre : List Scan.Member} (hpre : pre.lookup (ascii "rejection") = none)
    (r : Option ScheduleRejection) :
    member (pre ++ rejectionMember r) (ascii "rejection") none
      (fun s => ((unquote s).bind ScheduleRejection.parse).map some) = some r := by
  unfold member rejectionMember
  rw [List.lookup_append,hpre,Option.none_or]
  cases r with
  | none => rfl
  | some r =>
    have hread := unquote_quoted fun b hb => (plainByte_iff.mp (plainByte_text r b hb)).1
    rw [Option.toList_some,List.map_singleton,List.lookup_cons_self,Option.map_some,Option.getD_some,hread,
      Option.bind_some,ScheduleRejection.parse_text]
    rfl

def ActivityRetryScheduleDecision.head (d : ActivityRetryScheduleDecision) : List Scan.Member :=
  [(ascii "attempt",natText d.attempt),(ascii "prepared_at",quoted d.preparedAt.format),
    (ascii "base_delay",intText d.baseDelay),(ascii "selected_delay",intText d.selectedDelay)]

theorem member_of_lookup {α : Type} {ms : List Scan.Member} {name : Text} {s : Bytes} {zero x : α}
    {read : Bytes → Option α} (h : ms.lookup name = some s) (hr : read s = some x) :
    member ms name zero read = some x := by
  rw [member,h,Option.map_some,Option.getD_some,hr]

theorem lookup_head (d : ActivityRetryScheduleDecision) (ms : List Scan.Member) :
    (d.head ++ ms).lookup (ascii "attempt") = some (natText d.attempt) ∧
      (d.head ++ ms).lookup (ascii "prepared_at") = some (quoted d.preparedAt.format) ∧
      (d.head ++ ms).lookup (ascii "base_delay") = some (intText d.baseDelay) ∧
      (d.head ++ ms).lookup (ascii "selected_delay") = some (intText d.selectedDelay) := by
  have h10 : (ascii "prepared_at" == ascii "attempt") = false := by decide
  have h20 : (ascii "base_delay" == ascii "attempt") = false := by decide
  have h21 : (ascii "base_delay" == ascii "prepared_at") = false := by decide
  have h30 : (ascii "selected_delay" == ascii "attempt") = false := by decide
  have h31 : (ascii "selected_delay" == ascii "prepared_at") = false := by decide
  have h32 : (ascii "selected_delay" == ascii "base_delay") = false := by decide
  simp only [ActivityRetryScheduleDecision.head,List.cons_append,List.lookup_cons,beq_self_eq_true,h10,h20,
    h21,h30,h31,h32,and_self]

theorem ActivityRetryScheduleDecision.unmarshal_marshal {d : ActivityRetryScheduleDecision} {s : Bytes}
    (h : d.marshal = some s) : unmarshal s = some d := by
  unfold marshal at h
  split at h
  · rename_i hm
    cases h
    simp only [marshals,Bool.and_eq_true] at hm
    obtain ⟨⟨hprepared,hbefore⟩,hdeadline⟩ := hm
    have hmembers : d.members = d.head ++ timeMember (ascii "not_before") d.notBefore ++
        timeMember (ascii "deadline") d.deadline ++ rejectionMember d.rejection := rfl
    obtain ⟨hl0,hl1,hl2,hl3⟩ := lookup_head d (timeMember (ascii "not_before") d.notBefore ++
      (timeMember (ascii "deadline") d.deadline ++ rejectionMember d.rejection))
    rw [← List.append_assoc,← List.append_assoc,← hmembers] at hl0 hl1 hl2 hl3
    have hhead : ∀ name, name ∉ [ascii "attempt",ascii "prepared_at",ascii "base_delay",
        ascii "selected_delay"] → d.head.lookup name = none := by
      intro name hn
      simp only [List.mem_cons,List.not_mem_nil,or_false,not_or] at hn
      simp only [head,List.lookup_cons,beq_false_of_ne hn.1,beq_false_of_ne hn.2.1,
        beq_false_of_ne hn.2.2.1,beq_false_of_ne hn.2.2.2]
      rfl
    -- the members one by one
    have hattempt : member d.members (ascii "attempt") 0 readNat = some d.attempt :=
      member_of_lookup hl0 (readNat_natText d.attempt)
    have hpreparedAt : member d.members (ascii "prepared_at") Time.zero
        (fun s => (unquote s).bind Time.parse) = some d.preparedAt :=
      member_of_lookup hl1 (readTime_quoted hprepared)
    have hbase : member d.members (ascii "base_delay") 0 readInt = some d.baseDelay :=
      member_of_lookup hl2 (readInt_intText d.baseDelay)
    have hselected : member d.members (ascii "selected_delay") 0 readInt = some d.selectedDelay :=
      member_of_lookup hl3 (readInt_intText d.selectedDelay)
    have hnotBefore : member d.members (ascii "not_before") Time.zero
        (fun s => (unquote s).bind Time.parse) = some d.notBefore := by
      rw [hmembers,List.append_assoc]
      refine member_time hbefore (hhead _ (by decide)) ?_
      rw [List.lookup_append,lookup_timeMember (by decide),lookup_rejectionMember (by decide)]
      rfl
    have hdeadlineAt : member d.members (ascii "deadline") Time.zero
        (fun s => (unquote s).bind Time.parse) = some d.deadline := by
      rw [hmembers]
      refine member_time hdeadline ?_ (lookup_rejectionMember (by decide) _)
      rw [List.lookup_append,hhead _ (by decide),lookup_timeMember (by decide)]
      rfl
    have hrejection : member d.members (ascii "rejection") none
        (fun s => ((unquote s).bind ScheduleRejection.parse).map some) = some d.rejection := by
      rw [hmembers]
      refine member_rejection ?_ _
      rw [List.lookup_append,List.lookup_append,hhead _ (by decide),lookup_timeMember (by decide),
        lookup_timeMember (by decide)]
      rfl
    simp only [unmarshal,readObject_write d.members_plain,Option.bind_eq_bind,Option.bind_some,hattempt,
      hpreparedAt,hbase,hselected,hnotBefore,hdeadlineAt,hrejection]
  · cases h

end Members

section Choice

/-- What is expected of a choice: it is one that the check accepts, now and after it was stored; and
an accepted one says when, and cannot be tampered with. -/
structure SoundChoice (policy : ActivityRetryPolicy) (d : ActivityRetryScheduleDecision) : Prop where
  valid : validActivityRetryScheduleDecision policy (some d) = true
  stored : ∃ s d', d.marshal = some s ∧ ActivityRetryScheduleDecision.unmarshal s = some d' ∧
    validActivityRetryScheduleDecision policy (some d') = true
  deadline : d.rejection = none →
    d.deadline.ns = max (d.preparedAt.add d.selectedDelay).ns d.notBefore.ns
  fixedDeadline : d.rejection = none → ∀ t, t ≠ d.deadline →
    validActivityRetryScheduleDecision policy (some { d with deadline := t }) = false
  fixedBase : d.rejection = none → ∀ delay, delay ≠ d.baseDelay →
    validActivityRetryScheduleDecision policy (some { d with baseDelay := delay }) = false

theorem activityScheduleTimeValid_marshals {t : Time} (h : activityScheduleTimeValid t = true) :
    t.marshals = true := by
  simp only [activityScheduleTimeValid,Bool.and_eq_true,Time.inYears1To9999,decide_eq_true_eq] at h
  simp only [Time.marshals,Bool.and_eq_true,decide_eq_true_eq]
  refine ⟨Int.le_trans ?_ h.2.1,h.2.2⟩
  decide

theorem validActivityScheduleHint_marshals {policy : ActivityRetryPolicy} {hint : Time}
    (h : validActivityScheduleHint policy hint = true) : hint.marshals = true := by
  simp only [validActivityScheduleHint,Bool.or_eq_true,Bool.and_eq_true] at h
  rcases h with hz | ⟨-,ht⟩
  · rw [(Time.isZero_iff hint).mp hz]
    decide
  · exact activityScheduleTimeValid_marshals ht

theorem Time.expected_eq_max (t u : Time) : (if u.after t = true then u else t).ns = max t.ns u.ns := by
  split
  · rename_i h
    exact (max_eq_right (Int.le_of_lt ((Time.before_iff t u).mp h))).symm
  · rename_i h
    rw [Time.after,Time.before_iff] at h
    exact (max_eq_left (Int.not_lt.mp h)).symm

/-- `sample` is whatever the random source returned, or nothing if it panicked. -/
theorem retry_schedule_accepted {policy : ActivityRetryPolicy} {attempt : Nat} {now : Time}
    (hpolicy : validateActivityRetry policy = .ok ()) (hduration : policy.schedule.maxDelay < 2 ^ 63)
    (h1 : 1 ≤ attempt) (hmax : attempt < policy.maxAttempts) (hyears : now.inYears1To9999 = true)
    (hnow : now.isZero = false) (hint : Time) (sample : Option Nat) :
    SoundChoice policy (chooseActivityRetrySchedule policy attempt now hint sample) := by
  have hclock : activityScheduleTimeValid now = true := by simp [activityScheduleTimeValid,hyears,hnow]
  have hok : Schedulable policy attempt now := ⟨h1,hmax,hpolicy,hclock⟩
  have hcases := chooseActivityRetrySchedule_cases policy attempt now hint sample
  have hvalid := hcases.valid hok hduration
  generalize chooseActivityRetrySchedule policy attempt now hint sample = d at hcases hvalid
  -- every time that a choice carries can be written
  have hmarshals : d.marshals = true := by
    have hm := activityScheduleTimeValid_marshals hclock
    have hz : Time.zero.marshals = true := by decide
    cases hcases with
    | policy | clock => simp [ActivityRetryScheduleDecision.marshals,hm,hz]
    | hintTime => simp [ActivityRetryScheduleDecision.marshals,hm,hz]
    | hintLabel _ ht => simp [ActivityRetryScheduleDecision.marshals,hm,hz,activityScheduleTimeValid_marshals ht]
    | random _ hh => simp [ActivityRetryScheduleDecision.marshals,hm,hz,validActivityScheduleHint_marshals hh]
    | deadline _ hh _ _ _ _ hd =>
      subst hd
      simp [ActivityRetryScheduleDecision.marshals,hm,hz,validActivityScheduleHint_marshals hh]
    | accepted _ hh _ _ _ _ hd hgood =>
      rw [hd]
      simp [ActivityRetryScheduleDecision.marshals,hm,validActivityScheduleHint_marshals hh,
        activityScheduleTimeValid_marshals hgood.2]
  have hexpected : d.rejection = none → d.deadline = d.expected ∧
      d.baseDelay = activityRetryBaseDelay policy.schedule d.attempt := by
    intro hr
    simp only [validActivityRetryScheduleDecision,hr,Bool.and_eq_true,beq_iff_eq] at hvalid
    exact ⟨hvalid.2.2.symm,hvalid.2.1.1.1.1⟩
  refine ⟨hvalid,⟨_,d,if_pos hmarshals,ActivityRetryScheduleDecision.unmarshal_marshal (if_pos hmarshals),hvalid⟩,
    fun hr => ?_,fun hr t ht => ?_,fun hr delay hdelay => ?_⟩
  · rw [(hexpected hr).1]
    exact Time.expected_eq_max _ _
  · have hne : (d.expected == t) = false := by
      rw [beq_eq_false_iff_ne,← (hexpected hr).1]
      exact ht.symm
    simp only [validActivityRetryScheduleDecision,hr]
    rw [show ActivityRetryScheduleDecision.expected ⟨d.attempt,d.preparedAt,d.baseDelay,d.selectedDelay,
      d.notBefore,t,none⟩ = d.expected from rfl,hne]
    simp
  · have hne : (delay == activityRetryBaseDelay policy.schedule d.attempt) = false := by
      rw [beq_eq_false_iff_ne,← (hexpected hr).2]
      exact hdelay
    simp only [validActivityRetryScheduleDecision,hr,hne]
    simp

def plainRetry : ActivityRetryPolicy :=
  { label := ascii "r", maxAttempts := 2, safeRetryContract := ascii "s",
    schedule := ⟨.fixed,1000000,1000000,0,0,[]⟩ }

theorem retry_schedule_accepted_plain :
    (chooseActivityRetrySchedule plainRetry 1 ⟨1⟩ .zero none).rejection = none ∧
      SoundChoice plainRetry (chooseActivityRetrySchedule plainRetry 1 ⟨1⟩ .zero none) :=
  ⟨by decide,retry_schedule_accepted rfl (by decide) (by decide) (by decide) (by decide) (by decide) .zero none⟩

/-- The zero time lies in year 1, but a choice made at it is refused and not stored. -/
theorem zero_clock_not_accepted : validateActivityRetry plainRetry = .ok () ∧
    Time.zero.inYears1To9999 = true ∧ (1 : Int) < plainRetry.maxAttempts ∧
    validActivityRetryScheduleDecision plainRetry
      (some (chooseActivityRetrySchedule plainRetry 1 .zero .zero none)) = false := by
  decide

end Choice
end Flowy
