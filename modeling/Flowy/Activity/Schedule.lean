import Flowy.Activity.Record

/-! Persisted retry schedules: the arithmetic of delays, the choice of one deadline, and the check
that a stored choice is one the arithmetic allows. -/
namespace Flowy

/-- Conversion of an exact result to `int64`, and of an `int64` to `uint64`. -/
def int64 (x : Int) : Int := x.bmod (2 ^ 64)
def uint64 (x : Int) : Nat := (x % 2 ^ 64).toNat

def retryJitterDenominator : Int := 1000

def validateActivitySchedule (schedule : ActivityRetrySchedule) : Result Unit :=
  if schedule.initialDelay < 0 || schedule.maxDelay < schedule.initialDelay ||
      schedule.jitterPermille > retryJitterDenominator.toNat ||
      !validRuntimeText [schedule.hintLabel] then
    fail .activityScheduleInvalid
  else match schedule.kind with
    | .fixed =>
      require (!(schedule.multiplier != 0 || schedule.maxDelay != schedule.initialDelay))
        .activityScheduleInvalid
    | .exponential =>
      require (!(schedule.initialDelay ≤ 0 || schedule.multiplier < 2)) .activityScheduleInvalid
    | .unset => fail .activityScheduleInvalid

def validateActivityRetry (policy : ActivityRetryPolicy) : Result Unit :=
  if policy = ActivityRetryPolicy.none then .ok ()
  else if policy.label == [] || !validRuntimeText [policy.label,policy.safeRetryContract] ||
      policy.maxAttempts < 1 || (policy.maxAttempts > 1 && policy.safeRetryContract == []) then
    fail .executionCapability
  else match validateActivitySchedule policy.schedule with
    | .ok () => .ok ()
    | .error err => .error (.join (.of .executionCapability) err)

def activityRetryBaseDelayLoop (schedule : ActivityRetrySchedule) : Nat → Duration → Duration
  | 0, delay => delay
  | n + 1, delay =>
    if delay < schedule.maxDelay then
      if schedule.multiplier > uint64 (schedule.maxDelay.tdiv delay) then schedule.maxDelay
      else activityRetryBaseDelayLoop schedule n (int64 (delay * int64 schedule.multiplier))
    else delay

def activityRetryBaseDelay (schedule : ActivityRetrySchedule) (attempt : Nat) : Duration :=
  if schedule.kind = .exponential then
    activityRetryBaseDelayLoop schedule (attempt - 1) schedule.initialDelay
  else schedule.initialDelay

/-- Each product is bounded by `delay`; `delay * permille` is avoided. -/
def activityRetryJitterWidth (delay : Duration) (permille : Nat) : Duration :=
  int64 (int64 (delay.tdiv retryJitterDenominator * permille) +
    (int64 (delay.tmod retryJitterDenominator * permille)).tdiv retryJitterDenominator)

def activityScheduleTimeValid (value : Time) : Bool := !value.isZero && value.inYears1To9999

/-- `sample` is what the random source returned, `none` when it panicked. -/
def chooseActivityRetrySchedule (policy : ActivityRetryPolicy) (attempt : Nat) (now hint : Time)
    (sample : Option Nat) : ActivityRetryScheduleDecision :=
  let decision : ActivityRetryScheduleDecision := ⟨attempt,now,0,0,.zero,.zero,none⟩
  if attempt < 1 || attempt ≥ policy.maxAttempts || !(validateActivityRetry policy).isOk then
    { decision with rejection := some .policy }
  else if !activityScheduleTimeValid now then { decision with rejection := some .clock }
  else
    let base := activityRetryBaseDelay policy.schedule attempt
    let decision := { decision with baseDelay := base, selectedDelay := base }
    if !hint.isZero && !activityScheduleTimeValid hint then
      { decision with rejection := some .hintTime }
    else
      let decision := if hint.isZero then decision else { decision with notBefore := hint }
      if !hint.isZero && policy.schedule.hintLabel == [] then
        { decision with rejection := some .hintLabel }
      else
        let width := activityRetryJitterWidth base policy.schedule.jitterPermille
        if width > 0 && sample.isNone then { decision with rejection := some .random }
        else
          let selected := if width > 0 then
              int64 (base - int64 ((sample.getD 0 % (uint64 width + 1) : Nat) : Int)) else base
          let decision := { decision with selectedDelay := selected }
          let deadline := now.add selected
          let deadline := if decision.notBefore.after deadline then decision.notBefore else deadline
          if deadline.before now || !activityScheduleTimeValid deadline then
            { decision with rejection := some .deadline }
          else { decision with deadline := deadline }

def validActivityScheduleHint (policy : ActivityRetryPolicy) (hint : Time) : Bool :=
  hint.isZero || (policy.schedule.hintLabel != [] && activityScheduleTimeValid hint)

def ActivityRetryScheduleDecision.expected (d : ActivityRetryScheduleDecision) : Time :=
  if d.notBefore.after (d.preparedAt.add d.selectedDelay) then d.notBefore
  else d.preparedAt.add d.selectedDelay

def validRejectedActivitySchedule (policy : ActivityRetryPolicy) (d : ActivityRetryScheduleDecision)
    (rejection : ScheduleRejection) : Bool :=
  let width := activityRetryJitterWidth d.baseDelay policy.schedule.jitterPermille
  d.deadline.isZero && d.baseDelay == activityRetryBaseDelay policy.schedule d.attempt &&
    match rejection with
    | .hintTime => d.notBefore.isZero && d.selectedDelay == d.baseDelay
    | .hintLabel => policy.schedule.hintLabel == [] && activityScheduleTimeValid d.notBefore &&
        d.selectedDelay == d.baseDelay
    | .random => width > 0 && d.selectedDelay == d.baseDelay &&
        validActivityScheduleHint policy d.notBefore
    | .deadline => validActivityScheduleHint policy d.notBefore &&
        !(d.selectedDelay < d.baseDelay - width) &&
        (!activityScheduleTimeValid d.expected || d.expected.before d.preparedAt)
    | .policy | .clock => false

def validActivityRetryScheduleDecision (policy : ActivityRetryPolicy) :
    Option ActivityRetryScheduleDecision → Bool
  | none => false
  | some d =>
    (validateActivityRetry policy).isOk && !(d.attempt < 1) && !(d.attempt ≥ policy.maxAttempts) &&
      activityScheduleTimeValid d.preparedAt && !(d.baseDelay < 0) && !(d.selectedDelay < 0) &&
      !(d.selectedDelay > d.baseDelay) &&
      match d.rejection with
      | some rejection => validRejectedActivitySchedule policy d rejection
      | none =>
        let base := activityRetryBaseDelay policy.schedule d.attempt
        d.baseDelay == base &&
          !(d.selectedDelay < base - activityRetryJitterWidth base policy.schedule.jitterPermille) &&
          (d.notBefore.isZero ||
            (policy.schedule.hintLabel != [] && activityScheduleTimeValid d.notBefore)) &&
          activityScheduleTimeValid d.deadline && d.expected == d.deadline

section Arithmetic

theorem int64_of_range {x : Int} (h0 : 0 ≤ x) (h1 : x < 2 ^ 63) : int64 x = x := by
  rw [int64,Int.bmod_eq_of_le] <;> omega

theorem uint64_of_range {x : Int} (h0 : 0 ≤ x) (h1 : x < 2 ^ 63) : (uint64 x : Int) = x := by
  rw [uint64,Int.emod_eq_of_lt h0 (by omega),Int.toNat_of_nonneg h0]

/-- The delays of a policy that can retry; `2 ^ 63` bounds every `time.Duration`. -/
structure ScheduleRange (schedule : ActivityRetrySchedule) : Prop where
  initial : 0 ≤ schedule.initialDelay
  ordered : schedule.initialDelay ≤ schedule.maxDelay
  jitter : schedule.jitterPermille ≤ 1000
  duration : schedule.maxDelay < 2 ^ 63

theorem validateActivityRetry_range {policy : ActivityRetryPolicy}
    (h : (validateActivityRetry policy).isOk = true) (hmax : 1 < policy.maxAttempts)
    (hduration : policy.schedule.maxDelay < 2 ^ 63) : ScheduleRange policy.schedule := by
  unfold validateActivityRetry at h
  split at h
  · rename_i hnone
    rw [hnone] at hmax
    cases hmax
  split at h
  · cases h
  · unfold validateActivitySchedule at h
    split at h
    · rename_i hs
      split at hs
      · cases hs
      · rename_i hrange
        simp only [Bool.or_eq_true,decide_eq_true_eq,not_or,Int.not_lt] at hrange
        obtain ⟨⟨⟨h1,h2⟩,h3⟩,-⟩ := hrange
        exact ⟨h1,h2,Nat.not_lt.mp h3,hduration⟩
    · cases h

theorem activityRetryRound_exact {schedule : ActivityRetrySchedule} (h : schedule.maxDelay < 2 ^ 63)
    {delay : Duration} (h0 : 0 ≤ delay) (hle : delay ≤ schedule.maxDelay)
    (hmul : schedule.multiplier ≤ uint64 (schedule.maxDelay.tdiv delay)) :
    (schedule.multiplier : Int) < 2 ^ 63 ∧ delay * schedule.multiplier ≤ schedule.maxDelay ∧
      int64 (delay * int64 schedule.multiplier) = delay * schedule.multiplier := by
  have hmax : 0 ≤ schedule.maxDelay := Int.le_trans h0 hle
  have hq0 : 0 ≤ schedule.maxDelay.tdiv delay := Int.tdiv_nonneg hmax h0
  have hqle : schedule.maxDelay.tdiv delay ≤ schedule.maxDelay := Int.tdiv_le_self _ hmax
  have hq : (schedule.multiplier : Int) ≤ schedule.maxDelay.tdiv delay := by
    rw [← uint64_of_range hq0 (Int.lt_of_le_of_lt hqle h)]
    exact Int.ofNat_le.mpr hmul
  have hprod : delay * schedule.multiplier ≤ schedule.maxDelay :=
    calc delay * schedule.multiplier
        ≤ delay * schedule.maxDelay.tdiv delay := Int.mul_le_mul_of_nonneg_left hq h0
      _ ≤ schedule.maxDelay := Int.mul_tdiv_self_le hmax
  have hpos : 0 ≤ delay * schedule.multiplier := Int.mul_nonneg h0 (Int.natCast_nonneg _)
  have hlt : (schedule.multiplier : Int) < 2 ^ 63 := Int.lt_of_le_of_lt hq (Int.lt_of_le_of_lt hqle h)
  refine ⟨hlt,hprod,?_⟩
  rw [int64_of_range (Int.natCast_nonneg _) hlt,int64_of_range hpos (Int.lt_of_le_of_lt hprod h)]

theorem activityRetryBaseDelayLoop_range {schedule : ActivityRetrySchedule}
    (h : schedule.maxDelay < 2 ^ 63) (n : Nat) {delay : Duration} (h0 : 0 ≤ delay)
    (hle : delay ≤ schedule.maxDelay) :
    0 ≤ activityRetryBaseDelayLoop schedule n delay ∧
      activityRetryBaseDelayLoop schedule n delay ≤ schedule.maxDelay := by
  induction n generalizing delay with
  | zero => exact ⟨h0,hle⟩
  | succ n ih =>
    have hmax : 0 ≤ schedule.maxDelay := Int.le_trans h0 hle
    unfold activityRetryBaseDelayLoop
    split
    · split
      · exact ⟨hmax,Int.le_refl _⟩
      · rename_i hlt hmul
        obtain ⟨-,hprod,hexact⟩ := activityRetryRound_exact h h0 hle (Nat.not_lt.mp hmul)
        rw [hexact]
        exact ih (Int.mul_nonneg h0 (Int.natCast_nonneg _)) hprod
    · exact ⟨h0,hle⟩

theorem activityRetryBaseDelay_range {schedule : ActivityRetrySchedule} (h : ScheduleRange schedule)
    (attempt : Nat) : 0 ≤ activityRetryBaseDelay schedule attempt ∧
      activityRetryBaseDelay schedule attempt < 2 ^ 63 := by
  unfold activityRetryBaseDelay
  split
  · obtain ⟨h0,h1⟩ := activityRetryBaseDelayLoop_range h.duration (attempt - 1) h.initial h.ordered
    exact ⟨h0,Int.lt_of_le_of_lt h1 h.duration⟩
  · exact ⟨h.initial,Int.lt_of_le_of_lt h.ordered h.duration⟩

theorem activityRetryJitterWidth_range {delay : Duration} {permille : Nat} (h0 : 0 ≤ delay)
    (h1 : delay < 2 ^ 63) (hp : permille ≤ 1000) :
    0 ≤ activityRetryJitterWidth delay permille ∧ activityRetryJitterWidth delay permille ≤ delay := by
  unfold Duration at *
  have hden : retryJitterDenominator = 1000 := rfl
  unfold activityRetryJitterWidth
  rw [hden,Int.tdiv_eq_ediv_of_nonneg h0,Int.tmod_eq_emod_of_nonneg h0]
  obtain ⟨q,r,hq,hr,hq0,hr0,hr1,hsum⟩ : ∃ q r : Int, delay / 1000 = q ∧ delay % 1000 = r ∧ 0 ≤ q ∧
      0 ≤ r ∧ r < 1000 ∧ q * 1000 + r = delay :=
    ⟨_,_,rfl,rfl,by omega,by omega,by omega,by omega⟩
  have hqp : q * permille ≤ q * 1000 := Int.mul_le_mul_of_nonneg_left (by omega) hq0
  have hrp : r * permille ≤ r * 1000 := Int.mul_le_mul_of_nonneg_left (by omega) hr0
  have hqp0 : 0 ≤ q * permille := Int.mul_nonneg hq0 (by omega)
  have hrp0 : 0 ≤ r * permille := Int.mul_nonneg hr0 (by omega)
  rw [hq,hr,int64_of_range hqp0 (by omega),int64_of_range hrp0 (by omega),
    Int.tdiv_eq_ediv_of_nonneg hrp0,int64_of_range (by omega) (by omega)]
  omega

def selectedRetryDelay (base width : Duration) (sample : Option Nat) : Duration :=
  if width > 0 then int64 (base - int64 ((sample.getD 0 % (uint64 width + 1) : Nat) : Int)) else base

theorem selectedRetryDelay_range {base width : Duration} (hw0 : 0 ≤ width) (hw1 : width ≤ base)
    (hb : base < 2 ^ 63) (sample : Option Nat) :
    selectedRetryDelay base width sample ≤ base ∧
      base - width ≤ selectedRetryDelay base width sample := by
  unfold Duration selectedRetryDelay at *
  split
  · have hu := uint64_of_range hw0 (by omega)
    have hk : sample.getD 0 % (uint64 width + 1) ≤ uint64 width :=
      Nat.lt_succ_iff.mp (Nat.mod_lt _ (by omega))
    generalize sample.getD 0 % (uint64 width + 1) = k at hk
    have hk64 : int64 (k : Int) = k := int64_of_range (by omega) (by omega)
    rw [hk64,int64_of_range (by omega) (by omega)]
    omega
  · omega

section Choice

variable {policy : ActivityRetryPolicy} {attempt : Nat} {now hint : Time} {sample : Option Nat}
  {choice : ActivityRetryScheduleDecision}

structure Schedulable (policy : ActivityRetryPolicy) (attempt : Nat) (now : Time) : Prop where
  attempted : 1 ≤ attempt
  remaining : attempt < policy.maxAttempts
  policy : validateActivityRetry policy = .ok ()
  clock : activityScheduleTimeValid now = true

inductive Chosen (policy : ActivityRetryPolicy) (attempt : Nat) (now hint : Time) (sample : Option Nat)
    (base width : Duration) : ActivityRetryScheduleDecision → Prop
  | policy (h : ¬(1 ≤ attempt ∧ attempt < policy.maxAttempts ∧ validateActivityRetry policy = .ok ())) :
      Chosen policy attempt now hint sample base width ⟨attempt,now,0,0,.zero,.zero,some .policy⟩
  | clock (h : activityScheduleTimeValid now = false) :
      Chosen policy attempt now hint sample base width ⟨attempt,now,0,0,.zero,.zero,some .clock⟩
  | hintTime (h : Schedulable policy attempt now) (hz : hint.isZero = false)
      (ht : activityScheduleTimeValid hint = false) :
      Chosen policy attempt now hint sample base width ⟨attempt,now,base,base,.zero,.zero,some .hintTime⟩
  | hintLabel (h : Schedulable policy attempt now) (ht : activityScheduleTimeValid hint = true)
      (hl : policy.schedule.hintLabel = []) :
      Chosen policy attempt now hint sample base width ⟨attempt,now,base,base,hint,.zero,some .hintLabel⟩
  | random (h : Schedulable policy attempt now) (hh : validActivityScheduleHint policy hint = true)
      (hw : 0 < width) (hs : sample = none) :
      Chosen policy attempt now hint sample base width ⟨attempt,now,base,base,hint,.zero,some .random⟩
  | deadline (h : Schedulable policy attempt now) (hh : validActivityScheduleHint policy hint = true)
      (hs : 0 < width → sample ≠ none) (selected : Duration) (d : ActivityRetryScheduleDecision)
      (hsel : selected = selectedRetryDelay base width sample)
      (hd : d = ⟨attempt,now,base,selected,hint,.zero,some .deadline⟩)
      (hbad : d.expected.before now = true ∨ activityScheduleTimeValid d.expected = false) :
      Chosen policy attempt now hint sample base width d
  | accepted (h : Schedulable policy attempt now) (hh : validActivityScheduleHint policy hint = true)
      (hs : 0 < width → sample ≠ none) (selected : Duration) (d : ActivityRetryScheduleDecision)
      (hsel : selected = selectedRetryDelay base width sample)
      (hd : d = ⟨attempt,now,base,selected,hint,d.expected,none⟩)
      (hgood : d.expected.before now = false ∧ activityScheduleTimeValid d.expected = true) :
      Chosen policy attempt now hint sample base width d

theorem chooseActivityRetrySchedule_cases (policy : ActivityRetryPolicy) (attempt : Nat) (now hint : Time)
    (sample : Option Nat) :
    Chosen policy attempt now hint sample (activityRetryBaseDelay policy.schedule attempt)
      (activityRetryJitterWidth (activityRetryBaseDelay policy.schedule attempt)
        policy.schedule.jitterPermille)
      (chooseActivityRetrySchedule policy attempt now hint sample) := by
  -- a zero hint and no hint are the same
  have hnotBefore : ∀ base : Duration, (if hint.isZero = true then
      (⟨attempt,now,base,base,.zero,.zero,none⟩ : ActivityRetryScheduleDecision)
      else ⟨attempt,now,base,base,hint,.zero,none⟩) = ⟨attempt,now,base,base,hint,.zero,none⟩ := by
    intro base
    split
    · rename_i hz
      rw [(Time.isZero_iff hint).mp hz]
    · rfl
  have hselect : ∀ base width : Duration, (if width > 0 then
      int64 (base - int64 ((sample.getD 0 % (uint64 width + 1) : Nat) : Int)) else base) =
      selectedRetryDelay base width sample := fun _ _ => rfl
  generalize hout : chooseActivityRetrySchedule policy attempt now hint sample = out
  unfold chooseActivityRetrySchedule at hout
  dsimp only at hout
  simp only [hnotBefore,hselect] at hout
  generalize activityRetryBaseDelay policy.schedule attempt = base at hout ⊢
  generalize activityRetryJitterWidth base policy.schedule.jitterPermille = width at hout ⊢
  split at hout
  · rename_i hpolicy
    subst hout
    refine .policy fun h => ?_
    obtain ⟨hattempt,hmax,hretry⟩ := h
    simp only [Bool.or_eq_true,decide_eq_true_eq,isOk_iff.mpr hretry,Bool.not_true,Bool.false_eq_true,
      or_false] at hpolicy
    omega
  rename_i hpolicy
  simp only [Bool.or_eq_true,decide_eq_true_eq,not_or,Bool.not_eq_true',Bool.not_eq_false,isOk_iff] at hpolicy
  split at hout
  · rename_i hclock
    subst hout
    exact .clock (by simpa using hclock)
  rename_i hclock
  simp only [Bool.not_eq_true',Bool.not_eq_false] at hclock
  have hok : Schedulable policy attempt now := ⟨by omega,by omega,hpolicy.2,hclock⟩
  split at hout
  · rename_i hhint
    subst hout
    simp only [Bool.and_eq_true,Bool.not_eq_true'] at hhint
    exact .hintTime hok hhint.1 hhint.2
  rename_i hhint
  simp only [Bool.and_eq_true,Bool.not_eq_true',not_and,Bool.not_eq_false] at hhint
  split at hout
  · rename_i hlabel
    subst hout
    simp only [Bool.and_eq_true,Bool.not_eq_true',beq_iff_eq] at hlabel
    exact .hintLabel hok (hhint hlabel.1) hlabel.2
  rename_i hlabel
  simp only [Bool.and_eq_true,Bool.not_eq_true',beq_iff_eq,not_and] at hlabel
  have hvalid : validActivityScheduleHint policy hint = true := by
    cases hz : hint.isZero with
    | true => simp [validActivityScheduleHint,hz]
    | false => simp [validActivityScheduleHint,hhint hz,hlabel hz]
  split at hout
  · rename_i hrandom
    subst hout
    simp only [Bool.and_eq_true,decide_eq_true_eq,Option.isNone_iff_eq_none] at hrandom
    exact .random hok hvalid hrandom.1 hrandom.2
  rename_i hrandom
  simp only [Bool.and_eq_true,decide_eq_true_eq,Option.isNone_iff_eq_none,not_and] at hrandom
  generalize hexpected : (if hint.after (now.add (selectedRetryDelay base width sample)) = true then hint
    else now.add (selectedRetryDelay base width sample)) = deadline at hout
  split at hout
  · rename_i hbad
    subst hout
    simp only [Bool.or_eq_true,Bool.not_eq_true',← hexpected] at hbad
    exact .deadline hok hvalid hrandom _ _ rfl rfl hbad
  · rename_i hgood
    subst hout hexpected
    simp only [Bool.or_eq_true,not_or,Bool.not_eq_true',Bool.not_eq_false,Bool.not_eq_true] at hgood
    exact .accepted hok hvalid hrandom _ _ rfl rfl hgood

theorem Schedulable.range (h : Schedulable policy attempt now) (hduration : policy.schedule.maxDelay < 2 ^ 63) :
    ScheduleRange policy.schedule := by
  have hattempt := h.attempted
  have hmax := h.remaining
  exact validateActivityRetry_range (isOk_iff.mpr h.policy) (by omega) hduration

theorem Chosen.valid (h : Schedulable policy attempt now) (hduration : policy.schedule.maxDelay < 2 ^ 63)
    (hc : Chosen policy attempt now hint sample (activityRetryBaseDelay policy.schedule attempt)
      (activityRetryJitterWidth (activityRetryBaseDelay policy.schedule attempt)
        policy.schedule.jitterPermille) choice) :
    validActivityRetryScheduleDecision policy (some choice) = true := by
  have hrange := h.range hduration
  obtain ⟨hb0,hb1⟩ := activityRetryBaseDelay_range hrange attempt
  obtain ⟨hw0,hw1⟩ := activityRetryJitterWidth_range hb0 hb1 hrange.jitter
  obtain ⟨hs1,hs2⟩ := selectedRetryDelay_range hw0 hw1 hb1 sample
  generalize hbase : activityRetryBaseDelay policy.schedule attempt = base at *
  generalize hwidth : activityRetryJitterWidth base policy.schedule.jitterPermille = width at *
  -- the part of the check that comes before the verdict
  have hhead : ∀ d : ActivityRetryScheduleDecision, d.attempt = attempt → d.preparedAt = now →
      d.baseDelay = base → 0 ≤ d.selectedDelay → d.selectedDelay ≤ base →
      (match d.rejection with
        | some rejection => validRejectedActivitySchedule policy d rejection
        | none =>
          let base := activityRetryBaseDelay policy.schedule d.attempt
          d.baseDelay == base &&
            !(d.selectedDelay < base - activityRetryJitterWidth base policy.schedule.jitterPermille) &&
            (d.notBefore.isZero ||
              (policy.schedule.hintLabel != [] && activityScheduleTimeValid d.notBefore)) &&
            activityScheduleTimeValid d.deadline && d.expected == d.deadline) = true →
      validActivityRetryScheduleDecision policy (some d) = true := by
    intro d hda hdn hdb hd0 hd1 hrest
    have hattempt := h.attempted
    have hmax := h.remaining
    simp only [validActivityRetryScheduleDecision,hda,hdn,hdb,isOk_iff.mpr h.policy,h.clock,
      Bool.and_eq_true,Bool.not_eq_true',decide_eq_false_iff_not,Int.not_lt,Nat.not_lt]
    simp only [hda,hdb] at hrest
    exact ⟨⟨⟨⟨⟨⟨⟨trivial,hattempt⟩,by omega⟩,trivial⟩,hb0⟩,hd0⟩,hd1⟩,hrest⟩
  have hs0 : 0 ≤ selectedRetryDelay base width sample := Int.le_trans (Int.sub_nonneg_of_le hw1) hs2
  cases hc with
  | policy hno => exact (hno ⟨h.attempted,h.remaining,h.policy⟩).elim
  | clock hno => exact absurd h.clock (by simp [hno])
  | hintTime => exact hhead _ rfl rfl rfl hb0 (Int.le_refl _) (by simp [validRejectedActivitySchedule,hbase])
  | hintLabel _ ht hl =>
    exact hhead _ rfl rfl rfl hb0 (Int.le_refl _) (by simp [validRejectedActivitySchedule,hbase,ht,hl])
  | random _ hh hw =>
    exact hhead _ rfl rfl rfl hb0 (Int.le_refl _) (by simp [validRejectedActivitySchedule,hbase,hwidth,hh,hw])
  | deadline _ hh _ selected d hsel hd hbad =>
    subst hsel hd
    refine hhead _ rfl rfl rfl hs0 hs1 ?_
    simp only [validRejectedActivitySchedule,hbase,hwidth,hh,Time.isZero_zero,beq_self_eq_true,
      Bool.true_and,Bool.and_eq_true,Bool.or_eq_true,Bool.not_eq_true',decide_eq_false_iff_not,Int.not_lt]
    exact ⟨hs2,hbad.symm⟩
  | accepted _ hh _ selected _ hsel hd hgood =>
    rw [hd]
    subst hsel
    have hexp : choice.expected = ActivityRetryScheduleDecision.expected
        ⟨attempt,now,base,selectedRetryDelay base width sample,hint,choice.expected,none⟩ := by rw [← hd]
    refine hhead _ rfl rfl rfl hs0 hs1 ?_
    simp only [hbase,hwidth,hgood.2,← hexp,beq_self_eq_true,Bool.true_and,Bool.and_true,Bool.and_eq_true,
      Bool.not_eq_true',decide_eq_false_iff_not,Int.not_lt]
    exact ⟨hs2,hh⟩

theorem chooseActivityRetrySchedule_valid
    (hduration : policy.schedule.maxDelay < 2 ^ 63)
    (hchoice : chooseActivityRetrySchedule policy attempt now hint sample = choice)
    (h : choice.rejection = none) :
    validActivityRetryScheduleDecision policy (some choice) = true ∧ choice.attempt = attempt ∧
      choice.preparedAt = now := by
  have hcases := chooseActivityRetrySchedule_cases policy attempt now hint sample
  rw [hchoice] at hcases
  have hok : Schedulable policy attempt now := by
    cases hcases with
    | policy | clock => cases h
    | hintTime hok | hintLabel hok | random hok | deadline hok | accepted hok => exact hok
  refine ⟨hcases.valid hok hduration,?_,?_⟩
  all_goals
    cases hcases with
    | policy | clock | hintTime | hintLabel | random => rfl
    | deadline _ _ _ _ _ _ hd | accepted _ _ _ _ _ _ hd => rw [hd]

end Choice
end Arithmetic
end Flowy
