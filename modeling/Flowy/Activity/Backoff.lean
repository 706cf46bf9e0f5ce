import Mathlib.Algebra.Order.Ring.Int
import Flowy.Activity.Schedule

/-! The delays of a schedule against the formulas they stand for. The code never forms the product of
a delay and a multiplier, or of a delay and a jitter, before it knows that it fits. -/
namespace Flowy

section Base

variable {schedule : ActivityRetrySchedule} {delay : Duration}

/-- The values of `delay` in the rounds that `activityRetryBaseDelay` goes through. -/
def activityRetryRounds (schedule : ActivityRetrySchedule) : Nat → Duration → List Duration
  | 0, _ => []
  | n + 1, delay =>
    if delay < schedule.maxDelay then
      delay :: if schedule.multiplier > uint64 (schedule.maxDelay.tdiv delay) then []
        else activityRetryRounds schedule n (int64 (delay * int64 schedule.multiplier))
    else []

structure RoundInRange (schedule : ActivityRetrySchedule) (delay : Duration) : Prop where
  divisor : 0 < delay
  quotient : 0 ≤ schedule.maxDelay.tdiv delay ∧ schedule.maxDelay.tdiv delay < 2 ^ 63
  product : schedule.multiplier ≤ uint64 (schedule.maxDelay.tdiv delay) →
    (schedule.multiplier : Int) < 2 ^ 63 ∧ 0 ≤ delay * schedule.multiplier ∧
      delay * schedule.multiplier < 2 ^ 63

theorem RoundInRange.of_bounds (h : schedule.maxDelay < 2 ^ 63) (h0 : 0 < delay)
    (hle : delay ≤ schedule.maxDelay) : RoundInRange schedule delay := by
  have hmax : 0 ≤ schedule.maxDelay := Int.le_trans (Int.le_of_lt h0) hle
  refine ⟨h0,⟨Int.tdiv_nonneg hmax (Int.le_of_lt h0),
    Int.lt_of_le_of_lt (Int.tdiv_le_self _ hmax) h⟩,fun hmul => ?_⟩
  obtain ⟨hlt,hprod,-⟩ := activityRetryRound_exact h (Int.le_of_lt h0) hle hmul
  exact ⟨hlt,Int.mul_nonneg (Int.le_of_lt h0) (Int.natCast_nonneg _),Int.lt_of_le_of_lt hprod h⟩

theorem activityRetryRounds_inRange (h : schedule.maxDelay < 2 ^ 63) (hm : 0 < schedule.multiplier) (n : Nat)
    (h0 : 0 < delay) (hle : delay ≤ schedule.maxDelay) :
    ∀ d ∈ activityRetryRounds schedule n delay, RoundInRange schedule d := by
  induction n generalizing delay with
  | zero => simp [activityRetryRounds]
  | succ n ih =>
    intro d hd
    unfold activityRetryRounds at hd
    split at hd
    · rcases List.mem_cons.mp hd with rfl | hd
      · exact .of_bounds h h0 hle
      · split at hd
        · cases hd
        · rename_i hmul
          obtain ⟨-,hprod,hexact⟩ := activityRetryRound_exact h (Int.le_of_lt h0) hle (Nat.not_lt.mp hmul)
          rw [hexact] at hd
          exact ih (Int.mul_pos h0 (Int.natCast_pos.mpr hm)) hprod d hd
    · cases hd

/-- The loop against the power it computes: while the product fits the cap it is exact, and the guard
stops exactly when the next product exceeds the cap. -/
theorem activityRetryBaseDelayLoop_eq (h : schedule.maxDelay < 2 ^ 63) (hm : 1 ≤ schedule.multiplier) (n : Nat)
    (h0 : 0 < delay) (hle : delay ≤ schedule.maxDelay) :
    activityRetryBaseDelayLoop schedule n delay =
      min schedule.maxDelay (delay * (schedule.multiplier : Int) ^ n) := by
  have hone : (1 : Int) ≤ schedule.multiplier := by exact_mod_cast hm
  induction n generalizing delay with
  | zero => rw [activityRetryBaseDelayLoop,pow_zero,mul_one,min_eq_right hle]
  | succ n ih =>
    have hpow : (1 : Int) ≤ (schedule.multiplier : Int) ^ n := one_le_pow₀ hone
    unfold activityRetryBaseDelayLoop
    split
    · split
      · rename_i hlt hmul
        -- the quotient is too small, so already one product exceeds the cap
        have hmax : 0 ≤ schedule.maxDelay := Int.le_trans (Int.le_of_lt h0) hle
        have hq0 : 0 ≤ schedule.maxDelay.tdiv delay := Int.tdiv_nonneg hmax (Int.le_of_lt h0)
        have hqle : schedule.maxDelay.tdiv delay ≤ schedule.maxDelay := Int.tdiv_le_self _ hmax
        have hq : schedule.maxDelay.tdiv delay < schedule.multiplier := by
          rw [← uint64_of_range hq0 (Int.lt_of_le_of_lt hqle h)]
          exact_mod_cast hmul
        rw [Int.tdiv_eq_ediv_of_nonneg hmax] at hq
        have hexceeds : schedule.maxDelay < delay * schedule.multiplier := by
          rw [mul_comm]
          exact (Int.ediv_lt_iff_lt_mul h0).mp hq
        have hgrow : delay * schedule.multiplier ≤ delay * (schedule.multiplier : Int) ^ (n + 1) := by
          rw [pow_succ',← mul_assoc]
          exact le_mul_of_one_le_right (Int.mul_nonneg (Int.le_of_lt h0) (Int.natCast_nonneg _)) hpow
        rw [min_eq_left (Int.le_trans (Int.le_of_lt hexceeds) hgrow)]
      · rename_i hlt hmul
        obtain ⟨-,hprod,hexact⟩ := activityRetryRound_exact h (Int.le_of_lt h0) hle (Nat.not_lt.mp hmul)
        rw [hexact,ih (Int.mul_pos h0 (by omega)) hprod,pow_succ',mul_assoc]
    · rename_i hlt
      have hcap : delay = schedule.maxDelay := Int.le_antisymm hle (Int.not_lt.mp hlt)
      have hgrow : delay ≤ delay * (schedule.multiplier : Int) ^ (n + 1) :=
        le_mul_of_one_le_right (Int.le_of_lt h0) (one_le_pow₀ hone)
      rw [← hcap,min_eq_left hgrow]

end Base

section Jitter

structure ExactJitter (delay : Duration) (permille : Nat) : Prop where
  floor : activityRetryJitterWidth delay permille = delay * permille / 1000
  nonneg : 0 ≤ activityRetryJitterWidth delay permille
  le : activityRetryJitterWidth delay permille ≤ delay
  high : 0 ≤ delay.tdiv retryJitterDenominator * permille ∧
    delay.tdiv retryJitterDenominator * permille < 2 ^ 63
  low : 0 ≤ delay.tmod retryJitterDenominator * permille ∧
    delay.tmod retryJitterDenominator * permille < 2 ^ 63
  sum : delay.tdiv retryJitterDenominator * permille +
    (delay.tmod retryJitterDenominator * permille).tdiv retryJitterDenominator < 2 ^ 63

theorem activityRetryJitterWidth_exact {delay : Duration} {permille : Nat} (h0 : 0 ≤ delay)
    (h1 : delay < 2 ^ 63) (hp : permille ≤ 1000) : ExactJitter delay permille := by
  obtain ⟨hn,hle⟩ := activityRetryJitterWidth_range h0 h1 hp
  unfold Duration at *
  have hden : retryJitterDenominator = 1000 := rfl
  -- split the delay once; both products are then linear in the jitter
  obtain ⟨q,r,hq,hr,hq0,hr0,hr1,hsum⟩ : ∃ q r : Int, delay.tdiv 1000 = q ∧ delay.tmod 1000 = r ∧ 0 ≤ q ∧
      0 ≤ r ∧ r < 1000 ∧ q * 1000 + r = delay := by
    rw [Int.tdiv_eq_ediv_of_nonneg h0,Int.tmod_eq_emod_of_nonneg h0]
    exact ⟨_,_,rfl,rfl,by omega,by omega,by omega,by omega⟩
  have hqp : q * permille ≤ q * 1000 := Int.mul_le_mul_of_nonneg_left (by omega) hq0
  have hrp : r * permille ≤ r * 1000 := Int.mul_le_mul_of_nonneg_left (by omega) hr0
  have hqp0 : 0 ≤ q * permille := Int.mul_nonneg hq0 (by omega)
  have hrp0 : 0 ≤ r * permille := Int.mul_nonneg hr0 (by omega)
  have hdiv : (r * permille).tdiv 1000 = r * permille / 1000 := Int.tdiv_eq_ediv_of_nonneg hrp0
  refine ⟨?_,hn,hle,?_,?_,?_⟩
  · have hexact : delay * permille = q * permille * 1000 + r * permille := by
      rw [← hsum,add_mul,mul_right_comm]
    unfold activityRetryJitterWidth
    rw [hden,hq,hr,int64_of_range hqp0 (by omega),int64_of_range hrp0 (by omega),hdiv,
      int64_of_range (by omega) (by omega),hexact]
    unfold Duration
    omega
  · rw [hden,hq]
    omega
  · rw [hden,hr]
    omega
  · rw [hden,hq,hr,hdiv]
    omega

end Jitter

section Schedules

variable {schedule : ActivityRetrySchedule}

theorem validateActivitySchedule_eq_ok (h : validateActivitySchedule schedule = .ok ()) :
    0 ≤ schedule.initialDelay ∧ schedule.initialDelay ≤ schedule.maxDelay ∧ schedule.jitterPermille ≤ 1000 ∧
      ((schedule.kind = .fixed ∧ schedule.maxDelay = schedule.initialDelay) ∨
        (schedule.kind = .exponential ∧ 0 < schedule.initialDelay ∧ 2 ≤ schedule.multiplier)) := by
  unfold validateActivitySchedule at h
  split at h
  · cases h
  · rename_i hrange
    simp only [Bool.or_eq_true,decide_eq_true_eq,not_or,Int.not_lt] at hrange
    obtain ⟨⟨⟨h1,h2⟩,h3⟩,-⟩ := hrange
    refine ⟨h1,h2,Nat.not_lt.mp h3,?_⟩
    split at h
    · rename_i hkind
      simp only [require_eq_ok,Bool.not_eq_true',Bool.or_eq_false_iff,bne_eq_false_iff_eq] at h
      exact .inl ⟨hkind,h.2⟩
    · rename_i hkind
      simp only [require_eq_ok,Bool.not_eq_true',Bool.or_eq_false_iff,decide_eq_false_iff_not,Int.not_le,
        Nat.not_lt] at h
      exact .inr ⟨hkind,h⟩
    · cases h

structure ExactBackoff (schedule : ActivityRetrySchedule) : Prop where
  fixed : schedule.kind = .fixed → ∀ attempt, 1 ≤ attempt →
    activityRetryBaseDelay schedule attempt = schedule.initialDelay
  exponential : schedule.kind = .exponential → ∀ attempt, 1 ≤ attempt →
    activityRetryBaseDelay schedule attempt =
      min schedule.maxDelay (schedule.initialDelay * (schedule.multiplier : Int) ^ (attempt - 1))
  monotone : ∀ attempt attempt', 1 ≤ attempt → attempt ≤ attempt' →
    activityRetryBaseDelay schedule attempt ≤ activityRetryBaseDelay schedule attempt'
  rounds : ∀ attempt, 1 ≤ attempt →
    ∀ delay ∈ activityRetryRounds schedule (attempt - 1) schedule.initialDelay, RoundInRange schedule delay
  jitter : ∀ delay, 0 ≤ delay → delay < 2 ^ 63 → ExactJitter delay schedule.jitterPermille
  selected : ∀ policy attempt now hint sample, policy.schedule = schedule → Schedulable policy attempt now →
    let base := activityRetryBaseDelay schedule attempt
    let selected := (chooseActivityRetrySchedule policy attempt now hint sample).selectedDelay
    base - activityRetryJitterWidth base schedule.jitterPermille ≤ selected ∧ selected ≤ base
  selectable : ∀ policy attempt now hint, policy.schedule = schedule → Schedulable policy attempt now →
    validActivityScheduleHint policy hint = true →
    let base := activityRetryBaseDelay schedule attempt
    ∀ delay, base - activityRetryJitterWidth base schedule.jitterPermille ≤ delay → delay ≤ base →
      ∃ sample, sample < 2 ^ 64 ∧
        (chooseActivityRetrySchedule policy attempt now hint (some sample)).selectedDelay = delay

theorem Chosen.selectedDelay {policy : ActivityRetryPolicy} {attempt : Nat} {now hint : Time}
    {sample : Option Nat} {base width : Duration} {choice : ActivityRetryScheduleDecision}
    (h : Schedulable policy attempt now) (hc : Chosen policy attempt now hint sample base width choice) :
    choice.selectedDelay = base ∨ choice.selectedDelay = selectedRetryDelay base width sample := by
  cases hc with
  | policy hno => exact (hno ⟨h.attempted,h.remaining,h.policy⟩).elim
  | clock hno => exact absurd h.clock (by simp [hno])
  | hintTime | hintLabel | random => exact .inl rfl
  | deadline _ _ _ selected _ hsel hd | accepted _ _ _ selected _ hsel hd =>
    rw [hd]
    exact .inr hsel

theorem Chosen.selectedDelay_of_sample {policy : ActivityRetryPolicy} {attempt : Nat} {now hint : Time}
    {sample : Nat} {base width : Duration} {choice : ActivityRetryScheduleDecision}
    (h : Schedulable policy attempt now) (hh : validActivityScheduleHint policy hint = true)
    (hc : Chosen policy attempt now hint (some sample) base width choice) :
    choice.selectedDelay = selectedRetryDelay base width (some sample) := by
  have hhint : hint.isZero = true ∨
      policy.schedule.hintLabel ≠ [] ∧ activityScheduleTimeValid hint = true := by
    simpa [validActivityScheduleHint] using hh
  cases hc with
  | policy hno => exact (hno ⟨h.attempted,h.remaining,h.policy⟩).elim
  | clock hno => exact absurd h.clock (by simp [hno])
  | hintTime _ hz ht => simp [hz,ht] at hhint
  | hintLabel _ ht hl =>
    rcases hhint with hz | ⟨hne,-⟩
    · simp [activityScheduleTimeValid,hz] at ht
    · exact absurd hl hne
  | random _ _ _ hs => cases hs
  | deadline _ _ _ selected _ hsel hd | accepted _ _ _ selected _ hsel hd =>
    rw [hd]
    exact hsel

theorem selectedRetryDelay_surjective {base width delay : Duration} (hw0 : 0 ≤ width) (hw1 : width ≤ base)
    (hb : base < 2 ^ 63) (hlow : base - width ≤ delay) (hhigh : delay ≤ base) :
    ∃ sample, sample < 2 ^ 64 ∧ selectedRetryDelay base width (some sample) = delay := by
  unfold Duration selectedRetryDelay at *
  refine ⟨(base - delay).toNat,by omega,?_⟩
  split
  · have hu := uint64_of_range hw0 (by omega)
    have hdistance : int64 (base - delay) = base - delay := int64_of_range (by omega) (by omega)
    rw [Option.getD_some,Nat.mod_eq_of_lt (by omega),Int.toNat_of_nonneg (by omega),hdistance,
      int64_of_range (by omega) (by omega)]
    omega
  · rename_i hw
    change ¬(0 : Int) < width at hw
    omega

/-- Every `time.Duration` is below `2 ^ 63`. -/
theorem backoff_exact (h : validateActivitySchedule schedule = .ok ())
    (hduration : schedule.maxDelay < 2 ^ 63) : ExactBackoff schedule := by
  obtain ⟨hinitial,hordered,hjitter,hkind⟩ := validateActivitySchedule_eq_ok h
  have hrange : ScheduleRange schedule := ⟨hinitial,hordered,hjitter,hduration⟩
  have hexp : schedule.kind = .exponential → 0 < schedule.initialDelay ∧ 2 ≤ schedule.multiplier := by
    intro hk
    rcases hkind with ⟨hf,-⟩ | ⟨-,hfacts⟩
    · rw [hf] at hk
      cases hk
    · exact hfacts
  have hformula : schedule.kind = .exponential → ∀ attempt, activityRetryBaseDelay schedule attempt =
      min schedule.maxDelay (schedule.initialDelay * (schedule.multiplier : Int) ^ (attempt - 1)) := by
    intro hk attempt
    obtain ⟨hpos,hm⟩ := hexp hk
    rw [activityRetryBaseDelay,if_pos hk,activityRetryBaseDelayLoop_eq hduration (by omega) _ hpos hordered]
  have hfixed : schedule.kind ≠ .exponential → ∀ attempt,
      activityRetryBaseDelay schedule attempt = schedule.initialDelay := by
    intro hk attempt
    rw [activityRetryBaseDelay,if_neg hk]
  have hwidth : ∀ attempt, 0 ≤ activityRetryBaseDelay schedule attempt ∧
      activityRetryBaseDelay schedule attempt < 2 ^ 63 ∧ ExactJitter
        (activityRetryBaseDelay schedule attempt) schedule.jitterPermille := by
    intro attempt
    obtain ⟨hb0,hb1⟩ := activityRetryBaseDelay_range hrange attempt
    exact ⟨hb0,hb1,activityRetryJitterWidth_exact hb0 hb1 hjitter⟩
  refine ⟨fun hk attempt _ => hfixed (by simp [hk]) attempt,fun hk attempt _ => hformula hk attempt,?_,?_,?_,?_,?_⟩
  · intro attempt attempt' _ hle
    by_cases hk : schedule.kind = .exponential
    · obtain ⟨hpos,hm⟩ := hexp hk
      rw [hformula hk,hformula hk]
      have hone : (1 : Int) ≤ schedule.multiplier := by exact_mod_cast (show 1 ≤ schedule.multiplier by omega)
      have hpow := pow_le_pow_right₀ hone (show attempt - 1 ≤ attempt' - 1 by omega)
      exact min_le_min_left _ (Int.mul_le_mul_of_nonneg_left hpow hinitial)
    · rw [hfixed hk,hfixed hk]
  · intro attempt _ delay hd
    rcases hkind with ⟨-,hcap⟩ | ⟨hk,hpos,hm⟩
    · -- a fixed delay is at its cap, so there is no round
      cases hn : attempt - 1 with
      | zero =>
        rw [hn] at hd
        cases hd
      | succ n =>
        rw [hn,activityRetryRounds,if_neg (by rw [hcap]; exact Int.lt_irrefl _)] at hd
        cases hd
    · exact activityRetryRounds_inRange hduration (by omega) _ hpos hordered delay hd
  · intro delay h0 h1
    exact activityRetryJitterWidth_exact h0 h1 hjitter
  · rintro policy attempt now hint sample rfl hs
    obtain ⟨hb0,hb1,hj⟩ := hwidth attempt
    obtain ⟨hs1,hs2⟩ := selectedRetryDelay_range hj.nonneg hj.le hb1 sample
    rcases (chooseActivityRetrySchedule_cases policy attempt now hint sample).selectedDelay hs with heq | heq
    · rw [heq]
      exact ⟨Int.sub_le_self _ hj.nonneg,Int.le_refl _⟩
    · rw [heq]
      exact ⟨hs2,hs1⟩
  · rintro policy attempt now hint rfl hs hh base delay hlow hhigh
    obtain ⟨hb0,hb1,hj⟩ := hwidth attempt
    obtain ⟨sample,hlt,hsel⟩ := selectedRetryDelay_surjective hj.nonneg hj.le hb1 hlow hhigh
    refine ⟨sample,hlt,?_⟩
    rw [(chooseActivityRetrySchedule_cases policy attempt now hint (some sample)).selectedDelay_of_sample hs hh]
    exact hsel

def steepSchedule : ActivityRetrySchedule :=
  { kind := .exponential, initialDelay := 3, maxDelay := 2 ^ 63 - 1, multiplier := 2 ^ 31,
    jitterPermille := 1000, hintLabel := [] }

theorem backoff_exact_steep : activityRetryBaseDelay steepSchedule 3 = 2 ^ 63 - 1 ∧
    ExactBackoff steepSchedule :=
  ⟨by decide,backoff_exact rfl (by decide)⟩

end Schedules
end Flowy
