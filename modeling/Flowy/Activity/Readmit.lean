import Flowy.Activity.Invariant

/-! Re-admission of the journal. Calls validate the record they write; a manual resolution does not,
so that its record passes the validator is proved from what the validator said about the old one. -/
namespace Flowy

open Fencing

section Records

variable {record : ActivityRecord}

theorem validActivityAttempts_iff : validActivityAttempts record = true ↔
    ∀ i a, record.attempts[i]? = some a → a.number = i + 1 ∧ a.incarnation ≠ 0 ∧
      a.startedAt.isZero = false ∧ validateActivityAttempt a = true ∧
      (a.state = .running → i = record.attempts.length - 1) := by
  simp only [validActivityAttempts,List.all_eq_true,Prod.forall,List.mem_zipIdx_iff_getElem?,
    Bool.and_eq_true,beq_iff_eq,bne_iff_ne,Bool.not_eq_true',Bool.and_eq_false_iff,
    beq_eq_false_iff_ne,bne_eq_false_iff_eq]
  constructor
  · intro h i a ha
    obtain ⟨⟨⟨⟨h1,h2⟩,h3⟩,h4⟩,h5⟩ := h a i ha
    exact ⟨h1,h2,h3,h4,fun hrun => h5.resolve_left (not_not.mpr hrun)⟩
  · intro h a i ha
    obtain ⟨h1,h2,h3,h4,h5⟩ := h i a ha
    exact ⟨⟨⟨⟨h1,h2⟩,h3⟩,h4⟩,Decidable.or_iff_not_imp_left.mpr fun hrun => h5 (not_not.mp hrun)⟩

def validAttemptSchedule (record : ActivityRecord) (i : Nat) (attempt : ActivityAttempt) : Bool :=
  match attempt.retrySchedule with
  | none => !(attempt.state == .failed && attempt.classification == some .retryable &&
      attempt.number < record.retry.maxAttempts)
  | some choice =>
    attempt.state == .failed && attempt.classification == some .retryable &&
      choice.attempt == attempt.number && choice.preparedAt == attempt.finishedAt &&
      validActivityRetryScheduleDecision record.retry (some choice) &&
      match record.attempts[i + 1]? with
      | none => true
      | some next => choice.rejection.isNone && !next.startedAt.before choice.deadline

theorem validateActivityRecordSchedules_iff : validateActivityRecordSchedules record = true ↔
    ∀ i a, record.attempts[i]? = some a → validAttemptSchedule record i a = true := by
  simp only [validateActivityRecordSchedules,List.all_eq_true,Prod.forall,List.mem_zipIdx_iff_getElem?]
  exact ⟨fun h i a ha => h a i ha,fun h a i ha => h i a ha⟩

theorem validActivityDecisionsFrom_snoc {d : ActivityResolutionRecord}
    (hd : validActivityDecision record [] 0 0 d = true) {ds : List ActivityResolutionRecord}
    {seen : List Text} {n m : Nat} (h : validActivityDecisionsFrom record ds seen n m = true)
    (hseen : d.decisionID ∉ seen) (hn : n < d.attempt) (hm : m < d.sourceRevision)
    (hids : ∀ x ∈ ds, x.decisionID ≠ d.decisionID) (hattempts : ∀ x ∈ ds, x.attempt < d.attempt)
    (hsources : ∀ x ∈ ds, x.sourceRevision < d.sourceRevision) :
    validActivityDecisionsFrom record (ds ++ [d]) seen n m = true := by
  induction ds generalizing seen n m with
  | nil =>
    simp only [List.nil_append,validActivityDecisionsFrom,Bool.and_true]
    simp only [validActivityDecision,Bool.and_eq_true,Bool.not_eq_true',Bool.or_eq_false_iff,
      List.contains_eq_mem,decide_eq_false_iff_not] at hd ⊢
    obtain ⟨⟨⟨⟨⟨⟨⟨⟨⟨⟨⟨⟨⟨-,h2⟩,h3⟩,h4⟩,h5⟩,h6⟩,-⟩,-⟩,h9⟩,h10⟩,h11⟩,h12⟩,h13⟩,h14⟩ := hd
    exact ⟨⟨⟨⟨⟨⟨⟨⟨⟨⟨⟨⟨⟨hseen,h2⟩,h3⟩,h4⟩,h5⟩,h6⟩,by omega⟩,by omega⟩,h9⟩,h10⟩,h11⟩,h12⟩,h13⟩,h14⟩
  | cons x ds ih =>
    simp only [validActivityDecisionsFrom,Bool.and_eq_true,List.cons_append] at h ⊢
    refine ⟨h.1,ih h.2 ?_ (hattempts x List.mem_cons_self) (hsources x List.mem_cons_self) ?_ ?_ ?_⟩
    · simp only [List.mem_cons,not_or]
      exact ⟨(hids x List.mem_cons_self).symm,hseen⟩
    · exact fun y hy => hids y (List.mem_cons_of_mem _ hy)
    · exact fun y hy => hattempts y (List.mem_cons_of_mem _ hy)
    · exact fun y hy => hsources y (List.mem_cons_of_mem _ hy)

theorem validActivityDecisionsFrom_imp {r r' : ActivityRecord} {ds : List ActivityResolutionRecord}
    {seen : List Text} {n m : Nat} (h : ∀ d ∈ ds, ∀ seen n m, validActivityDecision r seen n m d = true →
      validActivityDecision r' seen n m d = true) (hv : validActivityDecisionsFrom r ds seen n m = true) :
    validActivityDecisionsFrom r' ds seen n m = true := by
  induction ds generalizing seen n m with
  | nil => rfl
  | cons d ds ih =>
    simp only [validActivityDecisionsFrom,Bool.and_eq_true] at hv ⊢
    exact ⟨h d List.mem_cons_self _ _ _ hv.1,ih (fun x hx => h x (List.mem_cons_of_mem _ hx)) hv.2⟩

end Records

section Kept

/-- What reading back, or closing a running attempt as unknown, leaves of an attempt. -/
structure KeptAttempt (a a' : ActivityAttempt) : Prop where
  number : a'.number = a.number
  incarnation : a'.incarnation = a.incarnation
  startedAt : a'.startedAt = a.startedAt
  finishedAt : a'.finishedAt = a.finishedAt
  retrySchedule : a'.retrySchedule = a.retrySchedule
  outcome : (a'.state = a.state ∧ a'.classification = a.classification ∧ (a.error = [] → a'.error = [])) ∨
    (a.state = .running ∧ a'.state = .unknown ∧ a'.classification = some .ambiguous)

theorem KeptAttempt.reread (a : ActivityAttempt) : KeptAttempt a a.reread :=
  ⟨rfl,rfl,rfl,rfl,rfl,.inl ⟨rfl,rfl,fun h => by simp only [ActivityAttempt.reread,h]; rfl⟩⟩

theorem KeptAttempt.refl (a : ActivityAttempt) : KeptAttempt a a :=
  ⟨rfl,rfl,rfl,rfl,rfl,.inl ⟨rfl,rfl,id⟩⟩

theorem KeptAttempt.valid {a a' : ActivityAttempt} (h : KeptAttempt a a')
    (hv : validateActivityAttempt a = true) : validateActivityAttempt a' = true := by
  rcases h.outcome with ⟨hs,hc,he⟩ | ⟨-,hs,hc⟩
  · unfold validateActivityAttempt at hv ⊢
    rw [hs,hc,h.finishedAt]
    cases hstate : a.state with
    | prepared => simp [hstate] at hv
    | failed | unknown => simpa [hstate] using hv
    | running | completed =>
      simp only [hstate,Bool.and_eq_true,beq_iff_eq] at hv ⊢
      exact ⟨hv.1,he hv.2⟩
  · simp [validateActivityAttempt,hs,hc]

structure KeepsRecord (r r' : ActivityRecord) (extra : List ActivityResolutionRecord) : Prop where
  attempts : List.Forall₂ KeptAttempt r.attempts r'.attempts
  retry : r'.retry = r.retry
  resolutions : r'.resolutions = r.resolutions ++ extra

variable {r r' : ActivityRecord} {extra : List ActivityResolutionRecord}

theorem KeepsRecord.length (h : KeepsRecord r r' extra) : r'.attempts.length = r.attempts.length :=
  h.attempts.length_eq.symm

theorem KeepsRecord.getElem? (h : KeepsRecord r r' extra) {i : Nat} {a' : ActivityAttempt}
    (ha : r'.attempts[i]? = some a') : ∃ a, r.attempts[i]? = some a ∧ KeptAttempt a a' := by
  obtain ⟨hi,rfl⟩ := List.getElem?_eq_some_iff.mp ha
  have hi' : i < r.attempts.length := by rw [← h.length]; exact hi
  exact ⟨r.attempts[i],List.getElem?_eq_getElem hi',List.forall₂_iff_get.mp h.attempts |>.2 i hi' hi⟩

theorem KeepsRecord.validAttempts (h : KeepsRecord r r' extra) (hv : validActivityAttempts r = true) :
    validActivityAttempts r' = true := by
  rw [validActivityAttempts_iff] at hv ⊢
  intro i a' ha'
  obtain ⟨a,ha,hk⟩ := h.getElem? ha'
  obtain ⟨h1,h2,h3,h4,h5⟩ := hv i a ha
  refine ⟨hk.number.trans h1,by rw [hk.incarnation]; exact h2,by rw [hk.startedAt]; exact h3,hk.valid h4,
    fun hrun => ?_⟩
  rw [h.length]
  rcases hk.outcome with ⟨hs,-⟩ | ⟨-,hs,-⟩
  · exact h5 (hs.symm.trans hrun)
  · rw [hs] at hrun
    cases hrun

/-- Earlier decisions look at an attempt's number, start and unknown outcome only. -/
theorem KeepsRecord.validDecision (h : KeepsRecord r r' extra) {seen : List Text} {n m : Nat}
    {d : ActivityResolutionRecord} (hv : validActivityDecision r seen n m d = true) :
    validActivityDecision r' seen n m d = true := by
  have hstart : ∀ p : Time → Bool, (r'.attempts[d.attempt]?.any fun a => p a.startedAt) =
      r.attempts[d.attempt]?.any fun a => p a.startedAt := by
    intro p
    cases ha' : r'.attempts[d.attempt]? with
    | none =>
      have hnone : r.attempts[d.attempt]? = none := by
        rw [List.getElem?_eq_none_iff] at ha' ⊢
        rw [← h.length]
        exact ha'
      rw [hnone]
    | some a' =>
      obtain ⟨a,ha,hk⟩ := h.getElem? ha'
      simp [ha,hk.startedAt]
  simp only [validActivityDecision,Bool.and_eq_true] at hv ⊢
  obtain ⟨⟨⟨⟨h1,h2⟩,h3⟩,h4⟩,h5⟩ := hv
  refine ⟨⟨⟨⟨by rw [h.length]; exact h1,?_⟩,by rw [h.retry]; exact h3⟩,?_⟩,by rw [h.length]; exact h5⟩
  · obtain ⟨a,ha,hs⟩ := (Option.any_eq_true _ _).mp h2
    obtain ⟨hi,-⟩ := List.getElem?_eq_some_iff.mp ha
    have hi' : d.attempt - 1 < r'.attempts.length := by rw [h.length]; exact hi
    obtain ⟨a0,ha0,hk⟩ := h.getElem? (List.getElem?_eq_getElem hi')
    rw [ha] at ha0
    cases ha0
    rw [List.getElem?_eq_getElem hi',Option.any_some]
    rcases hk.outcome with ⟨hs',-⟩ | ⟨-,hs',-⟩
    · rw [hs']
      exact hs
    · rw [hs']
      rfl
  · rw [h.length,hstart fun t => d.retrySchedule.any fun s => t.before s.deadline]
    exact h4

theorem KeepsRecord.validDecisionsFrom (h : KeepsRecord r r' extra) {ds : List ActivityResolutionRecord}
    {seen : List Text} {n m : Nat} (hv : validActivityDecisionsFrom r ds seen n m = true) :
    validActivityDecisionsFrom r' ds seen n m = true :=
  validActivityDecisionsFrom_imp (fun _ _ _ _ _ hd => h.validDecision hd) hv

theorem KeepsRecord.validSchedules (h : KeepsRecord r r' extra)
    (hv : validateActivityRecordSchedules r = true) : validateActivityRecordSchedules r' = true := by
  rw [validateActivityRecordSchedules_iff] at hv ⊢
  intro i a' ha'
  obtain ⟨a,ha,hk⟩ := h.getElem? ha'
  have hold := hv i a ha
  unfold validAttemptSchedule at hold ⊢
  rw [hk.retrySchedule,hk.number,hk.finishedAt,h.retry]
  rcases hk.outcome with ⟨hs,hc,-⟩ | ⟨hrun,hs,hc⟩
  · rw [hs,hc]
    cases hsch : a.retrySchedule with
    | none => simpa [hsch] using hold
    | some choice =>
      simp only [hsch,Bool.and_eq_true] at hold ⊢
      refine ⟨hold.1,?_⟩
      cases hn : r'.attempts[i + 1]? with
      | none => rfl
      | some next' =>
        obtain ⟨next,hnext,hkn⟩ := h.getElem? hn
        simpa [hnext,hkn.startedAt] using hold.2
  · -- a running attempt has no schedule yet
    cases hsch : a.retrySchedule with
    | none => simp [hs]
    | some choice => simp [hsch,hrun] at hold

theorem KeepsRecord.validHistory (h : KeepsRecord r r' extra)
    (hv : validateActivityAttemptHistory r = true) : validateActivityAttemptHistory r' = true := by
  simp only [validateActivityAttemptHistory,List.all_eq_true] at hv ⊢
  intro a' ha'
  obtain ⟨i,hi⟩ := List.getElem?_of_mem ha'
  have hlen : r'.attempts.dropLast.length = r.attempts.dropLast.length := by simp [h.length]
  have hlt : i < r.attempts.dropLast.length := by
    rw [← hlen]
    exact (List.getElem?_eq_some_iff.mp hi).1
  have hget : r'.attempts[i]? = some a' := by
    rw [List.getElem?_dropLast] at hi
    split at hi
    · exact hi
    · cases hi
  obtain ⟨a,ha,hk⟩ := h.getElem? hget
  have hmem : a ∈ r.attempts.dropLast := by
    refine List.mem_of_getElem? (i := i) ?_
    rw [List.getElem?_dropLast,if_pos (by simpa using hlt)]
    exact ha
  have hold := hv a hmem
  simp only [h.retry,Bool.and_eq_true] at hold ⊢
  refine ⟨hold.1,?_⟩
  rcases hk.outcome with ⟨hs,hc,-⟩ | ⟨hrun,-⟩
  · rw [hs,hc,hk.number]
    cases hstate : a.state with
    | prepared | running | completed => simp [hstate] at hold
    | failed => simpa [hstate] using hold.2
    | unknown =>
      have hdec := hold.2
      simp only [hstate,hasActivityRetryDecision,h.resolutions,List.any_append,Bool.or_eq_true] at hdec ⊢
      exact .inl hdec
  · simp [hrun] at hold

theorem KeepsRecord.reread (r : ActivityRecord) : KeepsRecord r r.reread [] :=
  ⟨List.forall₂_map_right_iff.mpr (List.forall₂_same.mpr fun a _ => .reread a),rfl,by simp⟩

theorem validateActivityRecordState_reread (r : ActivityRecord) :
    validateActivityRecordState r.reread = validateActivityRecordState r := by
  unfold validateActivityRecordState
  rw [show r.reread.attempts.getLast? = r.attempts.getLast?.map ActivityAttempt.reread from
    List.getLast?_map]
  cases r.attempts.getLast? with
  | none => rfl
  | some last =>
    simp only [Option.map_some,reread_state]
    cases r.state with
    | prepared =>
      simp only [validPreparedActivity,reread_length]
      rfl
    | running | unknown | completed | failed => rfl

theorem validManualActivityOrigin_reread (r : ActivityRecord) :
    validManualActivityOrigin r.reread = validManualActivityOrigin r := by
  unfold validManualActivityOrigin
  rw [reread_resolutions,reread_state,reread_length]

theorem closeRunning_keeps (hs : r.state = .running ∨ r.state = .unknown)
    (hstate : validateActivityRecordState r = true) :
    KeepsRecord r (closeRunning r) [] ∧
      ∃ a, (closeRunning r).attempts.getLast? = some a ∧ a.state = .unknown := by
  rcases List.eq_nil_or_concat r.attempts with hnil | ⟨as,a,hsplit⟩
  · rcases hs with hs | hs <;> simp [validateActivityRecordState,hnil,hs] at hstate
  rw [List.concat_eq_append] at hsplit
  unfold closeRunning
  rcases hs with hs | hs
  · have hrun : a.state = .running := by
      simp only [validateActivityRecordState,hsplit,List.getLast?_concat,hs,Bool.and_eq_true,
        beq_iff_eq] at hstate
      exact hstate.1.1.1
    rw [if_pos hs]
    simp only [updateLast,hsplit,List.getLast?_concat,List.dropLast_concat]
    refine ⟨⟨?_,rfl,by simp⟩,_,rfl,rfl⟩
    rw [hsplit]
    exact List.rel_append (List.forall₂_same.mpr fun x _ => .refl x)
      (.cons ⟨rfl,rfl,rfl,rfl,rfl,.inr ⟨hrun,rfl,rfl⟩⟩ .nil)
  · have hun : a.state = .unknown := by
      simp only [validateActivityRecordState,hsplit,List.getLast?_concat,hs,Bool.and_eq_true,
        beq_iff_eq] at hstate
      exact hstate.1.1.1
    rw [if_neg (by simp [hs])]
    exact ⟨⟨List.forall₂_same.mpr fun x _ => .refl x,rfl,by simp⟩,a,by simp [hsplit],hun⟩

end Kept

section Resolved

variable [Sha256] {r r' : ActivityRecord}

theorem validActivityRecord_reread (h : validActivityRecord r = true) :
    validActivityRecord r.reread = true := by
  have hk := KeepsRecord.reread r
  simp only [validActivityRecord,Bool.and_eq_true,decide_eq_true_eq] at h ⊢
  obtain ⟨⟨⟨⟨⟨h1,h2⟩,h3⟩,h4⟩,h5⟩,h6⟩ := h
  simp only [validateActivityDecisions,Bool.and_eq_true] at h3
  refine ⟨⟨⟨⟨⟨⟨h1.1,hk.validAttempts h1.2⟩,?_⟩,?_⟩,hk.validSchedules h4⟩,hk.validHistory h5⟩,?_⟩
  · rw [reread_length,reread_retry]
    exact h2
  · simp only [validateActivityDecisions,Bool.and_eq_true,validManualActivityOrigin_reread]
    exact ⟨hk.validDecisionsFrom h3.1,h3.2⟩
  · rw [validateActivityRecordState_reread]
    exact h6

inductive Applied (record : ActivityRecord) (resolution : ActivityResolution) (now : Time)
    (sample : Option Nat) : ActivityRecord → Option ActivityRetryScheduleDecision → Prop
  | complete (ha : resolution.action = .complete) (hc : resolution.safeRetryContract = []) :
      Applied record resolution now sample { record with
        classification := none
        nextAttemptAt := .zero
        state := .completed
        origin := some .manual
        outcome := resolution.outcome } none
  | fail (ha : resolution.action = .fail) (hc : resolution.safeRetryContract = []) :
      Applied record resolution now sample { record with
        classification := some .nonRetryable
        nextAttemptAt := .zero
        state := .failed
        origin := some .manual } none
  | retry (schedule : ActivityRetryScheduleDecision) (ha : resolution.action = .retry)
      (hc : record.retry.safeRetryContract ≠ [])
      (heq : resolution.safeRetryContract = record.retry.safeRetryContract)
      (hmax : (record.attempts.length : Int) < record.retry.maxAttempts)
      (hchoice : chooseActivityRetrySchedule record.retry record.attempts.length now
        resolution.notBefore sample = schedule)
      (hrej : schedule.rejection = none) :
      Applied record resolution now sample { record with
        classification := some .retryable
        nextAttemptAt := schedule.deadline
        state := .prepared
        origin := some .manual } (some schedule)

omit [Sha256] in
theorem applyActivityResolution_applied {resolution : ActivityResolution} {now : Time}
    {sample : Option Nat} {chosen : Option ActivityRetryScheduleDecision}
    (h : applyActivityResolution r resolution now sample = .ok (r',chosen)) :
    Applied r resolution now sample r' chosen := by
  unfold applyActivityResolution at h
  dsimp only at h
  split at h
  · rename_i ha
    split at h
    · cases h
    · rename_i hc
      cases h
      exact .complete ha (not_not.mp fun hne => hc (.inl hne))
  · rename_i ha
    split at h
    · cases h
    · rename_i hc
      cases h
      exact .fail ha (not_not.mp fun hne => hc (.inr (.inl hne)))
  · rename_i ha
    split at h
    · cases h
    · rename_i hc
      simp only [not_or,not_not,Int.not_le,ge_iff_le] at hc
      obtain ⟨-,-,hcontract,heq,hmax⟩ := hc
      split at h
      · cases h
      · rename_i hrej
        cases h
        exact .retry _ ha hcontract heq hmax rfl (by simpa using hrej)
  · cases h

structure Resolvable (r : ActivityRecord) (revision incarnation : Nat) (resolution : ActivityResolution)
    (now : Time) : Prop where
  state : r.state = .running ∨ r.state = .unknown
  past : ∀ d ∈ r.resolutions, d.attempt < r.attempts.length
  sources : ∀ d ∈ r.resolutions, d.sourceRevision < revision
  fresh : ∀ d ∈ r.resolutions, d.decisionID ≠ resolution.decisionID
  positive : 0 < revision
  incarnation : incarnation ≠ 0
  clocked : now.isZero = false
  named : resolution.decisionID ≠ []
  reasoned : resolution.reason ≠ []
  evidenced : resolution.evidence ≠ []
  duration : r.retry.schedule.maxDelay < 2 ^ 63

omit [Sha256] in
theorem closeRunning_eq (r : ActivityRecord) :
    closeRunning r = { r with attempts := (closeRunning r).attempts } := by
  unfold closeRunning
  split <;> rfl

omit [Sha256] in
theorem Applied.action {resolution : ActivityResolution} {now : Time} {sample : Option Nat}
    {chosen : Option ActivityRetryScheduleDecision} (h : Applied r resolution now sample r' chosen)
    (hduration : r.retry.schedule.maxDelay < 2 ^ 63) (incarnation revision : Nat)
    (prior : ActivityState) :
    validActivityDecisionAction
      (resolution.decision incarnation revision r.attempts.length prior now chosen) r.retry = true := by
  cases h with
  | complete ha hc | fail ha hc =>
    simp [validActivityDecisionAction,ActivityResolution.decision,ha,hc]
  | retry schedule ha hc heq hmax hchoice hrej =>
    obtain ⟨hvalid,hattempt,hprepared⟩ := chooseActivityRetrySchedule_valid hduration hchoice hrej
    simp [validActivityDecisionAction,ActivityResolution.decision,ha,heq,hc,hmax,hvalid,hrej,hattempt,
      hprepared]

omit [Sha256] in
theorem Applied.state {resolution : ActivityResolution} {now : Time} {sample : Option Nat}
    {chosen : Option ActivityRetryScheduleDecision} (h : Applied r resolution now sample r' chosen)
    (hduration : r.retry.schedule.maxDelay < 2 ^ 63) {a : ActivityAttempt}
    (hlast : r.attempts.getLast? = some a) (ha : a.state = .unknown) (hout : r.outcome = [])
    {d : ActivityResolutionRecord} (hd : d.retrySchedule = chosen) (ds : List ActivityResolutionRecord) :
    validateActivityRecordState { r' with resolutions := ds ++ [d] } = true := by
  cases h with
  | complete => simp [validateActivityRecordState,hlast,validCompletedActivity,ha]
  | fail => simp [validateActivityRecordState,hlast,validFailedActivity,ha,hout]
  | retry schedule _ hc _ hmax hchoice hrej =>
    obtain ⟨hvalid,-,-⟩ := chooseActivityRetrySchedule_valid hduration hchoice hrej
    have hdeadline : schedule.deadline.isZero = false := by
      simp only [validActivityRetryScheduleDecision,hrej,activityScheduleTimeValid,Bool.and_eq_true,
        Bool.not_eq_true'] at hvalid
      exact hvalid.2.1.2.1
    simp [validateActivityRecordState,hlast,validPreparedActivity,validPreparedActivitySchedule,ha,hout,
      hdeadline,hc,hmax,hd,hrej]

/-- The record of a manual decision passes the validator that the decision did not run. -/
theorem resolveRecord_valid {revision incarnation : Nat} {resolution : ActivityResolution} {now : Time}
    {sample : Option Nat} (hv : validActivityRecord r = true)
    (hok : Resolvable r revision incarnation resolution now)
    (h : resolveRecord incarnation revision r resolution now sample = .ok r') :
    validActivityRecord r' = true := by
  simp only [validActivityRecord,Bool.and_eq_true,decide_eq_true_eq] at hv
  obtain ⟨⟨⟨⟨⟨⟨hhead,hatt⟩,hlen⟩,hdec⟩,hsch⟩,hhist⟩,hstate⟩ := hv
  simp only [validateActivityDecisions,Bool.and_eq_true] at hdec
  obtain ⟨hclosed,a,hlast,ha⟩ := closeRunning_keeps hok.state hstate
  have hout : r.outcome = [] := by
    unfold validateActivityRecordState at hstate
    rcases hok.state with hs | hs <;> rw [hs] at hstate <;> split at hstate
    · simp at hstate
    · simp only [Bool.and_eq_true,beq_iff_eq] at hstate
      exact hstate.2
    · simp at hstate
    · simp only [Bool.and_eq_true,beq_iff_eq] at hstate
      exact hstate.2
  simp only [resolveRecord,bind_eq_ok] at h
  obtain ⟨⟨resolved,chosen⟩,happ,hr⟩ := h
  cases hr
  have happ := applyActivityResolution_applied happ
  rw [closeRunning_eq] at happ
  have hlength := hclosed.length
  have hforall := hclosed.attempts
  generalize (closeRunning r).attempts = attempts at *
  have hattempts : resolved.attempts = attempts := by cases happ <;> rfl
  have hres : resolved.resolutions = r.resolutions := by cases happ <;> rfl
  have hretry : resolved.retry = r.retry := by cases happ <;> rfl
  rw [show resolved.attempts.length = attempts.length by rw [hattempts],hres]
  have hpos : 0 < attempts.length := by
    cases attempts with
    | nil => cases hlast
    | cons => exact Nat.succ_pos _
  have haction := happ.action hok.duration incarnation revision r.state
  have hstate' := happ.state hok.duration hlast ha hout
    (d := resolution.decision incarnation revision attempts.length r.state now chosen) rfl r.resolutions
  generalize hd : resolution.decision incarnation revision attempts.length r.state now chosen = d at *
  generalize hR : ({ resolved with resolutions := r.resolutions ++ [d] } : ActivityRecord) = R at *
  have hRatt : R.attempts = attempts := by rw [← hR]; exact hattempts
  have hRretry : R.retry = r.retry := by rw [← hR]; exact hretry
  have hkeeps : KeepsRecord r R [d] := ⟨by rw [hRatt]; exact hforall,hRretry,by rw [← hR]⟩
  have hnew : validActivityDecision R [] 0 0 d = true := by
    have hlast' : attempts[attempts.length - 1]? = some a := by rw [← List.getLast?_eq_getElem?]; exact hlast
    have hprior : r.state = .unknown ∨ r.state = .running := hok.state.symm
    simp only [validActivityDecision,hRatt,hRretry,← hd,ActivityResolution.decision,Bool.and_eq_true,
      Bool.not_eq_true',Bool.or_eq_false_iff,beq_eq_false_iff_ne,decide_eq_false_iff_not,
      Bool.and_eq_false_iff,bne_eq_false_iff_eq,hlast',Option.any_some,ha]
    rw [← hd] at haction
    have hrev := hok.positive
    refine ⟨⟨⟨⟨⟨⟨⟨⟨⟨⟨⟨⟨⟨rfl,hok.named⟩,hok.reasoned⟩,hok.evidenced⟩,hok.clocked⟩,hok.incarnation⟩,
      by omega⟩,by omega⟩,by omega⟩,hprior⟩,rfl⟩,haction⟩,.inl (.inr (by omega))⟩,.inr trivial⟩
  have horigin : validManualActivityOrigin R = true := by
    have hlastd : R.resolutions.getLast? = some d := by
      rw [hkeeps.resolutions]
      exact List.getLast?_concat
    simp only [validManualActivityOrigin,hlastd,hRatt,← hd,ActivityResolution.decision]
    rw [← hR]
    cases happ with
    | complete hact | fail hact | retry _ hact => simp [hact]
  simp only [validActivityRecord,validateActivityDecisions,Bool.and_eq_true,decide_eq_true_eq]
  refine ⟨⟨⟨⟨⟨⟨?_,hkeeps.validAttempts hatt⟩,?_⟩,?_,?_⟩,hkeeps.validSchedules hsch⟩,
    hkeeps.validHistory hhist⟩,hstate'⟩
  · rw [← hR]
    cases happ <;> exact hhead
  · rw [hkeeps.length,hRretry]
    exact hlen
  · rw [hkeeps.resolutions]
    refine validActivityDecisionsFrom_snoc hnew (hkeeps.validDecisionsFrom hdec.1) (by simp) ?_ ?_ ?_ ?_ ?_
    · rw [← hd]
      exact hpos
    · rw [← hd]
      exact hok.positive
    · rw [← hd]
      exact hok.fresh
    · rw [← hd]
      intro x hx
      change x.attempt < attempts.length
      rw [hlength]
      exact hok.past x hx
    · rw [← hd]
      exact hok.sources
  · simp [horigin]

end Resolved

section Frames

variable (record : ActivityRecord) (err : Err) (decision : ActivityFailureDecision) (now : Time)
  (sample : Option Nat)

theorem recordActivityFailure_resolutions :
    (recordActivityFailure record err decision now sample).resolutions = record.resolutions := by
  unfold recordActivityFailure scheduleRetry
  repeat' split
  all_goals rfl

theorem recordActivityFailure_origin :
    (recordActivityFailure record err decision now sample).origin = record.origin := by
  unfold recordActivityFailure scheduleRetry
  repeat' split
  all_goals rfl

variable {record}

theorem resolveRecord_decision {incarnation revision : Nat} {resolution : ActivityResolution}
    {resolved : ActivityRecord}
    (h : resolveRecord incarnation revision record resolution now sample = .ok resolved) :
    ∃ d, resolved.resolutions = record.resolutions ++ [d] ∧ d.sourceRevision = revision ∧
      d.decidedAt = now := by
  simp only [resolveRecord,bind_eq_ok] at h
  obtain ⟨⟨r,chosen⟩,happ,hr⟩ := h
  cases hr
  have hres : r.resolutions = record.resolutions := by
    rw [(applyActivityResolution_frame happ).2.2.1,closeRunning_eq]
  exact ⟨_,by rw [hres],rfl,rfl⟩

end Frames

section Journals

variable [Sha256] {C W : Type} {e t : ExecutionEnvelope Journal C W} {i : Nat}

structure FitsJournal (e : ExecutionEnvelope Journal C W) (record : ActivityRecord) : Prop where
  admissible : admissibleActivity { e with revision := e.revision + 1 } record = true
  bound : activityUnresolved record.state = true → record.activation = e.activation ∧
    boundActivityIdentity e record.key = record.identity
  same : ∀ r, e.journal.get? record.identity = some r → record.key = r.key ∧ record.activation = r.activation

theorem AdmittedJournal.put (h : AdmittedJournal e) {journal : Journal} {record : ActivityRecord}
    (hu : Updates e { e with journal := journal } record.identity record.reread)
    (hv : validActivityRecord record = true) (hfit : FitsJournal e record) :
    AdmittedJournal { e with journal := journal, revision := e.revision + 1 } := by
  have hcases : ∀ id r, journal.get? id = some r →
      (id = record.identity ∧ r = record.reread) ∨ e.journal.get? id = some r := by
    intro id r hr
    by_cases hid : id = record.identity
    · subst hid
      have hself : journal.get? record.identity = some record.reread := hu.1
      rw [hself] at hr
      exact .inl ⟨rfl,(Option.some.inj hr).symm⟩
    · exact .inr ((hu.2 id hid).symm.trans hr)
  refine ⟨fun id r hr => ?_,fun id r hr => ?_,fun id r hr => ?_,fun id r hr hun => ?_,fun key id hk => ?_⟩
  · rcases hcases id r hr with ⟨rfl,rfl⟩ | hr
    · rfl
    · exact h.keyed id r hr
  · rcases hcases id r hr with ⟨rfl,rfl⟩ | hr
    · exact validActivityRecord_reread hv
    · exact h.valid id r hr
  · rcases hcases id r hr with ⟨rfl,rfl⟩ | hr
    · exact hfit.admissible
    · exact admissibleActivity_later (e := e) rfl rfl (Nat.le_refl _) (Nat.le_succ _) (h.admissible id r hr)
  · rcases hcases id r hr with ⟨rfl,rfl⟩ | hr
    · exact hfit.bound hun
    · exact h.bound id r hr hun
  · obtain ⟨r,hr,hkey,hact⟩ := h.referenced key id hk
    by_cases hid : id = record.identity
    · subst hid
      obtain ⟨hk',ha'⟩ := hfit.same r hr
      exact ⟨record.reread,hu.1,hkey.trans hk'.symm,ha'.trans hact⟩
    · exact ⟨r,(hu.2 id hid).trans hr,hkey,hact⟩

theorem AdmittedJournal.origin (h : AdmittedJournal e) {id : Text} {r : ActivityRecord}
    (hr : e.journal.get? id = some r) :
    (r.origin = some .simulated → ForkLineage.isFake e.fork = true) ∧
      (r.origin = some .live → ForkLineage.isFake e.fork = false) := by
  have hadm := h.admissible id r hr
  simp only [admissibleActivity,Bool.and_eq_true,Bool.not_eq_true',Bool.and_eq_false_iff,
    beq_eq_false_iff_ne,Bool.not_eq_false'] at hadm
  exact ⟨fun ho => hadm.1.1.1.1.resolve_left (not_not.mpr ho),
    fun ho => hadm.1.1.1.2.resolve_left (not_not.mpr ho)⟩

theorem FitsJournal.of_contract (h : AdmittedJournal e) {r record : ActivityRecord}
    (hr : e.journal.get? r.identity = some r) (hcontract : record.contract = r.contract)
    (hres : ∀ d ∈ record.resolutions, d ∈ r.resolutions ∨ d.sourceRevision ≤ e.revision)
    (hsim : record.origin = some .simulated → ForkLineage.isFake e.fork = true)
    (hlive : record.origin = some .live → ForkLineage.isFake e.fork = false)
    (hopen : activityUnresolved r.state = true) : FitsJournal e record := by
  simp only [ActivityRecord.contract,ActivityContract.mk.injEq] at hcontract
  obtain ⟨hid,hexec,-,hact,hkey,-⟩ := hcontract
  obtain ⟨hba,hbk⟩ := h.bound r.identity r hr hopen
  refine ⟨?_,fun _ => ⟨hact.trans hba,by rw [hkey,hid]; exact hbk⟩,fun r0 hr0 => ?_⟩
  · have hadm := h.admissible r.identity r hr
    simp only [admissibleActivity,Bool.and_eq_true,Bool.not_eq_true',decide_eq_false_iff_not,
      List.all_eq_true,beq_iff_eq,Bool.and_eq_false_iff,beq_eq_false_iff_ne] at hadm ⊢
    obtain ⟨⟨⟨-,hx⟩,ha⟩,hdec⟩ := hadm
    refine ⟨⟨⟨⟨?_,?_⟩,hexec.trans hx⟩,by rw [hact]; exact ha⟩,fun d hd => ?_⟩
    · cases hf : ForkLineage.isFake e.fork with
      | true => exact .inr rfl
      | false => exact .inl fun ho => by rw [hsim ho] at hf; cases hf
    · cases hf : ForkLineage.isFake e.fork with
      | true => exact .inl fun ho => by rw [hlive ho] at hf; cases hf
      | false => exact .inr rfl
    · rcases hres d hd with hd | hd
      · have hsrc := hdec d hd
        omega
      · omega
  · rw [hid,hr] at hr0
    cases hr0
    exact ⟨hkey,hact⟩

/-- What a session commits on the cached envelope `e`, apart from commits that carry the journal. -/
inductive ActivityCommit (clock : Time → Bool) (i : Nat) (e : ExecutionEnvelope Journal C W) :
    ExecutionEnvelope Journal C W → Prop
  | prepared (request : ActivityRequest) (t : ExecutionEnvelope Journal C W)
      (hnone : e.journal.get? (prepareActivity e request).identity = none)
      (h : persistActivity e e.journal (prepareActivity e request) = .ok t) : ActivityCommit clock i e t
  | started (journal : Journal) (record : ActivityRecord) (now : Time) (t : ExecutionEnvelope Journal C W)
      (hj : ∀ id, (journal.get? id).map ActivityRecord.reread = e.journal.get? id)
      (hr : e.journal.get? record.identity = some record) (hs : record.state = .prepared)
      (h : persistActivity e journal (startAttempt i now record) = .ok t) : ActivityCommit clock i e t
  | abandoned (record : ActivityRecord) (t : ExecutionEnvelope Journal C W)
      (hr : e.journal.get? record.identity = some record) (hs : record.state = .running)
      (h : persistActivity e e.journal (abandonAttempt record) = .ok t) : ActivityCommit clock i e t
  | failed (record : ActivityRecord) (err : Err) (decision : ActivityFailureDecision) (now : Time)
      (sample : Option Nat) (t : ExecutionEnvelope Journal C W)
      (hr : e.journal.get? record.identity = some record) (hs : record.state = .running)
      (h : persistActivity e e.journal (recordActivityFailure record err decision now sample) = .ok t) :
      ActivityCommit clock i e t
  | succeeded (record : ActivityRecord) (payload : Bytes) (origin : ActivityOrigin) (now : Time)
      (t : ExecutionEnvelope Journal C W) (hr : e.journal.get? record.identity = some record)
      (hs : record.state = .running ∨ record.state = .unknown)
      (ho : origin = activityDispatchOrigin e ∨ origin = .reconciled)
      (h : persistActivity e e.journal (recordActivitySuccess record payload origin now) = .ok t) :
      ActivityCommit clock i e t
  | resolved (resolution : ActivityResolution) (now : Time) (sample : Option Nat)
      (t : ExecutionEnvelope Journal C W) (hnow : clock now = true)
      (h : resolveActivityTarget i e resolution now sample = .ok t) : ActivityCommit clock i e t

def ActivityAction.clocked (clock : Time → Bool) : ActivityAction C W → Bool
  | .call _ _ now started => clock now && clock started
  | .run _ now | .finish _ _ now _ | .reconcile _ _ now | .resolve _ now _ => clock now
  | .dispatch _ | .other _ => true

variable {l : Calls} {clock : Time → Bool}

theorem persistAct_eq_commit {journal : Journal} {record : ActivityRecord} {acked failed la lf : Calls}
    {events ev : List ActivityEvent}
    (h : persistAct e journal record acked failed events = .commit t la lf ev) :
    persistActivity e journal record = .ok t := by
  unfold persistAct at h
  split at h
  · cases h
  · rename_i hp
    cases h
    exact hp

theorem callAct_commit {k : Nat} {request : ActivityRequest} {now started : Time} {la lf : Calls}
    {ev : List ActivityEvent} (hK : SoundJournal e)
    (h : callAct i k e l request now started = .commit t la lf ev) : ActivityCommit clock i e t := by
  obtain ⟨hfound,-⟩ := callActivity_found i e request now
  unfold callAct at h
  split at h
  · cases h
  · split at h
    · cases h
    · rename_i journal record hc
      rw [hc] at hfound
      obtain ⟨rfl,rfl,hnone⟩ := hfound
      exact .prepared request t hnone (persistAct_eq_commit h)
    · rename_i journal record hc
      rw [hc] at hfound
      obtain ⟨rfl,hr,hs⟩ := hfound
      exact .started _ record started t hK.reread hr hs (persistAct_eq_commit h)
    · rename_i journal record hc
      rw [hc] at hfound
      obtain ⟨rfl,hr,hs,-⟩ := hfound
      exact .abandoned record t hr hs (persistAct_eq_commit h)
    · cases h

theorem finishAct_commit {k : Nat} {identity : Text} {callback : Callback} {origin : ActivityOrigin}
    {now : Time} {sample : Option Nat} {la lf : Calls} {ev : List ActivityEvent}
    (hs : ∀ r, e.journal.get? identity = some r → r.state ≠ .completed →
      r.state = .running ∨ (r.state = .unknown ∧ ∃ payload, callback = .returned payload))
    (ho : origin = activityDispatchOrigin e ∨ origin = .reconciled)
    (h : finishAct k e l identity callback origin now sample = .commit t la lf ev) :
    ActivityCommit clock i e t := by
  unfold finishAct at h
  split at h
  · cases h
  · cases h
  · rename_i journal record' hf
    obtain ⟨hadm,rfl,record,hr,hne,hcase⟩ := finishActivity_persists hf
    have hr' : e.journal.get? record.identity = some record := by rw [hadm.keyed _ _ hr]; exact hr
    have hopen := hs record hr hne
    rcases hcase with ⟨err,decision,rfl,rfl⟩ | ⟨payload,rfl,rfl⟩
    · refine .failed record err decision now sample t hr' ?_ (persistAct_eq_commit h)
      rcases hopen with hrun | ⟨-,payload,hp⟩
      · exact hrun
      · cases hp
    · exact .succeeded record payload origin now t hr' (hopen.imp id And.left) ho (persistAct_eq_commit h)

theorem activityAct_commit {a : ActivityAction C W} {la lf : Calls} {ev : List ActivityEvent}
    (hK : SoundJournal e) (hl : CallsOk i (some e) l) (hclock : a.clocked clock = true)
    (h : activityAct a i (some e) l = some (.commit t la lf ev)) :
    (a = .other t ∧ t.journal = e.journal) ∨ ActivityCommit clock i e t := by
  cases a with
  | other target =>
    simp only [activityAct] at h
    split at h
    · rename_i hj
      cases h
      exact .inl ⟨rfl,hj.2⟩
    · cases h
  | call k request now started =>
    simp only [activityAct] at h
    split at h
    · split at h
      · exact .inr (callAct_commit hK (Option.some.inj h))
      · cases h
    · cases h
  | run k started =>
    simp only [activityAct] at h
    split at h
    · rename_i journal record hk
      have hok := hl.ok e rfl k
      rw [hk] at hok
      obtain ⟨hj,hr,hs,hnil,-⟩ := hok
      refine .inr (.started journal record started t hj ?_ hs (persistAct_eq_commit (Option.some.inj h)))
      rw [← hj,hr,Option.map_some,reread_of_nil hnil]
    · cases h
  | dispatch k =>
    simp only [activityAct] at h
    split at h <;> cases h
  | finish k callback now sample =>
    simp only [activityAct] at h
    split at h
    · rename_i identity n hk
      have hok := hl.ok e rfl k
      rw [hk] at hok
      obtain ⟨r,hr,hrun⟩ := hok
      split at h
      · refine .inr (finishAct_commit (fun r' hr' _ => ?_) (.inl rfl) (Option.some.inj h))
        rw [hr] at hr'
        cases hr'
        exact .inl hrun.1
      · cases h
    · cases h
  | reconcile k payload now =>
    simp only [activityAct] at h
    split at h
    · rename_i identity payload hk
      have hok := hl.ok e rfl k
      rw [hk] at hok
      obtain ⟨r,hr,hs⟩ := hok
      split at h
      · refine .inr (finishAct_commit (fun r' hr' hne => ?_) (.inr rfl) (Option.some.inj h))
        rw [hr] at hr'
        cases hr'
        exact .inr ⟨hs.resolve_right hne,payload,rfl⟩
      · cases h
    · cases h
    · cases h
  | resolve resolution now sample =>
    simp only [activityAct] at h
    split at h
    · split at h
      · cases h
      · rename_i target ht
        cases h
        exact .inr (.resolved resolution now sample _ hclock ht)
    · cases h

/-- A record that waits for an outcome has decisions on earlier attempts only. The validator asks
for this only while the origin is manual. -/
def DecisionsPast (e : ExecutionEnvelope Journal C W) : Prop :=
  ∀ id r, e.journal.get? id = some r → r.state = .running ∨ r.state = .unknown →
    ∀ d ∈ r.resolutions, d.attempt < r.attempts.length

theorem ValidRecord.decisions_past {r : ActivityRecord} (hv : ValidRecord r) (hs : r.state = .running) :
    ∀ d ∈ r.resolutions, d.attempt < r.attempts.length := by
  intro d hd
  have hdec := hv.decisions
  simp only [validateActivityDecisions,Bool.and_eq_true] at hdec
  obtain ⟨seen,n,m,hvd⟩ := validActivityDecisionsFrom_mem hdec.1 hd
  simp only [validActivityDecision,Bool.and_eq_true,Bool.not_eq_true',Bool.or_eq_false_iff,
    decide_eq_false_iff_not] at hvd
  have hle : d.attempt ≤ r.attempts.length := Nat.not_lt.mp hvd.1.1.1.1.1.2
  obtain ⟨a,ha,hunknown⟩ := (Option.any_eq_true _ _).mp hvd.1.1.1.2
  rcases Nat.lt_or_ge d.attempt r.attempts.length with hlt | hge
  · exact hlt
  · have hlast : r.attempts.getLast? = some a := by
      rw [List.getLast?_eq_getElem?,show r.attempts.length - 1 = d.attempt - 1 by omega]
      exact ha
    have hstate := hv.state
    simp only [validateActivityRecordState,hlast,hs,Bool.and_eq_true,beq_iff_eq] at hstate
    simp [hstate.1.1.1] at hunknown

omit [Sha256] in
theorem DecisionsPast.put (h : DecisionsPast e) {record : ActivityRecord}
    (hu : Updates e t record.identity record.reread)
    (hr : record.state = .running ∨ record.state = .unknown →
      ∀ d ∈ record.resolutions, d.attempt < record.attempts.length) : DecisionsPast t := by
  intro id r hget hs
  by_cases hid : id = record.identity
  · subst hid
    rw [hu.1] at hget
    cases hget
    rw [reread_length]
    exact hr hs
  · exact h id r ((hu.2 id hid).symm.trans hget) hs

theorem resolveActivityTarget_eq_ok {resolution : ActivityResolution} {now : Time} {sample : Option Nat}
    (h : resolveActivityTarget i e resolution now sample = .ok t) :
    ∃ record resolved, resolution.check = .ok () ∧
      resolutionActivityRecord e resolution = .ok (e.journal,record) ∧
      resolveRecord i e.revision record resolution now sample = .ok resolved ∧
      t = { e with
        journal := (GoMap.set e.journal record.identity resolved).mapValues ActivityRecord.reread } := by
  simp only [resolveActivityTarget,bind_eq_ok] at h
  obtain ⟨⟨⟩,hcheck,⟨journal,record⟩,hrec,htar⟩ := h
  obtain ⟨-,rfl,-⟩ := resolutionActivityRecord_eq_ok hrec
  obtain ⟨resolved,hres,rfl⟩ := prepareActivityResolutionTarget_eq_ok htar
  exact ⟨record,resolved,hcheck,hrec,hres,rfl⟩

theorem resolutionActivityRecord_fresh {resolution : ActivityResolution} {journal : Journal}
    {record : ActivityRecord} (h : resolutionActivityRecord e resolution = .ok (journal,record)) :
    ∀ d ∈ record.resolutions, d.decisionID ≠ resolution.decisionID := by
  unfold resolutionActivityRecord at h
  obtain ⟨j,-,hf⟩ := bind_eq_ok.mp h
  clear h
  split at hf
  · cases hf
  split at hf
  · cases hf
  split at hf
  · cases hf
  split at hf
  · cases hf
  · rename_i hany _
    cases hf
    intro d hd heq
    exact hany (List.any_eq_true.mpr ⟨d,hd,by simp [heq]⟩)

omit [Sha256] in
theorem resolveRecord_state {revision : Nat} {resolution : ActivityResolution} {now : Time}
    {sample : Option Nat} {r r' : ActivityRecord}
    (h : resolveRecord i revision r resolution now sample = .ok r') :
    r'.state ≠ .running ∧ r'.state ≠ .unknown := by
  simp only [resolveRecord,bind_eq_ok] at h
  obtain ⟨⟨resolved,chosen⟩,happ,hr⟩ := h
  cases hr
  cases applyActivityResolution_applied happ with
  | complete | fail | retry => exact ⟨by simp,by simp⟩

omit [Sha256] in
theorem resolved_updates (hK : SoundJournal e) {record resolved : ActivityRecord}
    (hid : resolved.identity = record.identity) :
    Updates e { e with
      journal := (GoMap.set e.journal record.identity resolved).mapValues ActivityRecord.reread }
      resolved.identity resolved.reread := by
  rw [hid]
  refine ⟨by simp [GoMap.get?_mapValues],fun id hne => ?_⟩
  simp only [GoMap.get?_mapValues,GoMap.get?_set_of_ne _ _ hne]
  exact hK.reread id

theorem ActivityCommit.past (hK : SoundJournal e) (h : DecisionsPast e) (hc : ActivityCommit clock i e t) :
    DecisionsPast t := by
  cases hc with
  | prepared request t hnone hp =>
    obtain ⟨-,hu⟩ := persistActivity_updates hK.reread hp
    exact h.put hu (by simp [prepareActivity])
  | started journal record now t hj hr hs hp =>
    obtain ⟨hv,hu⟩ := persistActivity_updates hj hp
    exact h.put hu fun _ => hv.decisions_past rfl
  | abandoned record t hr hs hp =>
    obtain ⟨-,hu⟩ := persistActivity_updates hK.reread hp
    refine h.put hu fun _ d hd => ?_
    rw [length_of_numbers (abandonAttempt_numbers record)]
    exact h record.identity record hr (.inl hs) d hd
  | failed record err decision now sample t hr hs hp =>
    obtain ⟨-,hu⟩ := persistActivity_updates hK.reread hp
    obtain ⟨hnum,-⟩ := recordActivityFailure_frame record err decision now sample
    refine h.put hu fun _ d hd => ?_
    rw [length_of_numbers hnum]
    rw [recordActivityFailure_resolutions] at hd
    exact h record.identity record hr (.inl hs) d hd
  | succeeded record payload origin now t hr hs ho hp =>
    obtain ⟨-,hu⟩ := persistActivity_updates hK.reread hp
    exact h.put hu (by simp [recordActivitySuccess])
  | resolved resolution now sample t hnow hp =>
    obtain ⟨record,resolved,-,-,hres,rfl⟩ := resolveActivityTarget_eq_ok hp
    have hid : resolved.identity = record.identity :=
      congrArg ActivityContract.identity (resolveRecord_frame hres).2.1
    obtain ⟨hrun,hun⟩ := resolveRecord_state hres
    exact h.put (resolved_updates hK hid) fun hs => (hs.elim hrun hun).elim

theorem ActivityCommit.admitted (hK : SoundJournal e) (hi : 0 < i) (hrev : 0 < e.revision)
    (hclock : ∀ t, clock t = true → t.isZero = false)
    (hduration : ∀ id r, e.journal.get? id = some r → r.retry.schedule.maxDelay < 2 ^ 63)
    (h : AdmittedJournal e) (hpast : DecisionsPast e) (hc : ActivityCommit clock i e t) :
    AdmittedJournal { t with revision := e.revision + 1 } := by
  cases hc with
  | prepared request t hnone hp =>
    obtain ⟨-,hu⟩ := persistActivity_updates hK.reread hp
    obtain ⟨hv,rfl⟩ := persistActivity_eq_ok hp
    refine h.put hu hv ⟨?_,fun _ => ⟨rfl,rfl⟩,fun r hr => ?_⟩
    · simp [admissibleActivity,prepareActivity]
    · rw [hnone] at hr
      cases hr
  | started journal record now t hj hr hs hp =>
    obtain ⟨-,hu⟩ := persistActivity_updates hj hp
    obtain ⟨hv,rfl⟩ := persistActivity_eq_ok hp
    exact h.put hu hv (.of_contract h hr rfl (fun d hd => .inl hd) (by simp [startAttempt])
      (by simp [startAttempt]) (by simp [activityUnresolved,hs]))
  | abandoned record t hr hs hp =>
    obtain ⟨-,hu⟩ := persistActivity_updates hK.reread hp
    obtain ⟨hv,rfl⟩ := persistActivity_eq_ok hp
    obtain ⟨hsim,hlive⟩ := h.origin hr
    exact h.put hu hv (.of_contract h hr rfl (fun d hd => .inl hd) hsim hlive
      (by simp [activityUnresolved,hs]))
  | failed record err decision now sample t hr hs hp =>
    obtain ⟨-,hu⟩ := persistActivity_updates hK.reread hp
    obtain ⟨hv,rfl⟩ := persistActivity_eq_ok hp
    obtain ⟨hsim,hlive⟩ := h.origin hr
    obtain ⟨-,hcontract⟩ := recordActivityFailure_frame record err decision now sample
    refine h.put hu hv (.of_contract h hr hcontract (fun d hd => .inl ?_) ?_ ?_
      (by simp [activityUnresolved,hs]))
    · rwa [recordActivityFailure_resolutions] at hd
    · rwa [recordActivityFailure_origin]
    · rwa [recordActivityFailure_origin]
  | succeeded record payload origin now t hr hs ho hp =>
    obtain ⟨-,hu⟩ := persistActivity_updates hK.reread hp
    obtain ⟨hv,rfl⟩ := persistActivity_eq_ok hp
    refine h.put hu hv (.of_contract h hr rfl (fun d hd => .inl hd) ?_ ?_
      (by rcases hs with hs | hs <;> simp [activityUnresolved,hs]))
    · rintro ⟨⟩
      rcases ho with ho | ho
      · unfold activityDispatchOrigin at ho
        split at ho
        · assumption
        · cases ho
      · cases ho
    · rintro ⟨⟩
      rcases ho with ho | ho
      · unfold activityDispatchOrigin at ho
        split at ho
        · cases ho
        · exact Bool.not_eq_true _ |>.mp ‹_›
      · cases ho
  | resolved resolution now sample t hnow hp =>
    obtain ⟨record,resolved,hcheck,hrec,hres,rfl⟩ := resolveActivityTarget_eq_ok hp
    obtain ⟨-,-,hr,hs,-⟩ := resolutionActivityRecord_eq_ok hrec
    obtain ⟨-,hcontract,horigin,-⟩ := resolveRecord_frame hres
    simp only [ActivityResolution.check,require_eq_ok,Bool.and_eq_true,bne_iff_ne] at hcheck
    obtain ⟨⟨⟨-,hname⟩,hreason⟩,hevidence⟩ := hcheck
    have hadm := h.admissible record.identity record hr
    simp only [admissibleActivity,Bool.and_eq_true,List.all_eq_true,Bool.not_eq_true',
      decide_eq_false_iff_not] at hadm
    have hok : Resolvable record e.revision i resolution now :=
      ⟨hs,hpast record.identity record hr hs,fun d hd => by have := hadm.2 d hd; omega,
        resolutionActivityRecord_fresh hrec,hrev,by omega,hclock now hnow,hname,hreason,hevidence,
        hduration record.identity record hr⟩
    have hid : resolved.identity = record.identity := congrArg ActivityContract.identity hcontract
    refine h.put (resolved_updates hK hid) (resolveRecord_valid (h.valid _ _ hr) hok hres)
      (.of_contract h hr hcontract ?_ (by simp [horigin]) (by simp [horigin])
        (by rcases hs with hs | hs <;> simp [activityUnresolved,hs]))
    obtain ⟨decision,hdec,hsrc,-⟩ := resolveRecord_decision now sample hres
    rw [hdec]
    intro d hd
    rcases List.mem_append.mp hd with hd | hd
    · exact .inl hd
    · rw [List.mem_singleton.mp hd,hsrc]
      exact .inr (Nat.le_refl _)

theorem decisions_past {s : State (ExecutionEnvelope Journal C W) Calls ActivityEvent}
    (hs : Reachable (activityProtocol C W) s) : ∀ e ∈ s.log, DecisionsPast e := by
  refine activityRule.entries ?_ ?_ hs
  · intro e he id r hr
    rw [show e.journal = ∅ from he] at hr
    cases hr
  · intro a i e l la lf t ev hK hpast hl hact
    have hc : a.clocked (fun _ => true) = true := by cases a <;> rfl
    rcases activityAct_commit hK hl hc hact with ⟨-,hj⟩ | hcommit
    · intro id r hr
      exact hpast id r (by rw [← hj]; exact hr)
    · exact fun id r hr => hcommit.past hK hpast id r hr

end Journals
end Flowy
