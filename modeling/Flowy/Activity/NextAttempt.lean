import Flowy.Activity.Readmit

/-! The next attempt of a record that waits for its time: when the runtime may start it, and that the
record with the new attempt passes the validator again. -/
namespace Flowy

section Decisions

variable {record : ActivityRecord}

theorem validActivityDecisionsFrom_ascending {ds : List ActivityResolutionRecord} {seen : List Text} {n m : Nat}
    (h : validActivityDecisionsFrom record ds seen n m = true) :
    (∀ d ∈ ds, n < d.attempt) ∧ ds.Pairwise fun d d' => d.attempt < d'.attempt := by
  induction ds generalizing seen n m with
  | nil => exact ⟨by simp,.nil⟩
  | cons d ds ih =>
    simp only [validActivityDecisionsFrom,Bool.and_eq_true] at h
    obtain ⟨hlater,hpair⟩ := ih h.2
    have hd : n < d.attempt := by
      have hv := h.1
      simp only [validActivityDecision,Bool.and_eq_true,Bool.not_eq_true',Bool.or_eq_false_iff,
        decide_eq_false_iff_not] at hv
      omega
    refine ⟨fun d' hd' => ?_,.cons hlater hpair⟩
    rcases List.mem_cons.mp hd' with rfl | hd'
    · exact hd
    · exact hd.trans (hlater d' hd')

structure ValidDecision (record : ActivityRecord) (d : ActivityResolutionRecord) : Prop where
  le : d.attempt ≤ record.attempts.length
  positive : 0 < d.attempt
  unknown : ∀ a, record.attempts[d.attempt - 1]? = some a → a.state = .unknown
  action : validActivityDecisionAction d record.retry = true
  settles : d.action ≠ .retry → d.attempt = record.attempts.length

theorem ValidDecision.of_mem {ds : List ActivityResolutionRecord}
    (h : validActivityDecisionsFrom record ds [] 0 0 = true) {d : ActivityResolutionRecord} (hd : d ∈ ds) :
    ValidDecision record d := by
  have hpos := (validActivityDecisionsFrom_ascending h).1 d hd
  obtain ⟨seen,n,m,hv⟩ := validActivityDecisionsFrom_mem h hd
  simp only [validActivityDecision,Bool.and_eq_true,Bool.not_eq_true',Bool.or_eq_false_iff,
    decide_eq_false_iff_not,Bool.and_eq_false_iff,bne_eq_false_iff_eq] at hv
  obtain ⟨⟨⟨⟨hhead,hun⟩,haction⟩,-⟩,hsettles⟩ := hv
  refine ⟨by omega,hpos,fun a ha => ?_,haction,fun hne => hsettles.resolve_left hne⟩
  rw [ha] at hun
  simpa using hun

end Decisions

section Waiting

variable [Sha256] {r : ActivityRecord}

structure WaitsForAttempt (r : ActivityRecord) (last : ActivityAttempt)
    (choice : ActivityRetryScheduleDecision) : Prop where
  closed : r.attempts.getLast? = some last
  room : (r.attempts.length : Int) < r.retry.maxAttempts
  contract : r.retry.safeRetryContract ≠ []
  outcome : r.outcome = []
  deadline : choice.deadline = r.nextAttemptAt
  accepted : choice.rejection = none
  valid : activityScheduleTimeValid r.nextAttemptAt = true
  /-- The runtime scheduled the retry of a failure, or an operator the one of an unknown outcome. -/
  cause : (last.state = .failed ∧ last.retrySchedule = some choice) ∨
    (last.state = .unknown ∧ ∃ d ∈ r.resolutions, d.action = .retry ∧ d.attempt = r.attempts.length ∧
      d.retrySchedule = some choice)

theorem ValidRecord.waits (h : ValidRecord r) (hs : r.state = .prepared) (hne : r.attempts ≠ []) :
    ∃ last choice, WaitsForAttempt r last choice := by
  obtain ⟨last,hlast⟩ : ∃ last, r.attempts.getLast? = some last := ⟨_,List.getLast?_eq_getLast_of_ne_nil hne⟩
  have hstate := h.state
  simp only [validateActivityRecordState,hlast,hs,validPreparedActivity,Bool.and_eq_true,Bool.not_eq_true',
    bne_iff_ne,decide_eq_true_eq,beq_iff_eq,validPreparedActivitySchedule,Option.any_eq_true,
    Bool.or_eq_true] at hstate
  obtain ⟨⟨⟨⟨⟨⟨-,hzero⟩,hcontract⟩,hroom⟩,hcause⟩,houtcome⟩,choice,hchoice,hrej,hdeadline⟩ := hstate
  rw [Option.isNone_iff_eq_none] at hrej
  refine ⟨last,choice,hlast,hroom,hcontract,houtcome,hdeadline,hrej,h.nextAttemptAt_valid hs hzero,?_⟩
  have hds := h.decisions
  simp only [validateActivityDecisions,Bool.and_eq_true] at hds
  split at hchoice
  · -- the last decision of an operator is about the last attempt, whose outcome is unknown
    rename_i hmanual
    obtain ⟨d,hd,hchosen⟩ := Option.bind_eq_some_iff.mp hchoice
    have horigin : validManualActivityOrigin r = true := by
      simpa [hmanual] using hds.2
    simp only [validManualActivityOrigin,hd,hs,Bool.and_eq_true,beq_iff_eq] at horigin
    have hv := ValidDecision.of_mem hds.1 (List.mem_of_getLast? hd)
    refine .inr ⟨hv.unknown last ?_,d,List.mem_of_getLast? hd,horigin.1,horigin.2,hchosen⟩
    rw [horigin.2,← List.getLast?_eq_getElem?]
    exact hlast
  · rename_i hmanual
    exact .inl ⟨hcause.resolve_right fun hun => hmanual hun.1,hchoice⟩

theorem WaitsForAttempt.decision {last : ActivityAttempt} {choice : ActivityRetryScheduleDecision}
    (h : WaitsForAttempt r last choice) (hv : ValidRecord r) {d : ActivityResolutionRecord}
    (hd : d ∈ r.resolutions) (ha : d.attempt = r.attempts.length) :
    d.action = .retry ∧ d.retrySchedule = some choice := by
  have hds := hv.decisions
  simp only [validateActivityDecisions,Bool.and_eq_true] at hds
  have hun : last.state = .unknown := by
    refine (ValidDecision.of_mem hds.1 hd).unknown last ?_
    rw [ha,← List.getLast?_eq_getElem?]
    exact h.closed
  rcases h.cause with ⟨hfailed,-⟩ | ⟨-,d',hd',hretry,ha',hchosen⟩
  · rw [hun] at hfailed
    cases hfailed
  · -- attempts ascend, so two decisions about one attempt are the same
    have hnodup : (r.resolutions.map fun d => d.attempt).Nodup :=
      List.pairwise_map.mpr ((validActivityDecisionsFrom_ascending hds.1).2.imp fun hlt => hlt.ne)
    have heq : d = d' := List.inj_on_of_nodup_map hnodup hd hd' (ha.trans ha'.symm)
    rw [heq]
    exact ⟨hretry,hchosen⟩

section Start

variable {last : ActivityAttempt} {choice : ActivityRetryScheduleDecision} {i : Nat} {t : Time}

omit [Sha256] in
theorem startAttempt_cases {n : Nat} {a : ActivityAttempt} (ha : (startAttempt i t r).attempts[n]? = some a) :
    r.attempts[n]? = some a ∨ (n = r.attempts.length ∧
      a = ⟨r.attempts.length + 1,i,.running,[],none,t,none,.zero⟩) := by
  simp only [startAttempt,List.getElem?_append] at ha
  split at ha
  · exact .inl ha
  · rw [List.getElem?_singleton] at ha
    split at ha
    · cases ha
      exact .inr ⟨by omega,rfl⟩
    · cases ha

theorem WaitsForAttempt.validAttempts (h : WaitsForAttempt r last choice) (hv : ValidRecord r) (hi : i ≠ 0)
    (ht : t.isZero = false) : validActivityAttempts (startAttempt i t r) = true := by
  rw [validActivityAttempts_iff]
  intro n a ha
  rcases startAttempt_cases ha with ha | ⟨rfl,rfl⟩
  · obtain ⟨h1,h2,h3,h4,h5⟩ := validActivityAttempts_iff.mp hv.attempts n a ha
    refine ⟨h1,h2,h3,h4,fun hrun => ?_⟩
    -- the last attempt is closed, so none of the old ones is running
    have hlast : r.attempts[r.attempts.length - 1]? = some last := by
      rw [← List.getLast?_eq_getElem?]
      exact h.closed
    rw [h5 hrun,hlast] at ha
    cases ha
    rcases h.cause with ⟨hstate,-⟩ | ⟨hstate,-⟩ <;> simp [hrun] at hstate
  · exact ⟨rfl,hi,ht,rfl,fun _ => by simp [startAttempt]⟩

theorem WaitsForAttempt.validDecisions (h : WaitsForAttempt r last choice) (hv : ValidRecord r)
    (hdue : t.before choice.deadline = false) : validateActivityDecisions (startAttempt i t r) = true := by
  have hds := hv.decisions
  simp only [validateActivityDecisions,Bool.and_eq_true] at hds ⊢
  refine ⟨validActivityDecisionsFrom_imp (fun d hd seen n m hvd => ?_) hds.1,by simp [startAttempt]⟩
  have hvalid := ValidDecision.of_mem hds.1 hd
  have hretry : d.action = .retry := by
    by_contra hother
    exact hother (h.decision hv hd (hvalid.settles hother)).1
  have hlen : (startAttempt i t r).attempts.length = r.attempts.length + 1 := by simp [startAttempt]
  simp only [validActivityDecision,Bool.and_eq_true,Bool.not_eq_true',hlen,hretry] at hvd ⊢
  obtain ⟨⟨⟨⟨hhead,hun⟩,haction⟩,hstarted⟩,-⟩ := hvd
  refine ⟨⟨⟨⟨?_,?_⟩,haction⟩,?_⟩,by simp⟩
  · have hle := hvalid.le
    simp only [Bool.or_eq_false_iff,decide_eq_false_iff_not] at hhead ⊢
    obtain ⟨⟨hrest,-⟩,hprior⟩ := hhead
    exact ⟨⟨hrest,by omega⟩,hprior⟩
  · have hpos := hvalid.positive
    have hle := hvalid.le
    rw [startAttempt,List.getElem?_append_left (by omega)]
    exact hun
  · rcases Nat.lt_or_ge d.attempt r.attempts.length with hlt | hge
    · rw [startAttempt,List.getElem?_append_left hlt]
      simp only [hlt,decide_true,Bool.and_true,beq_self_eq_true,Bool.true_and] at hstarted
      simp [hstarted]
    · -- the decision that scheduled this attempt
      have hle := hvalid.le
      have ha : d.attempt = r.attempts.length := by omega
      have hchosen := (h.decision hv hd ha).2
      simp [startAttempt,ha,hchosen,hdue]

theorem WaitsForAttempt.validSchedules (h : WaitsForAttempt r last choice) (hv : ValidRecord r)
    (hdue : t.before choice.deadline = false) :
    validateActivityRecordSchedules (startAttempt i t r) = true := by
  rw [validateActivityRecordSchedules_iff]
  intro n a ha
  rcases startAttempt_cases ha with hold | ⟨rfl,rfl⟩
  · have hlt := (List.getElem?_eq_some_iff.mp hold).1
    have hvalid := validateActivityRecordSchedules_iff.mp hv.schedules n a hold
    rcases Nat.lt_or_ge (n + 1) r.attempts.length with hnext | hnext
    · have hsame : (startAttempt i t r).attempts[n + 1]? = r.attempts[n + 1]? := by
        rw [startAttempt,List.getElem?_append_left hnext]
      unfold validAttemptSchedule at hvalid ⊢
      rw [hsame]
      exact hvalid
    · have hn : n = r.attempts.length - 1 := by omega
      rw [hn,← List.getLast?_eq_getElem?,h.closed] at hold
      cases hold
      have hnew : (startAttempt i t r).attempts[n + 1]? =
          some ⟨r.attempts.length + 1,i,.running,[],none,t,none,.zero⟩ := by
        simp [startAttempt,show n + 1 = r.attempts.length by omega]
      unfold validAttemptSchedule at hvalid ⊢
      rw [hnew]
      rcases h.cause with ⟨-,hchoice⟩ | ⟨hun,-⟩
      · simp only [hchoice,Bool.and_eq_true] at hvalid ⊢
        exact ⟨hvalid.1,by simp [h.accepted,hdue]⟩
      · cases hsch : last.retrySchedule with
        | none => simp [hun]
        | some other => simp [hsch,hun] at hvalid
  · simp [validAttemptSchedule]

theorem WaitsForAttempt.validHistory (h : WaitsForAttempt r last choice) (hv : ValidRecord r) :
    validateActivityAttemptHistory (startAttempt i t r) = true := by
  have hdrop : (startAttempt i t r).attempts.dropLast = r.attempts := by simp [startAttempt]
  simp only [validateActivityAttemptHistory,hdrop,List.all_eq_true]
  intro a ha
  have hold := hv.history
  simp only [validateActivityAttemptHistory,List.all_eq_true] at hold
  have hsplit : r.attempts = r.attempts.dropLast ++ [last] :=
    (List.dropLast_append_getLast? last h.closed).symm
  rw [hsplit] at ha
  rcases List.mem_append.mp ha with ha | ha
  · exact hold a ha
  · cases List.mem_singleton.mp ha
    obtain ⟨n,hn⟩ := List.getElem?_of_mem (List.mem_of_getLast? h.closed)
    simp only [Bool.and_eq_true,bne_iff_ne]
    refine ⟨h.contract,?_⟩
    rcases h.cause with ⟨hfailed,hchoice⟩ | ⟨hun,d,hd,hretry,hattempt,-⟩
    · have hvalid := validateActivityRecordSchedules_iff.mp hv.schedules n last hn
      simp only [validAttemptSchedule,hchoice,hfailed,Bool.and_eq_true] at hvalid
      rw [hfailed]
      exact hvalid.1.1.1.1.2
    · have hlast : r.attempts[r.attempts.length - 1]? = some last := by
        rw [← List.getLast?_eq_getElem?]
        exact h.closed
      have hpos : 0 < r.attempts.length := by
        rw [hsplit]
        simp
      have hnumber := (validActivityAttempts_getElem? hv.attempts hlast).1
      rw [hun]
      exact List.any_eq_true.mpr ⟨d,hd,by simp [hretry,hattempt,hnumber]; omega⟩

end Start

/-- The deadline binds the attempt that a waiting record starts, and nothing else does. -/
theorem startAttempt_valid (h : validActivityRecord r = true) (hs : r.state = .prepared) (hne : r.attempts ≠ [])
    {i : Nat} (hi : i ≠ 0) {t : Time} (ht : t.before r.nextAttemptAt = false) :
    validActivityRecord (startAttempt i t r) = true := by
  have hv := ValidRecord.of_valid h
  obtain ⟨last,choice,hw⟩ := hv.waits hs hne
  have hdue : t.before choice.deadline = false := hw.deadline ▸ ht
  have hzero : t.isZero = false := by
    have := hw.valid
    simp only [activityScheduleTimeValid,Time.isZero,Time.inYears1To9999,Bool.and_eq_true,Bool.not_eq_true',
      beq_eq_false_iff_ne,decide_eq_true_eq,Time.before,decide_eq_false_iff_not] at this ht ⊢
    omega
  simp only [validActivityRecord,Bool.and_eq_true,decide_eq_true_eq] at h ⊢
  obtain ⟨⟨⟨⟨⟨⟨hhead,-⟩,-⟩,-⟩,-⟩,-⟩,-⟩ := h
  refine ⟨⟨⟨⟨⟨⟨hhead,?_⟩,?_⟩,?_⟩,?_⟩,?_⟩,?_⟩
  · exact hw.validAttempts hv hi hzero
  · have := hw.room
    simp only [startAttempt,List.length_append,List.length_singleton,ActivityRetryPolicy.limit]
    omega
  · exact hw.validDecisions hv hdue
  · exact hw.validSchedules hv hdue
  · exact hw.validHistory hv
  · simp [validateActivityRecordState,startAttempt,hw.outcome,Time.isZero,Time.zero]

end Waiting
end Flowy
