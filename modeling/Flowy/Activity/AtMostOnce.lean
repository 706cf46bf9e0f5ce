import Flowy.Activity.Dispatch

/-! Attempts are justified and dispatched at most once, in every run of the activity protocol. -/
namespace Flowy

open Fencing

variable {C W : Type}

/-- What permits an attempt after the last one of `r` to start at `started`: a retryable failure
with its stored deadline, or a stored manual decision for an attempt of unknown outcome. -/
inductive RetryPermitted (r : ActivityRecord) (started : Time) : Prop
  | scheduled (a : ActivityAttempt) (choice : ActivityRetryScheduleDecision)
      (last : r.attempts.getLast? = some a) (failed : a.state = .failed)
      (retryable : a.classification = some .retryable) (contract : r.retry.safeRetryContract ≠ [])
      (chosen : a.retrySchedule = some choice) (due : ¬ started.before choice.deadline)
  | decided (a : ActivityAttempt) (d : ActivityResolutionRecord)
      (choice : ActivityRetryScheduleDecision) (last : r.attempts.getLast? = some a)
      (unknown : a.state = .unknown) (decision : d ∈ r.resolutions) (action : d.action = .retry)
      (attempt : d.attempt = a.number) (chosen : d.retrySchedule = some choice)
      (due : ¬ started.before choice.deadline)

section Permission

variable {r : ActivityRecord} {i : Nat} {now : Time}

theorem startAttempt_getElem? {n : Nat} {a : ActivityAttempt} (ha : r.attempts[n]? = some a) :
    (startAttempt i now r).attempts[n]? = some a := by
  have hlt := (List.getElem?_eq_some_iff.mp ha).1
  rwa [startAttempt,List.getElem?_append_left hlt]

theorem startAttempt_next :
    (startAttempt i now r).attempts[r.attempts.length]? =
      some ⟨r.attempts.length + 1,i,.running,[],none,now,none,.zero⟩ := by
  simp [startAttempt]

variable [Sha256]

theorem ValidRecord.scheduled_due (hv : ValidRecord (startAttempt i now r)) {n : Nat}
    {a : ActivityAttempt} (hn : r.attempts.length = n + 1) (ha : r.attempts[n]? = some a)
    (hf : a.state = .failed) (hc : a.classification = some .retryable) (hnum : a.number = n + 1) :
    ∃ choice, a.retrySchedule = some choice ∧ ¬ now.before choice.deadline := by
  have hmem : (a,n) ∈ (startAttempt i now r).attempts.zipIdx :=
    List.mem_zipIdx_iff_getElem?.mpr (startAttempt_getElem? ha)
  have hs := List.all_eq_true.mp hv.schedules _ hmem
  have hlen : ((r.attempts.length : Int) + 1) ≤ r.retry.limit := by
    simpa [startAttempt] using hv.length_le
  cases hchoice : a.retrySchedule with
  | none =>
    -- two attempts need a policy, which makes the schedule mandatory
    have hmax : ((n + 1 : Nat) : Int) < r.retry.maxAttempts := by
      unfold ActivityRetryPolicy.limit at hlen
      split at hlen <;> omega
    simp only [hchoice,hf,hc,hnum,startAttempt] at hs
    simp at hs
    omega
  | some choice =>
    refine ⟨choice,rfl,?_⟩
    have hnext := @startAttempt_next r i now
    rw [hn] at hnext
    simp only [hchoice,hnext,Bool.and_eq_true,Bool.not_eq_true'] at hs
    exact Bool.eq_false_iff.mp hs.2.2

theorem ValidRecord.decided_due (hv : ValidRecord (startAttempt i now r))
    {d : ActivityResolutionRecord} (hd : d ∈ r.resolutions) (hr : d.action = .retry)
    (ha : d.attempt = r.attempts.length) :
    ∃ choice, d.retrySchedule = some choice ∧ ¬ now.before choice.deadline := by
  have hds := (Bool.and_eq_true_iff.mp hv.decisions).1
  obtain ⟨seen,n,m,hvd⟩ := validActivityDecisionsFrom_mem hds hd
  simp only [validActivityDecision,Bool.and_eq_true] at hvd
  obtain ⟨⟨⟨⟨-,-⟩,haction⟩,hdue⟩,-⟩ := hvd
  cases hchoice : d.retrySchedule with
  | none => simp [validActivityDecisionAction,hr,hchoice,validActivityRetryScheduleDecision] at haction
  | some choice =>
    refine ⟨choice,rfl,?_⟩
    rw [ha,startAttempt_next,hchoice,hr] at hdue
    exact Bool.eq_false_iff.mp (by simpa [startAttempt] using hdue)

theorem ValidRecord.permitted (hv : ValidRecord (startAttempt i now r)) (hne : r.attempts ≠ []) :
    RetryPermitted r now := by
  obtain ⟨n,hn⟩ : ∃ n, r.attempts.length = n + 1 :=
    Nat.exists_eq_succ_of_ne_zero (by simpa using hne)
  obtain ⟨a,ha⟩ : ∃ a, r.attempts[n]? = some a := ⟨_,List.getElem?_eq_getElem (by omega)⟩
  have hlast : r.attempts.getLast? = some a := by
    rw [List.getLast?_eq_getElem?,hn]
    exact ha
  have hnum := (validActivityAttempts_getElem? hv.attempts (startAttempt_getElem? ha)).1
  have hdrop : (startAttempt i now r).attempts.dropLast = r.attempts := by simp [startAttempt]
  have hhist := hv.history
  unfold validateActivityAttemptHistory at hhist
  rw [hdrop] at hhist
  have ha' := List.all_eq_true.mp hhist a (List.mem_of_getElem? ha)
  simp only [Bool.and_eq_true,bne_iff_ne] at ha'
  obtain ⟨hcontract,hstate⟩ := ha'
  cases hs : a.state with
  | failed =>
    simp only [hs,beq_iff_eq] at hstate
    obtain ⟨choice,hchoice,hdue⟩ := hv.scheduled_due hn ha hs hstate hnum
    exact .scheduled a choice hlast hs hstate hcontract hchoice hdue
  | unknown =>
    simp only [hs,hasActivityRetryDecision,List.any_eq_true,Bool.and_eq_true,beq_iff_eq] at hstate
    obtain ⟨d,hd,hattempt,haction⟩ := hstate
    obtain ⟨choice,hchoice,hdue⟩ := hv.decided_due hd haction (by omega)
    exact .decided a d choice hlast hs hd haction hattempt hchoice hdue
  | prepared | running | completed => simp [hs] at hstate

end Permission

section Runs

variable [Sha256]

def AttemptJustified (prev : Option (ExecutionEnvelope Journal C W)) (id : Text)
    (r' : ActivityRecord) : Prop :=
  r'.attempts.length = attemptCount prev id + 1 ∧
    (attemptCount prev id ≠ 0 → ∃ e r b, prev = some e ∧ e.journal.get? id = some r ∧
      r'.attempts.getLast? = some b ∧ RetryPermitted r b.startedAt)

theorem ActivityLink.attempts {prev : Option (ExecutionEnvelope Journal C W)}
    {e' : ExecutionEnvelope Journal C W} (h : ActivityLink prev e') {id : Text} {r' : ActivityRecord}
    (hr' : e'.journal.get? id = some r') :
    r'.attempts.length = attemptCount prev id ∨ AttemptJustified prev id r' := by
  cases prev with
  | none =>
    rw [show e'.journal = ∅ from h] at hr'
    cases hr'
  | some e =>
    rcases h id with heq | ⟨i,r'',hr'',hstep,-⟩
    · exact .inl (by simp [attemptCount,← heq,hr'])
    · rw [hr'] at hr''
      cases hr''
      generalize hprev : e.journal.get? id = prev at hstep
      cases hstep with
      | prepared _ hs ha => exact .inl (by simp [attemptCount,hprev,ha])
      | settled r _ hs hn => exact .inl (by simp [attemptCount,hprev,length_of_numbers hn])
      | started r now hs hv hv' =>
        refine .inr ⟨by simp [attemptCount,hprev,startAttempt],fun hne => ?_⟩
        have hne' : r.attempts ≠ [] := by simpa [attemptCount,hprev] using hne
        exact ⟨e,r,_,rfl,hprev,by simp [startAttempt,ActivityRecord.reread]; rfl,hv'.permitted hne'⟩

def KeepsCompleted (e e' : ExecutionEnvelope Journal C W) : Prop :=
  ∀ id r, e.journal.get? id = some r → r.state = .completed → e'.journal.get? id = some r

theorem JournalStep.keepsCompleted {e e' : ExecutionEnvelope Journal C W} (h : JournalStep e e') :
    KeepsCompleted e e' := by
  intro id r hr hs
  rcases h id with heq | ⟨i,r',-,hstep,-⟩
  · rw [heq,hr]
  · rw [hr] at hstep
    cases hstep with
    | started _ _ hp => simp [hs] at hp
    | settled _ _ hp => simp [hs] at hp

structure AtMostOnce (s : State (ExecutionEnvelope Journal C W) Calls ActivityEvent) : Prop where
  /-- A dispatch follows the commit of its running attempt, made by the same call. -/
  committed_first : ∀ pre i k id n post, s.trace = pre ++ .dispatch i k id n :: post →
    ∃ rev, .intent i k id n rev ∈ pre ∧ IntentOk s.log i id n rev
  once : ((dispatches s.trace).map Prod.snd).Nodup
  numbered : ∀ e ∈ s.log, ∀ id r, e.journal.get? id = some r →
    r.numbers = List.range' 1 r.attempts.length ∧
      (r.attempts.length : Int) ≤ max 1 r.retry.maxAttempts
  justified : ∀ pre e post id r, s.log = pre ++ e :: post → e.journal.get? id = some r →
    r.attempts.length = attemptCount pre.getLast? id ∨ AttemptJustified pre.getLast? id r
  completed : ∀ (k n : Nat) e e' id r, k ≤ n → s.log[k]? = some e → s.log[n]? = some e' →
    e.journal.get? id = some r → r.state = .completed → e'.journal.get? id = some r

/-- Any number of workers and calls, with crashes, lost acknowledgements and takeovers. -/
theorem activity_at_most_once {s : State (ExecutionEnvelope Journal C W) Calls ActivityEvent}
    (h : Reachable (activityProtocol C W) s) : AtMostOnce s := by
  have htraced := traced_of_reachable h
  have hholds := activityRule.reachable h
  refine ⟨?_,?_,?_,?_,?_⟩
  · intro pre i k id n post htr
    obtain ⟨rev,hrev⟩ := htraced.matched pre i k id n post htr
    exact ⟨rev,hrev,htraced.intents i k id n rev (by simp [htr,hrev])⟩
  · have hinj : ∀ d ∈ dispatches s.trace, ∀ d' ∈ dispatches s.trace, d.2 = d'.2 → d = d' := by
      rintro ⟨⟨i,k⟩,id,n⟩ hd ⟨⟨i',k'⟩,id',n'⟩ hd' heq
      cases heq
      obtain ⟨rev,hrev⟩ := htraced.intent_of_dispatch (mem_dispatches.mp hd)
      obtain ⟨rev',hrev'⟩ := htraced.intent_of_dispatch (mem_dispatches.mp hd')
      rw [htraced.intent_unique hholds.linked hrev hrev']
    exact List.Nodup.map_on hinj htraced.once.of_map
  · intro e he id r hr
    have hsound := hholds.entry e he id r hr
    exact ⟨hsound.numbers,hsound.bounded⟩
  · intro pre e post id r hlog hr
    exact (hholds.linked pre e post hlog).attempts hr
  · intro k n e e' id r hle hk hn hr hs
    rcases Nat.lt_or_ge k n with hlt | hge
    · exact hholds.linked.trans (T := KeepsCompleted) (fun _ _ hR => JournalStep.keepsCompleted hR)
        (fun _ _ _ h1 h2 id r hr hs => h2 id r (h1 id r hr hs) hs) hk hn hlt id r hr hs
    · obtain rfl : k = n := by omega
      rw [hk] at hn
      cases hn
      exact hr

end Runs

section Example

attribute [local instance] Sha256.hex

def sampleRequest : ActivityRequest :=
  ⟨ascii "k",ascii "v1",[],⟨ascii "p",2,⟨.fixed,5,5,0,0,[]⟩,ascii "idempotent"⟩,false,true⟩

def retryScript : List (Command (ActivityAction (GoMap Text Unit) (GoMap Text Unit))) :=
  [.acquire,
    .act 1 (.other (prepareStart (ascii "x") .sample none (ascii "n") [] [] (newRunMetadata [] ⟨1⟩))),
    .act 1 (.call 0 sampleRequest ⟨1⟩ ⟨1⟩), .act 1 (.run 0 ⟨2⟩), .act 1 (.dispatch 0),
    .act 1 (.finish 0 (.raised (.of .activityFailed) ⟨.retryable,.zero⟩) ⟨3⟩ none),
    .act 1 (.call 1 sampleRequest ⟨8⟩ ⟨8⟩), .act 1 (.dispatch 1)]

def retryIdentity : Text := activityAddressIdentity (ascii "x") (ascii "n") 1 (ascii "k")

theorem retryScript_trace :
    ((activityProtocol (GoMap Text Unit) (GoMap Text Unit)).script retryScript).map (fun s => s.trace) =
      some [.intent 1 0 retryIdentity 1 3,.dispatch 1 0 retryIdentity 1,
        .intent 1 1 retryIdentity 2 5,.dispatch 1 1 retryIdentity 2] := by
  decide +kernel

theorem activity_at_most_once_retried :
    ∃ s : State (ExecutionEnvelope Journal (GoMap Text Unit) (GoMap Text Unit)) Calls ActivityEvent,
      (dispatches s.trace).map Prod.snd = [(retryIdentity,1),(retryIdentity,2)] ∧ AtMostOnce s := by
  obtain ⟨s,hs,htr⟩ := Option.map_eq_some_iff.mp retryScript_trace
  exact ⟨s,by rw [htr]; rfl,activity_at_most_once (.of_script hs)⟩

end Example
end Flowy
