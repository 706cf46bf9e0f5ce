import Flowy.Graph.Steps

/-! Whole runs and whole segments. A run is a list of turns; a segment is refused, or it opens a cursor, runs
and is cleaned up. -/
namespace Flowy

section Runs

variable {W A T E : Type}

inductive Run [AnyValue A E] (g : Graph W A T) (limit : Nat) (threadID : Text) : Cursor T E → Env W T E →
    List (Point W A T) → (ThreadResult T E × Option Err) × Env W T E → Prop
  | last {c : Cursor T E} {env env' : Env W T E} {points : List (Point W A T)} {result : ThreadResult T E}
      {err : Option Err} (turned : Turned g limit threadID c env ((.done result err,points),env')) :
      Run g limit threadID c env points ((result,err),env')
  | more {c c' : Cursor T E} {env mid : Env W T E} {points rest : List (Point W A T)}
      {out : (ThreadResult T E × Option Err) × Env W T E}
      (turned : Turned g limit threadID c env ((.again c',points),mid))
      (run : Run g limit threadID c' mid rest out) : Run g limit threadID c env (points ++ rest) out

section Execute

variable [Quoting] [AnyValue A E] {g : Graph W A T} {limit : Nat} {threadID : Text} {c c' : Cursor T E}
  {env env' : Env W T E} {points : List (Point W A T)}

omit [Quoting] in
theorem Turned.again_steps (h : Turned g limit threadID c env ((.again c',points),env')) :
    c'.runMeta.stepCount = c.runMeta.stepCount + 1 ∧ c.runMeta.stepCount < limit := by
  cases h with
  | continued visit bounded quiet enacted =>
    cases visit with
    | ran registered current steps retries effects answered =>
      cases enacted with
      | proceed routed inside kept counted quiet' => exact ⟨kept.trans steps,bounded⟩

theorem Runner.turns_run (r : Runner W A T E) (inv : Invocation W T) (revision : Nat) (sink : EventSink W T E)
    (hthread : threadID ≠ []) (fuel : Nat) (c : Cursor T E) (env : Env W T E)
    (hfuel : r.limit < c.runMeta.stepCount + fuel) (hpositive : 0 < fuel) :
    ∃ out, r.turns inv threadID revision sink fuel c env = some out ∧
      Run r.graph r.limit threadID c env out.1.2 (out.1.1,out.2) := by
  induction fuel generalizing c env with
  | zero => exact absurd hpositive (lt_irrefl 0)
  | succ fuel ih =>
    obtain ⟨⟨⟨turn,points⟩,mid⟩,hturn,hturned⟩ := r.turn_turned inv revision sink hthread c env
    rw [Runner.turns,hturn]
    cases turn with
    | done result err => exact ⟨_,rfl,.last hturned⟩
    | again c' =>
      obtain ⟨hsteps,hbelow⟩ := hturned.again_steps
      -- the limit was not reached yet, so fuel is left for the next turn
      obtain ⟨out,hout,hrun⟩ := ih c' mid (by omega) (by omega)
      exact ⟨_,by simp only [hout]; rfl,.more hturned hrun⟩

theorem Runner.execute_run (r : Runner W A T E) (inv : Invocation W T) (revision : Nat) (sink : EventSink W T E)
    (hthread : threadID ≠ []) (c : Cursor T E) (env : Env W T E) :
    ∃ out, r.execute inv threadID revision sink c env = some out ∧
      Run r.graph r.limit threadID c env out.1.2 (out.1.1,out.2) :=
  r.turns_run inv revision sink hthread (r.limit + 1) c env (by omega) (by omega)

end Execute

/-! What a segment does around its run. -/

/-- The call was refused, or `opens` a cursor and runs it. Retention and deletion follow the run; only a
completed thread may lose its head. -/
inductive Performed [AnyValue A E] (g : Graph W A T) (limit : Nat) (threadID : Text)
    (opens : Cursor T E → Nat → Prop) (env : Env W T E) : Segment W A T E × Env W T E → Prop
  | refused {err : Option Err} {env' : Env W T E} (quiet : env'.threads = env.threads) :
      Performed g limit threadID opens env (⟨none,err,[]⟩,env')
  | ran {c : Cursor T E} {revision : Nat} {mid env' : Env W T E} {points : List (Point W A T)}
      {result : ThreadResult T E} {err cleanup : Option Err} {done : Env W T E} (opened : opens c revision)
      (quiet : mid.threads = env.threads)
      (run : Run g limit threadID c mid points ((result,err),done))
      (kept : result.status ≠ .completed →
        (env'.threads threadID).getLast? = (done.threads threadID).getLast?) :
      Performed g limit threadID opens env (⟨some result,joinErrs err cleanup,points⟩,env')

section Outcomes

variable [AnyValue A E] {g : Graph W A T} {limit : Nat} {threadID : Text} {c : Cursor T E}
  {env env' : Env W T E} {points : List (Point W A T)}

theorem Run.paused {out : (ThreadResult T E × Option Err) × Env W T E}
    (h : Run g limit threadID c env points out) (hne : out.1.1.resumeToken.snapshotRevision ≠ 0) :
    out.1.1.status ≠ .completed := by
  induction h with
  | last turned =>
    cases turned with
    | stopped visit bounded saved => exact saved.paused hne
    | finished visit bounded quiet enacted =>
      cases enacted with
      | finish last saved exhausted unstored => exact saved.paused hne
  | more turned run ih => exact ih hne

theorem Visit.addsEffects {c' : Cursor T E} {base : Option (Directive A)} (h : Visit g threadID c points c' base) :
    AddsEffects A c.effects c'.effects := by
  cases h with
  | skipped => exact .refl _
  | missing unregistered => exact .refl _
  | ran registered current steps retries effects answered => exact effects

theorem Run.addsEffects {out : (ThreadResult T E × Option Err) × Env W T E}
    (h : Run g limit threadID c env points out) : AddsEffects A c.effects out.1.1.effects := by
  induction h with
  | last turned =>
    cases turned with
    | stopped visit bounded saved =>
      rw [saved.effects]
      exact visit.addsEffects
    | finished visit bounded quiet enacted =>
      cases enacted with
      | finish last saved exhausted unstored =>
        rw [saved.effects]
        exact visit.addsEffects
  | more turned run ih =>
    cases turned with
    | continued visit bounded quiet enacted => exact visit.addsEffects.trans ih

variable {opens : Cursor T E → Nat → Prop} {segment : Segment W A T E}

theorem Performed.quiet_of_refused (h : Performed g limit threadID opens env (segment,env'))
    (hnone : segment.result = none) : segment.points = [] ∧ env'.threads = env.threads := by
  cases h with
  | refused quiet => exact ⟨rfl,quiet⟩
  | ran opened quiet run kept => cases hnone

theorem Performed.refused_of (h : Performed g limit threadID opens env (segment,env'))
    (hopens : ∀ c revision, ¬opens c revision) : segment.result = none := by
  cases h with
  | refused quiet => rfl
  | ran opened quiet run kept => exact absurd opened (hopens _ _)

end Outcomes

section Segments

variable {r : Runner W A T E} {inv : Invocation W T} {threadID : Text} {env env' : Env W T E}

theorem Runner.postRunCleanup_head {result : ThreadResult T E} {out : Option Err}
    (hstatus : result.status ≠ .completed)
    (h : r.postRunCleanup threadID (some result) env = (out,env')) :
    (env'.threads threadID).getLast? = (env.threads threadID).getLast? := by
  unfold Runner.postRunCleanup at h
  dsimp only at h
  cases h
  split
  · unfold Runner.applyTerminalPolicies
    split
    · rfl
    · rw [if_neg fun hboth => hstatus hboth.1]
      exact (Runner.applyRetentionPolicy_head rfl).1
  · rfl

theorem applyResumeTargetPolicy_quiet {state : T} {current : ExecutionPointer}
    {out : Result (T × ExecutionPointer)} (h : inv.applyResumeTargetPolicy state current env = (out,env')) :
    env'.threads = env.threads := by
  unfold Invocation.applyResumeTargetPolicy at h
  split at h
  · cases h
    rfl
  · split at h
    · next hcall =>
      cases h
      exact (Env.of_call hcall).1
    · next hcall =>
      split at h
      · cases h
        exact (Env.of_call hcall).1
      · cases h
        exact (Env.of_call hcall).1

theorem settled_retryCounts (runMeta : RunMetadata) : runMeta.settled.retryCounts = runMeta.retryCounts := by
  unfold RunMetadata.settled
  split
  · rfl
  · rfl

theorem Host.freshRunMetadata_quiet (host : Host W) (env : Env W T E) :
    (host.freshRunMetadata env).2.threads = env.threads := rfl

variable [Quoting] [AnyValue A E] {sink : EventSink W T E}

theorem Runner.runSession_performed (r : Runner W A T E) (inv : Invocation W T) (sink : EventSink W T E)
    (hthread : threadID ≠ []) (revision : Nat) (c : Cursor T E) {opens : Cursor T E → Nat → Prop}
    (hopens : opens c revision) {mid : Env W T E} (hquiet : mid.threads = env.threads) :
    ∃ out, (r.runSession inv sink threadID revision c mid).map (fun out => r.cleaned threadID out.1 out.2) =
        some out ∧ Performed r.graph r.limit threadID opens env out := by
  unfold Runner.runSession
  split
  · next after hbusy =>
    refine ⟨_,rfl,.refused ?_⟩
    exact (Env.of_call hbusy).1.trans hquiet
  · next after hfree =>
    obtain ⟨⟨⟨⟨result,err⟩,points⟩,done⟩,hout,hrun⟩ := r.execute_run inv revision sink hthread c after
    rw [hout]
    refine ⟨_,rfl,.ran hopens ((Env.of_call hfree).1.trans hquiet) hrun fun hstatus => ?_⟩
    exact Runner.postRunCleanup_head hstatus rfl

structure OpensFresh (g : Graph W A T) (state : T) (c : Cursor T E) (revision : Nat) : Prop where
  current : c.current = g.entryPoint
  state : c.state = state
  effects : c.effects = []
  steps : c.runMeta.stepCount = 0
  retries : c.runMeta.retryCounts = ∅
  revision : revision = 0

theorem Runner.start_performed (r : Runner W A T E) (inv : Invocation W T) (sink : EventSink W T E)
    (threadID : Text) (state : T) (env : Env W T E) :
    ∃ out, r.start inv sink threadID state env = some out ∧
      Performed r.graph r.limit threadID (OpensFresh r.graph state) env out := by
  unfold Runner.start
  split
  · exact ⟨_,rfl,.refused rfl⟩
  · next hthread =>
    split
    · exact ⟨_,rfl,.refused rfl⟩
    · split
      · next err after hlease => exact ⟨_,rfl,.refused (Env.of_call hlease).1⟩
      · next after hlease =>
        refine r.runSession_performed inv sink hthread 0 _ ?_
          ((r.host.freshRunMetadata_quiet after).trans (Env.of_call hlease).1)
        exact ⟨rfl,rfl,rfl,rfl,rfl,rfl⟩

structure OpensHead (g : Graph W A T) (env : Env W T E) (token : ResumeToken) (c : Cursor T E)
    (revision : Nat) : Prop where
  head : ∃ head, (env.threads token.threadID).getLast? = some head ∧
    head.revision = token.snapshotRevision ∧ c.effects = head.effects ∧
    c.runMeta.retryCounts = head.runMeta.retryCounts
  positive : token.snapshotRevision ≠ 0
  registered : (g.nodes.get? c.current).isSome = true
  steps : c.runMeta.stepCount = 0
  revision : revision = token.snapshotRevision

omit [AnyValue A E] in
theorem Runner.resumeTarget_cases {token : ResumeToken} {snapshot : ThreadSnapshot T E} {revision : Nat}
    {d : ResumeDecision T E} (h : r.resumeTarget inv token snapshot revision env = (d,env')) :
    env'.threads = env.threads ∧
      (d.err = none → (r.graph.nodes.get? d.executionPointer).isSome = true ∧ d.runMeta.stepCount = 0 ∧
        d.runMeta.retryCounts = snapshot.runMeta.retryCounts ∧ d.effects = snapshot.effects ∧
        d.snapshotRevision = revision) := by
  unfold Runner.resumeTarget at h
  dsimp only at h
  split at h
  · next err after hload =>
    cases h
    exact ⟨(Env.of_call hload).1,fun herr => (Option.some_ne_none _ herr).elim⟩
  · next state after hload =>
    have hquiet := (Env.of_call hload).1
    split at h
    · cases h
      exact ⟨hquiet,fun herr => (Option.some_ne_none _ herr).elim⟩
    · next state' hoverlay =>
      split at h
      · next err after' hpolicy =>
        cases h
        exact ⟨(applyResumeTargetPolicy_quiet hpolicy).trans hquiet,fun herr => (Option.some_ne_none _ herr).elim⟩
      · next state'' pointer after' hpolicy =>
        have hquiet' : after'.threads = env.threads := (applyResumeTargetPolicy_quiet hpolicy).trans hquiet
        split at h
        · cases h
          exact ⟨hquiet',fun herr => (Option.some_ne_none _ herr).elim⟩
        · split at h
          · next hregistered =>
            cases h
            refine ⟨hquiet',fun _ => ⟨hregistered,rfl,?_,rfl,rfl⟩⟩
            exact settled_retryCounts snapshot.runMeta
          · cases h
            exact ⟨hquiet',fun herr => (Option.some_ne_none _ herr).elim⟩

omit [AnyValue A E] in
theorem Runner.evaluateResume_cases [Inhabited T] {cp : Checkpointer W T E} {token : ResumeToken}
    {d : ResumeDecision T E} (h : r.evaluateResume inv cp token env = (d,env')) :
    env'.threads = env.threads ∧
      (d.err = none → OpensHead r.graph env token ⟨d.executionPointer,d.state,d.runMeta,d.effects⟩
        d.snapshotRevision) := by
  unfold Runner.evaluateResume at h
  split at h
  · cases h
    exact ⟨rfl,nofun⟩
  · unfold Checkpointer.loadNormalizedSnapshot at h
    cases hload : cp.load token.threadID env with
    | mk out after =>
      obtain ⟨⟨hquiet,-⟩,hlast⟩ := Checkpointer.load_cases hload
      rw [hload] at h
      cases out with
      | error err =>
        cases h
        exact ⟨hquiet,nofun⟩
      | ok snapshot =>
        have hcontinues := normalizeLoadedSnapshot_continues token.threadID snapshot snapshot.revision
        dsimp only at h
        cases hnorm : (normalizeLoadedSnapshot token.threadID snapshot snapshot.revision).2 with
        | some err =>
          rw [hnorm] at h
          cases h
          exact ⟨hquiet,nofun⟩
        | none =>
          rw [hnorm] at h
          dsimp only [Option.map_none] at h
          split at h
          · cases h
            exact ⟨hquiet,nofun⟩
          · next hpositive =>
            split at h
            · cases h
              exact ⟨hquiet,nofun⟩
            · next hrevision =>
              have hread := (r.readForRecovery_clean
                (normalizeLoadedSnapshot token.threadID snapshot snapshot.revision).1 after).1
              split at h
              · cases h
                exact ⟨hread.trans hquiet,nofun⟩
              · obtain ⟨hquiet',hready⟩ := Runner.resumeTarget_cases h
                refine ⟨hquiet'.trans (hread.trans hquiet),fun herr => ?_⟩
                obtain ⟨hregistered,hsteps,hretries,heffects,hrev⟩ := hready herr
                have hsame : token.snapshotRevision = snapshot.revision := not_ne_iff.mp hrevision
                constructor
                case head => exact ⟨snapshot,hlast snapshot rfl,hsame.symm,
                  heffects.trans hcontinues.effects.symm,hretries.trans hcontinues.retryCounts.symm⟩
                case positive => exact hpositive
                case registered => exact hregistered
                case steps => exact hsteps
                case revision => exact hrev.trans hsame.symm

theorem Runner.resume_performed [Inhabited T] (r : Runner W A T E) (inv : Invocation W T)
    (sink : EventSink W T E) (token : ResumeToken) (env : Env W T E) :
    ∃ out, r.resume inv sink token env = some out ∧
      Performed r.graph r.limit token.threadID (OpensHead r.graph env token) env out := by
  unfold Runner.resume
  split
  · exact ⟨_,rfl,.refused rfl⟩
  · next cp hcp =>
    split
    · exact ⟨_,rfl,.refused rfl⟩
    · next hthread =>
      split
      · exact ⟨_,rfl,.refused rfl⟩
      · split
        · next err after hlease => exact ⟨_,rfl,.refused (Env.of_call hlease).1⟩
        · next after hlease =>
          have hquiet := (Env.of_call hlease).1
          obtain ⟨⟨d,read⟩,heval⟩ : ∃ evaluated, r.evaluateResume inv cp token after = evaluated := ⟨_,rfl⟩
          obtain ⟨hread,hopens⟩ := Runner.evaluateResume_cases heval
          simp only [heval]
          cases herr : d.err with
          | some err => exact ⟨_,rfl,.refused (hread.trans hquiet)⟩
          | none =>
            refine r.runSession_performed inv sink hthread d.snapshotRevision _ ?_ (hread.trans hquiet)
            obtain ⟨hhead,hpositive,hregistered,hsteps,hrevision⟩ := hopens herr
            rw [hquiet] at hhead
            exact ⟨hhead,hpositive,hregistered,hsteps,hrevision⟩

end Segments

end Runs
end Flowy
