import Flowy.Graph.Routing

/-! Runs on storage in memory, which refuses nothing. Such a run fails with an error, completes, or pauses and
has stored where it goes on. -/
namespace Flowy

/-- Storage for one inner run; it compares revisions and refuses nothing else. -/
def captureCheckpointer {W S E : Type} : Checkpointer W S E where
  transactional := false
  saveFault _ _ w := (none,w)
  loadFault _ w := (none,w)
  pruneFault _ w := (none,w)
  commitFault w := (none,w)
  deleteFault _ w := (none,w)

section Reliable

variable {W A T E : Type}

structure Runner.Reliable (r : Runner W A T E) (inv : Invocation W T) : Prop where
  storage : r.checkpointer = some captureCheckpointer
  interceptors : r.interceptors = []
  validator : inv.invariantValidator = none
  outbox : r.resolveHandoffOutbox inv = none

def RunStatus.pauses : RunStatus → Bool
  | .suspended | .handoff | .contextCanceled => true
  | .completed | .transferred | .failed => false

/-- How a run on reliable storage ends. A pause has stored where the run goes on, with all its effects. -/
inductive Concluded (threadID : Text) : (ThreadResult T E × Option Err) × Env W T E → Prop
  | failed {result : ThreadResult T E} {err : Err} {env : Env W T E} (status : result.status = .failed) :
      Concluded threadID ((result,some err),env)
  | completed {result : ThreadResult T E} {err : Option Err} {env : Env W T E}
      (status : result.status = .completed) : Concluded threadID ((result,err),env)
  | paused {result : ThreadResult T E} {err : Option Err} {env : Env W T E} {head : ThreadSnapshot T E}
      (status : result.status.pauses = true) (stored : (env.threads threadID).getLast? = some head)
      (pointer : head.executionPointer ≠ []) (effects : head.effects = result.effects) :
      Concluded threadID ((result,err),env)

theorem newRunResultFailed_status (host : Host W) (state : T) (effects : List E) (runMeta : RunMetadata)
    (pointer reason : Text) (env : Env W T E) :
    (newRunResultFailed host state effects runMeta pointer reason env).1.status = .failed := by
  unfold newRunResultFailed
  split
  · rfl
  · rfl

theorem captureCheckpointer_save {snapshot : ThreadSnapshot T E} {revision : Nat} {env : Env W T E}
    (hhead : headRevision (env.threads snapshot.threadID) = revision) :
    captureCheckpointer.save revision snapshot env =
      (.ok (revision + 1),env.append { snapshot with revision := revision + 1 }) := by
  unfold Checkpointer.save
  exact if_pos hhead

theorem captureCheckpointer_load {threadID : Text} {env : Env W T E} {head : ThreadSnapshot T E}
    (h : (env.threads threadID).getLast? = some head) :
    (captureCheckpointer.load threadID env).1 = .ok head := by
  unfold Checkpointer.load
  dsimp only [captureCheckpointer,Env.call]
  rw [h]
  rfl

variable {r : Runner W A T E} {inv : Invocation W T} {threadID : Text} {revision : Nat} {c : Cursor T E}
  {env env' : Env W T E}

theorem Runner.Reliable.prepares (h : r.Reliable inv) (snapshot : ThreadSnapshot T E) (env : Env W T E) :
    r.prepareSnapshot inv snapshot env = (.ok snapshot,env) := by
  unfold Runner.prepareSnapshot Invocation.validate
  rw [h.storage,h.interceptors,h.validator]
  rfl

theorem Runner.Reliable.persists (h : r.Reliable inv) {snapshot : ThreadSnapshot T E}
    (hhead : headRevision (env.threads snapshot.threadID) = revision) :
    r.persistSnapshotPrepared inv revision snapshot env =
      (.ok (some (snapshot,revision + 1)),env.append { snapshot with revision := revision + 1 }) := by
  unfold Runner.persistSnapshotPrepared
  rw [h.prepares]
  dsimp only
  rw [h.storage]
  dsimp only
  rw [captureCheckpointer_save hhead]

theorem Concluded.pruned {snapshot : ThreadSnapshot T E} {result : ThreadResult T E} {pruned : Env W T E}
    {out : Option Err} (hstatus : result.status.pauses = true) (hthread : snapshot.threadID = threadID)
    (hpointer : snapshot.executionPointer ≠ []) (heffects : snapshot.effects = result.effects)
    (hpolicy : r.applyRetentionPolicy threadID (env.append snapshot) = (out,pruned)) (err : Option Err) :
    Concluded threadID ((result,err),pruned) := by
  subst hthread
  refine .paused hstatus ?_ hpointer heffects
  rw [(Runner.applyRetentionPolicy_head hpolicy).1,Env.append_thread,List.getLast?_concat]

theorem Runner.Reliable.handleContextCancellation (h : r.Reliable inv)
    (hhead : headRevision (env.threads threadID) = revision) (hcurrent : c.current ≠ []) (ctxErr : Err)
    (consumerClose : Bool) :
    Concluded threadID (r.handleContextCancellation inv threadID revision c ctxErr consumerClose env) := by
  unfold Runner.handleContextCancellation
  dsimp only
  rw [h.persists hhead]
  dsimp only
  split
  · next err pruned hpolicy =>
    refine .pruned ?_ rfl hcurrent ?_ hpolicy _
    · rfl
    · rfl
  · next pruned hpolicy =>
    refine .pruned ?_ rfl hcurrent ?_ hpolicy _
    · rfl
    · rfl

theorem Runner.Reliable.saveHandoff (h : r.Reliable inv) {snapshot : ThreadSnapshot T E}
    {result : ThreadResult T E} {signalSession : Bool} {out : (ThreadResult T E × Option Err) × Env W T E}
    (hthread : snapshot.threadID = threadID) (hhead : headRevision (env.threads threadID) = revision)
    (hpointer : snapshot.executionPointer ≠ []) (hstatus : result.status = .handoff)
    (heffects : snapshot.effects = result.effects)
    (hout : r.saveHandoff inv threadID revision snapshot none result signalSession env = some out) :
    Concluded threadID out := by
  subst hthread
  have hpauses : result.status.pauses = true := by
    rw [hstatus]
    rfl
  unfold Runner.saveHandoff at hout
  rw [h.persists hhead] at hout
  dsimp only at hout
  cases hout
  unfold Runner.finalizeHandoffTerminal
  rw [if_pos rfl]
  split
  · next err pruned hpolicy =>
    refine .pruned ?_ ?_ ?_ ?_ hpolicy _
    · exact hpauses
    · rfl
    · exact hpointer
    · exact heffects
  · next pruned hpolicy =>
    refine .pruned ?_ ?_ ?_ ?_ hpolicy _
    · exact hpauses
    · rfl
    · exact hpointer
    · exact heffects

variable [Quoting]

theorem Runner.Reliable.completeHandoffTerminal (h : r.Reliable inv)
    (hhead : headRevision (env.threads threadID) = revision) {current reason : Text} {state : T}
    {runMeta : RunMetadata} {effects : List E} {resumeAt : ExecutionPointer} {signalSession : Bool}
    {out : (ThreadResult T E × Option Err) × Env W T E}
    (hout : r.completeHandoffTerminal inv threadID current state runMeta effects revision reason resumeAt
      signalSession env = some out) : Concluded threadID out := by
  -- without an outbox there is no transaction to try
  have hplain : ∀ snapshot result (env : Env W T E),
      r.tryTransactionalHandoffSave inv threadID revision snapshot none result env = (none,env) := by
    intro snapshot result env
    unfold Runner.tryTransactionalHandoffSave
    rw [h.storage]
    rfl
  unfold Runner.completeHandoffTerminal at hout
  dsimp only at hout
  split at hout
  · cases hout
    exact .failed (newRunResultFailed_status _ _ _ _ _ _ _)
  · next hpointer =>
    have hnamed := (Graph.validateExecutionPointer_none hpointer).1
    rw [h.outbox,hplain] at hout
    dsimp only at hout
    refine h.saveHandoff ?_ ?_ ?_ ?_ ?_ hout
    · rfl
    · exact hhead
    · exact hnamed
    · rfl
    · rfl

theorem Runner.Reliable.handleHandoff (h : r.Reliable inv) (hhead : headRevision (env.threads threadID) = revision)
    {out : (ThreadResult T E × Option Err) × Env W T E}
    (hout : r.handleHandoff inv threadID revision c env = some out) : Concluded threadID out := by
  unfold Runner.handleHandoff at hout
  refine h.completeHandoffTerminal ?_ hout
  exact hhead

omit [Quoting] in
theorem Runner.leaseLost_concluded (c : Cursor T E) (env : Env W T E) : Concluded threadID (r.leaseLost c env) :=
  .failed (newRunResultFailed_status _ _ _ _ _ _ _)

theorem Runner.Reliable.interrupt (h : r.Reliable inv) (hhead : headRevision (env.threads threadID) = revision)
    (hcurrent : c.current ≠ []) {i : Interruption} {out : (ThreadResult T E × Option Err) × Env W T E}
    (hout : r.interrupt inv threadID revision c env i = some out) : Concluded threadID out := by
  cases i with
  | handoff => exact h.handleHandoff hhead hout
  | leaseLost =>
    cases hout
    exact Runner.leaseLost_concluded c env
  | canceled err =>
    cases hout
    refine h.handleContextCancellation ?_ hcurrent err _
    exact hhead

theorem Runner.Reliable.applyDirectiveSuspend (h : r.Reliable inv)
    (hhead : headRevision (env.threads threadID) = revision) {base : Directive A} {result : ThreadResult T E}
    {err : Option Err}
    (hout : r.applyDirectiveSuspend inv threadID revision c base env = (.finish result err,env')) :
    Concluded threadID ((result,err),env') := by
  unfold Runner.applyDirectiveSuspend at hout
  dsimp only at hout
  split at hout
  · cases hout
    exact .failed (newRunResultFailed_status _ _ _ _ _ _ _)
  · next hpointer =>
    have hnamed := (Graph.validateExecutionPointer_none hpointer).1
    rw [h.persists hhead] at hout
    dsimp only at hout
    split at hout
    · next policyErr pruned hpolicy =>
      cases hout
      refine .pruned ?_ rfl hnamed ?_ hpolicy _
      · rfl
      · rfl
    · next pruned hpolicy =>
      cases hout
      refine .pruned ?_ rfl hnamed ?_ hpolicy _
      · rfl
      · rfl

omit [Quoting] in
theorem Runner.failDirective_concluded {err : Err} {result : ThreadResult T E} {out : Option Err}
    (hout : r.failDirective c err env = (.finish result out,env')) : Concluded threadID ((result,out),env') := by
  cases hout
  exact .failed (newRunResultFailed_status _ _ _ _ _ _ _)

omit [Quoting] in
theorem Runner.finishCompleted_concluded {result : ThreadResult T E} {out : Option Err}
    (hout : r.finishCompleted c env = (.finish result out,env')) : Concluded threadID ((result,out),env') := by
  cases hout
  exact .completed rfl

theorem Runner.applyDirectiveCompleted_concluded {result : ThreadResult T E} {out : Option Err}
    {points : List (Point W A T)}
    (hout : r.applyDirectiveCompleted threadID c env = ((.finish result out,points),env')) :
    Concluded threadID ((result,out),env') := by
  unfold Runner.applyDirectiveCompleted at hout
  split at hout
  next answer budgets passed after hresolve =>
  dsimp only at hout
  split at hout
  · cases hout
    exact Runner.failDirective_concluded rfl
  · split at hout
    · cases hout
      exact Runner.finishCompleted_concluded rfl
    · cases hout

theorem Runner.applyDirectiveRetry_concluded {base : Directive A} {result : ThreadResult T E} {out : Option Err}
    {points : List (Point W A T)}
    (hout : r.applyDirectiveRetry c base env = ((.finish result out,points),env')) :
    Concluded threadID ((result,out),env') := by
  unfold Runner.applyDirectiveRetry at hout
  split at hout
  · cases hout
    exact Runner.failDirective_concluded rfl
  · dsimp only at hout
    split at hout
    · cases hout
      exact .failed (newRunResultFailed_status _ _ _ _ _ _ _)
    · split at hout
      · cases hout
        exact Runner.failDirective_concluded rfl
      · cases hout

theorem Runner.Reliable.applyDirective (h : r.Reliable inv) (hhead : headRevision (env.threads threadID) = revision)
    {base : Directive A} {result : ThreadResult T E} {out : Option Err} {points : List (Point W A T)}
    (hout : r.applyDirective inv threadID revision c base env = some ((.finish result out,points),env')) :
    Concluded threadID ((result,out),env') := by
  unfold Runner.applyDirective at hout
  split at hout
  · cases hout
    exact .failed (newRunResultFailed_status _ _ _ _ _ _ _)
  · exact Runner.applyDirectiveCompleted_concluded (Option.some.inj hout)
  · cases hout
    exact Runner.failDirective_concluded rfl
  · cases hout
    exact Runner.finishCompleted_concluded rfl
  · obtain ⟨heq,henv⟩ := Prod.ext_iff.mp (Option.some.inj hout)
    have hnext := congrArg Prod.fst heq
    exact h.applyDirectiveSuspend hhead (Prod.ext hnext henv)
  · obtain ⟨⟨next,after⟩,hhandoff,heq⟩ := Option.map_eq_some_iff.mp hout
    obtain ⟨⟨⟨result',err'⟩,after'⟩,hdone,hnext⟩ := Option.map_eq_some_iff.mp hhandoff
    cases hnext
    cases heq
    exact h.completeHandoffTerminal hhead hdone
  · exact Runner.applyDirectiveRetry_concluded (Option.some.inj hout)
  · cases hout
    exact .failed (newRunResultFailed_status _ _ _ _ _ _ _)
  · cases hout
    exact Runner.failDirective_concluded rfl
  · cases hout
    exact Runner.failDirective_concluded rfl

section Turns

variable {sink : EventSink W T E} {result : ThreadResult T E} {out : Option Err}
  {points passed : List (Point W A T)}

omit [Quoting] in
theorem Runner.ends_done {done : (ThreadResult T E × Option Err) × Env W T E}
    (hout : Runner.ends passed done = ((.done result out,points),env')) : done = ((result,out),env') := by
  cases hout
  rfl

theorem Runner.Reliable.afterFailure (h : r.Reliable inv) (hhead : headRevision (env.threads threadID) = revision)
    (hcurrent : c.current ≠ []) {err : Err} {reason : Text}
    (hout : r.afterFailure inv threadID revision passed c err reason env =
      some ((.done result out,points),env')) : Concluded threadID ((result,out),env') := by
  unfold Runner.afterFailure at hout
  split at hout
  · next after hlease =>
    cases hout
    exact Runner.leaseLost_concluded c after
  · next after hlease =>
    rw [← Host.canceledBy_quiet hlease] at hhead
    split at hout
    · next cancellation after' hpoll =>
      rw [← (Env.of_call hpoll).1] at hhead
      split at hout
      · split at hout
        · next last hhandoff =>
          rw [← Host.canceledBy_quiet hhandoff] at hhead
          obtain ⟨done,hdone,hends⟩ := Option.map_eq_some_iff.mp hout
          rw [← Runner.ends_done hends]
          exact h.handleHandoff hhead hdone
        · next last hhandoff =>
          rw [← Host.canceledBy_quiet hhandoff] at hhead
          rw [← Runner.ends_done (Option.some.inj hout)]
          refine h.handleContextCancellation ?_ hcurrent _ _
          exact hhead
      · cases hout
        exact .failed (newRunResultFailed_status _ _ _ _ _ _ _)
    · next after' hpoll =>
      cases hout
      exact .failed (newRunResultFailed_status _ _ _ _ _ _ _)

theorem Runner.Reliable.afterEmitCanceled (h : r.Reliable inv)
    (hhead : headRevision (env.threads threadID) = revision) (hcurrent : c.current ≠ [])
    (hout : r.afterEmitCanceled inv threadID revision passed c env = some ((.done result out,points),env')) :
    Concluded threadID ((result,out),env') := by
  unfold Runner.afterEmitCanceled at hout
  split at hout
  · next after hhandoff =>
    rw [← Host.canceledBy_quiet hhandoff] at hhead
    obtain ⟨done,hdone,hends⟩ := Option.map_eq_some_iff.mp hout
    rw [← Runner.ends_done hends]
    exact h.handleHandoff hhead hdone
  · next after hhandoff =>
    rw [← Host.canceledBy_quiet hhandoff] at hhead
    split at hout
    · next after' hlease =>
      cases hout
      exact Runner.leaseLost_concluded c after'
    · next after' hlease =>
      rw [← Host.canceledBy_quiet hlease] at hhead
      rw [← Runner.ends_done (Option.some.inj hout)]
      exact h.handleContextCancellation hhead hcurrent _ _

theorem Runner.Reliable.afterStep (h : r.Reliable inv) (hhead : headRevision (env.threads threadID) = revision)
    (hcurrent : c.current ≠ []) {base : Directive A}
    (hout : r.afterStep inv threadID revision passed c base env = some ((.done result out,points),env')) :
    Concluded threadID ((result,out),env') := by
  unfold Runner.afterStep at hout
  split at hout
  · next i after hstop =>
    rw [← Host.interruption_quiet hstop] at hhead
    obtain ⟨done,hdone,hends⟩ := Option.map_eq_some_iff.mp hout
    rw [← Runner.ends_done hends]
    exact h.interrupt hhead hcurrent hdone
  · next after hstop =>
    rw [← Host.interruption_quiet hstop] at hhead
    split at hout
    · cases hout
      exact .failed (newRunResultFailed_status _ _ _ _ _ _ _)
    · split at hout
      · next after' hlease =>
        cases hout
        exact Runner.leaseLost_concluded c after'
      · next after' hlease =>
        rw [← Host.canceledBy_quiet hlease] at hhead
        split at hout
        · cases hout
        · next result' err' more last hfinish =>
          cases hout
          exact h.applyDirective hhead hfinish
        · cases hout

variable [AnyValue A E]

theorem Runner.Reliable.turn (h : r.Reliable inv) (hhead : headRevision (env.threads threadID) = revision)
    (hcurrent : c.current ≠ [])
    (hout : r.turn inv threadID revision sink c env = some ((.done result out,points),env')) :
    Concluded threadID ((result,out),env') := by
  have hsame : ∀ {step : NodeStep A T E} {points : List (Point W A T)} {mid env : Env W T E},
      r.runNodeStep inv threadID sink c env = ((step,points),mid) →
        mid.threads = env.threads ∧ step.cursor.current ≠ [] := by
    intro step points mid env hstep
    obtain ⟨hquiet,hvisit⟩ := Runner.runNodeStep_visit hstep
    rw [hvisit.invocations_le.2]
    exact ⟨hquiet,hcurrent⟩
  unfold Runner.turn at hout
  split at hout
  · next i after hstop =>
    rw [← Host.interruption_quiet hstop] at hhead
    obtain ⟨done,hdone,hends⟩ := Option.map_eq_some_iff.mp hout
    rw [← Runner.ends_done hends]
    exact h.interrupt hhead hcurrent hdone
  · next after hstop =>
    rw [← Host.interruption_quiet hstop] at hhead
    split at hout
    · cases hout
      exact .failed (newRunResultFailed_status _ _ _ _ _ _ _)
    · split at hout
      · next c' err reason points mid hstep =>
        obtain ⟨hquiet,hnamed⟩ := hsame hstep
        rw [← hquiet] at hhead
        exact h.afterFailure hhead hnamed hout
      · next c' points mid hstep =>
        obtain ⟨hquiet,hnamed⟩ := hsame hstep
        rw [← hquiet] at hhead
        exact h.afterEmitCanceled hhead hnamed hout
      · next c' base points mid hstep =>
        obtain ⟨hquiet,hnamed⟩ := hsame hstep
        rw [← hquiet] at hhead
        exact h.afterStep hhead hnamed hout

omit [Quoting] in
theorem Turned.again_quiet {g : Graph W A T} {limit : Nat} {c' : Cursor T E}
    (h : Turned g limit threadID c env ((.again c',points),env')) : env'.threads = env.threads := by
  cases h with
  | continued visit bounded quiet enacted =>
    cases enacted with
    | proceed routed inside steps retries quiet' => exact quiet'.trans quiet

theorem Runner.Reliable.turns (h : r.Reliable inv) {exempt : Text → Bool} (hg : r.graph.WellRouted exempt)
    (hthread : threadID ≠ []) (fuel : Nat) (hhead : headRevision (env.threads threadID) = revision)
    (hnode : (r.graph.nodes.get? c.current).isSome = true)
    (hout : r.turns inv threadID revision sink fuel c env = some (((result,out),points),env')) :
    Concluded threadID ((result,out),env') := by
  induction fuel generalizing c env points with
  | zero => cases hout
  | succ fuel ih =>
    have hcurrent : c.current ≠ [] := by
      intro hnil
      rw [hnil,hg.named] at hnode
      cases hnode
    obtain ⟨⟨⟨turn,passed⟩,mid⟩,hturn,hturned⟩ := r.turn_turned inv revision sink hthread c env
    rw [Runner.turns,hturn] at hout
    cases turn with
    | done result' err' =>
      cases hout
      exact h.turn hhead hcurrent hturn
    | again c' =>
      obtain ⟨⟨⟨done,rest⟩,last⟩,hrest,heq⟩ := Option.map_eq_some_iff.mp hout
      cases heq
      rw [← hturned.again_quiet] at hhead
      exact ih hhead ((hturned.stays hg hnode).next c' rfl) hrest

end Turns

/-! Segments: the cleanup keeps what a pause has stored. -/
section Segments

variable [AnyValue A E] {sink : EventSink W T E} {result : ThreadResult T E} {segment : Segment W A T E}
  {exempt : Text → Bool}

omit [Quoting] [AnyValue A E] in
theorem Concluded.cleaned {err : Option Err} (h : Concluded threadID ((result,err),env))
    (hkept : result.status ≠ .completed → (env'.threads threadID).getLast? = (env.threads threadID).getLast?)
    (cleanup : Option Err) : Concluded threadID ((result,joinErrs err cleanup),env') := by
  cases h with
  | @failed _ err _ status =>
    cases cleanup with
    | none => exact .failed status
    | some cleanup => exact .failed status
  | completed status => exact .completed status
  | paused status stored pointer effects =>
    refine .paused status ((hkept ?_).trans stored) pointer effects
    intro hcompleted
    rw [hcompleted] at status
    cases status

theorem Runner.Reliable.runSession (h : r.Reliable inv) (hg : r.graph.WellRouted exempt) (hthread : threadID ≠ [])
    (hhead : headRevision (env.threads threadID) = revision)
    (hnode : (r.graph.nodes.get? c.current).isSome = true)
    (hout : (r.runSession inv sink threadID revision c env).map (fun out => r.cleaned threadID out.1 out.2) =
      some (segment,env')) (hresult : segment.result = some result) :
    Concluded threadID ((result,segment.err),env') ∧ AddsEffects A c.effects result.effects := by
  unfold Runner.runSession at hout
  split at hout
  · cases hout
    cases hresult
  · next after hfree =>
    rw [← (Env.of_call hfree).1] at hhead
    obtain ⟨⟨⟨⟨result',err⟩,points⟩,done⟩,hexecute,hrun⟩ := r.execute_run inv revision sink hthread c after
    rw [hexecute] at hout
    cases hout
    cases hresult
    refine ⟨(h.turns hg hthread _ hhead hnode hexecute).cleaned (fun hstatus => ?_) _,hrun.addsEffects⟩
    exact Runner.postRunCleanup_head hstatus rfl

theorem Runner.Reliable.start (h : r.Reliable inv) (hg : r.graph.WellRouted exempt)
    (hhead : headRevision (env.threads threadID) = 0) {state : T}
    (hout : r.start inv sink threadID state env = some (segment,env')) (hresult : segment.result = some result) :
    Concluded threadID ((result,segment.err),env') ∧ AddsEffects A [] result.effects := by
  unfold Runner.start at hout
  split at hout
  · cases hout
    cases hresult
  · next hthread =>
    split at hout
    · cases hout
      cases hresult
    · split at hout
      · cases hout
        cases hresult
      · next after hlease =>
        rw [← (Env.of_call hlease).1] at hhead
        refine h.runSession hg hthread ?_ ?_ hout hresult
        · exact hhead
        · exact hg.entry

theorem Runner.Reliable.resume [Inhabited T] (h : r.Reliable inv) (hg : r.graph.WellRouted exempt)
    {token : ResumeToken} {head : ThreadSnapshot T E}
    (hhead : (env.threads token.threadID).getLast? = some head)
    (hout : r.resume inv sink token env = some (segment,env')) (hresult : segment.result = some result) :
    Concluded token.threadID ((result,segment.err),env') ∧ AddsEffects A head.effects result.effects := by
  unfold Runner.resume at hout
  split at hout
  · cases hout
    cases hresult
  · next cp hcp =>
    split at hout
    · cases hout
      cases hresult
    · next hthread =>
      split at hout
      · cases hout
        cases hresult
      · split at hout
        · cases hout
          cases hresult
        · next after hlease =>
          obtain ⟨⟨d,read⟩,heval⟩ : ∃ evaluated, r.evaluateResume inv cp token after = evaluated := ⟨_,rfl⟩
          obtain ⟨hread,hopens⟩ := Runner.evaluateResume_cases heval
          simp only [heval] at hout
          cases herr : d.err with
          | some err =>
            rw [herr] at hout
            cases hout
            cases hresult
          | none =>
            rw [herr] at hout
            obtain ⟨⟨head',hlast,hrev,heffects,-⟩,-,hregistered,-,hrevision⟩ := hopens herr
            rw [(Env.of_call hlease).1,hhead] at hlast
            cases hlast
            rw [← heffects]
            refine h.runSession hg hthread ?_ hregistered hout hresult
            rw [hread,(Env.of_call hlease).1,headRevision,hhead]
            exact hrev.trans hrevision.symm

end Segments
end Reliable

end Flowy
