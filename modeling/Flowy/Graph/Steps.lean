import Flowy.Graph.Resume
import Flowy.Graph.HandoffReports

/-! What one turn of the run loop can do, one lemma for each function of the loop. -/
namespace Flowy

section Steps

variable {W A T E : Type}

def NodeStep.cursor : NodeStep A T E → Cursor T E
  | .failed c _ _ | .emitCanceled c | .stepped c _ => c

def NodeStep.base : NodeStep A T E → Option (Directive A)
  | .stepped _ base => some base
  | .failed _ _ _ | .emitCanceled _ => none

def AddsEffects (A : Type) [AnyValue A E] (before later : List E) : Prop :=
  ∃ more, later = before ++ more ∧ ∀ e ∈ more, ∃ a : A, AnyValue.assert a = some e

section Added

variable [AnyValue A E]

theorem AddsEffects.refl (effects : List E) : AddsEffects A effects effects :=
  ⟨[],(List.append_nil effects).symm,fun _ he => (List.not_mem_nil he).elim⟩

theorem AddsEffects.trans {xs ys zs : List E} (h : AddsEffects A xs ys) (h' : AddsEffects A ys zs) :
    AddsEffects A xs zs := by
  obtain ⟨more,rfl,hmore⟩ := h
  obtain ⟨rest,rfl,hrest⟩ := h'
  refine ⟨more ++ rest,List.append_assoc xs more rest,fun e he => ?_⟩
  exact (List.mem_append.mp he).elim (hmore e) (hrest e)

theorem unwrapLoop_asserted {d base : Directive A} {passed effects : List E}
    (h : unwrapLoop d passed = .ok (base,effects)) (hpassed : ∀ e ∈ passed, ∃ a : A, AnyValue.assert a = some e) :
    ∀ e ∈ effects, ∃ a : A, AnyValue.assert a = some e := by
  induction d, passed using unwrapLoop.induct with
  | case1 reason maxAttempts resumeAt inner payload spec passed hnone => simp [unwrapLoop,hnone] at h
  | case2 reason maxAttempts resumeAt payload spec passed effect hsome => simp [unwrapLoop,hsome] at h
  | case3 reason maxAttempts resumeAt payload spec passed d effect hsome ih =>
    simp only [unwrapLoop,if_true,hsome] at h
    refine ih h fun e he => ?_
    obtain he | he := List.mem_append.mp he
    · exact hpassed e he
    · rw [List.mem_singleton.mp he]
      obtain ⟨a,-,ha⟩ := Option.bind_eq_some_iff.mp hsome
      exact ⟨a,ha⟩
  | case4 reason maxAttempts resumeAt inner payload spec passed heffect => simp [unwrapLoop] at h
  | case5 kind reason maxAttempts resumeAt inner payload spec passed heffect hset =>
    simp only [unwrapLoop,if_neg heffect,if_neg hset] at h
    cases h
    exact fun e he => hpassed e (List.mem_reverse.mp he)

theorem AddsEffects.unwrapped {d base : Directive A} {effects : List E}
    (h : unwrapDirective d = .ok (base,effects)) (before : List E) : AddsEffects A before (before ++ effects) :=
  ⟨effects,rfl,unwrapLoop_asserted h fun _ he => (List.not_mem_nil he).elim⟩

end Added

inductive Visit [AnyValue A E] (g : Graph W A T) (threadID : Text) (c : Cursor T E) :
    List (Point W A T) → Cursor T E → Option (Directive A) → Prop
  | skipped : Visit g threadID c [] c none
  | missing (unregistered : g.nodes.get? c.current = none) : Visit g threadID c [.missing c.current] c none
  | ran {handler : Node W A T} {w : W} {c' : Cursor T E} {base : Option (Directive A)}
      (registered : g.nodes.get? c.current = some handler)
      (current : c'.current = c.current)
      (steps : c'.runMeta.stepCount = c.runMeta.stepCount + 1)
      (retries : c'.runMeta.retryCounts = c.runMeta.retryCounts)
      (effects : AddsEffects A c.effects c'.effects)
      (answered : ∀ b, base = some b → ∃ update d effects,
        (handler ⟨threadID,c.current,c.runMeta.budgetCounts⟩ c.state w).1.answer = .ok (update,d) ∧
          unwrapDirective d = .ok (b,effects) ∧ c'.effects = c.effects ++ effects) :
      Visit g threadID c [.invoked c.current ⟨threadID,c.current,c.runMeta.budgetCounts⟩ c.state w] c' base

section Quiet

variable {env env' : Env W T E} {sink : EventSink W T E}

theorem emitEvent_quiet {event : RunEvent T E} {ok : Bool} (h : emitEvent sink event env = (ok,env')) :
    env'.threads = env.threads := by
  cases sink with
  | none =>
    cases h
    rfl
  | some sink => exact (Env.of_call h).1

theorem emitCompleted_quiet {pointer : Text} {state : T} {effects : List E} {ok : Bool}
    (h : emitCompleted sink pointer state effects env = (ok,env')) : env'.threads = env.threads := by
  induction effects generalizing env with
  | nil => exact emitEvent_quiet h
  | cons effect effects ih =>
    cases effects with
    | nil => exact emitEvent_quiet h
    | cons effect' effects =>
      unfold emitCompleted at h
      split at h
      · next after hemit =>
        cases h
        exact emitEvent_quiet hemit
      · next after hemit => exact (ih h).trans (emitEvent_quiet hemit)

theorem Host.canceledBy_quiet {host : Host W} {cause : Sentinel} {hit : Bool}
    (h : host.canceledBy cause env = (hit,env')) : env'.threads = env.threads := by
  cases h
  rfl

theorem Host.interruption_quiet {host : Host W} {i : Option Interruption}
    (h : host.interruption env = (i,env')) : env'.threads = env.threads := by
  unfold Host.interruption at h
  split at h
  · next after hhandoff =>
    cases h
    exact canceledBy_quiet hhandoff
  · next after hhandoff =>
    split at h
    · next after' hlease =>
      cases h
      exact (canceledBy_quiet hlease).trans (canceledBy_quiet hhandoff)
    · next after' hlease =>
      cases h
      exact (canceledBy_quiet hlease).trans (canceledBy_quiet hhandoff)

end Quiet

theorem Runner.runNodeStep_visit [Quoting] [AnyValue A E] {r : Runner W A T E} {inv : Invocation W T}
    {threadID : Text} {sink : EventSink W T E} {c : Cursor T E} {env env' : Env W T E} {step : NodeStep A T E}
    {points : List (Point W A T)} (h : r.runNodeStep inv threadID sink c env = ((step,points),env')) :
    env'.threads = env.threads ∧ Visit r.graph threadID c points step.cursor step.base := by
  unfold Runner.runNodeStep at h
  split at h
  · next hnode =>
    cases h
    exact ⟨rfl,.missing hnode⟩
  · next handler hnode =>
    split at h
    · next after hstarted =>
      cases h
      exact ⟨emitEvent_quiet hstarted,.skipped⟩
    · next started hstarted =>
      have hquiet := emitEvent_quiet hstarted
      dsimp only at h
      split at h
      · next inner hanswer =>
        cases h
        exact ⟨hquiet,.ran hnode rfl rfl rfl (.refl _) nofun⟩
      · next update directive hanswer =>
        split at h
        · next err after hinvalid =>
          cases h
          exact ⟨(Env.of_call hinvalid).1.trans hquiet,.ran hnode rfl rfl rfl (.refl _) nofun⟩
        · next after hvalid =>
          have hquiet' := (Env.of_call hvalid).1.trans hquiet
          split at h
          · next err hunwrap =>
            cases h
            exact ⟨hquiet',.ran hnode rfl rfl rfl (.refl _) nofun⟩
          · next base effects hunwrap =>
            split at h
            · next last hemit =>
              cases h
              exact ⟨(emitCompleted_quiet hemit).trans hquiet',
                .ran hnode rfl rfl rfl (.unwrapped hunwrap _) nofun⟩
            · next last hemit =>
              cases h
              refine ⟨(emitCompleted_quiet hemit).trans hquiet',
                .ran hnode rfl rfl rfl (.unwrapped hunwrap _) fun b hb => ?_⟩
              cases hb
              exact ⟨update,directive,effects,hanswer,hunwrap,rfl⟩

/-- A run ended at `c`: its token names the head of the thread, or nothing was stored. -/
structure Saved (threadID : Text) (c : Cursor T E) (env : Env W T E)
    (out : (ThreadResult T E × Option Err) × Env W T E) : Prop where
  effects : out.1.1.effects = c.effects
  paused : out.1.1.resumeToken.snapshotRevision ≠ 0 → out.1.1.status ≠ .completed
  stored : out.1.1.resumeToken.snapshotRevision ≠ 0 → out.1.1.resumeToken.threadID = threadID ∧
    ∃ head, (out.2.threads threadID).getLast? = some head ∧
      head.revision = out.1.1.resumeToken.snapshotRevision ∧ head.effects = c.effects ∧
      head.runMeta.retryCounts = c.runMeta.retryCounts
  unstored : out.1.1.resumeToken.snapshotRevision = 0 → out.2.threads = env.threads

section Ends

variable {r : Runner W A T E} {inv : Invocation W T} {threadID : Text} {revision : Nat} {c : Cursor T E}
  {env env' : Env W T E}

theorem Saved.of_quiet {out : (ThreadResult T E × Option Err) × Env W T E} (h : Saved threadID c env' out)
    (hquiet : env'.threads = env.threads) : Saved threadID c env out :=
  ⟨h.effects,h.paused,h.stored,fun hzero => (h.unstored hzero).trans hquiet⟩

theorem Saved.of_unset {result : ThreadResult T E} (htoken : result.resumeToken = .unset)
    (heffects : result.effects = c.effects) (hquiet : env'.threads = env.threads) (err : Option Err) :
    Saved threadID c env ((result,err),env') := by
  have hzero : result.resumeToken.snapshotRevision = 0 := congrArg ResumeToken.snapshotRevision htoken
  constructor
  case effects => exact heffects
  case paused => exact fun hne => absurd hzero hne
  case stored => exact fun hne => absurd hzero hne
  case unstored => exact fun _ => hquiet

theorem newRunResultFailed_effects (host : Host W) (state : T) (effects : List E) (runMeta : RunMetadata)
    (pointer reason : Text) (env : Env W T E) :
    (newRunResultFailed host state effects runMeta pointer reason env).1.effects = effects := by
  unfold newRunResultFailed
  split
  · rfl
  · rfl

theorem Saved.failed (host : Host W) (state : T) (runMeta : RunMetadata) (pointer reason : Text)
    (err : Option Err) (hquiet : env'.threads = env.threads) :
    Saved threadID c env (((newRunResultFailed host state c.effects runMeta pointer reason env').1,err),
      (newRunResultFailed host state c.effects runMeta pointer reason env').2) := by
  obtain ⟨htoken,hsame,-⟩ := newRunResultFailed_clean host state c.effects runMeta pointer reason env'
  exact .of_unset htoken (newRunResultFailed_effects _ _ _ _ _ _ _) (hsame.trans hquiet) err

theorem Saved.pruned {snapshot : ThreadSnapshot T E} {stored pruned : Env W T E} {result : ThreadResult T E}
    {out : Option Err} (hthread : snapshot.threadID = threadID)
    (hstored : stored.threads = (env.append snapshot).threads)
    (heffects : snapshot.effects = c.effects)
    (hretries : snapshot.runMeta.retryCounts = c.runMeta.retryCounts)
    (htoken : result.resumeToken = ⟨threadID,snapshot.revision⟩) (hpositive : snapshot.revision ≠ 0)
    (hresult : result.effects = c.effects) (hstatus : result.status ≠ .completed)
    (hpolicy : r.applyRetentionPolicy threadID stored = (out,pruned)) (err : Option Err) :
    Saved threadID c env ((result,err),pruned) := by
  subst hthread
  constructor
  case effects => exact hresult
  case paused => exact fun _ => hstatus
  case stored =>
    intro _
    have hlast : (pruned.threads snapshot.threadID).getLast? = some snapshot := by
      rw [(Runner.applyRetentionPolicy_head hpolicy).1,hstored,Env.append_thread,List.getLast?_concat]
    exact ⟨by rw [htoken],snapshot,hlast,by rw [htoken],heffects,hretries⟩
  case unstored =>
    intro hzero
    rw [htoken] at hzero
    exact absurd hzero hpositive

variable [Quoting]

omit [Quoting] in
structure HandoffResult (effects : List E) (result : ThreadResult T E) : Prop where
  effects : result.effects = effects
  status : result.status ≠ .completed

omit [Quoting] in
theorem newRunResult_handoff (state : T) (effects : List E) (runMeta : RunMetadata) (pointer reason : Text) :
    HandoffResult effects (newRunResult .handoff state effects runMeta pointer reason) := by
  constructor
  case effects => rfl
  case status => exact nofun

omit [Quoting] in
theorem newRunResultFailed_carries (host : Host W) (state : T) (effects : List E) (runMeta : RunMetadata)
    (pointer reason : Text) (env : Env W T E) :
    HandoffResult effects (newRunResultFailed host state effects runMeta pointer reason env).1 := by
  unfold newRunResultFailed
  split
  · exact ⟨rfl,nofun⟩
  · exact ⟨rfl,nofun⟩

section Handoffs

variable {result : ThreadResult T E} {effects : List E} {signal persisted : Bool}
  {out : (ThreadResult T E × Option Err) × Env W T E}

omit [Quoting] in
theorem Runner.finalizeHandoffTerminal_carries (h : HandoffResult effects result) :
    HandoffResult effects (r.finalizeHandoffTerminal threadID result signal persisted env).1.1 := by
  unfold Runner.finalizeHandoffTerminal
  split
  · exact ⟨h.effects,h.status⟩
  · exact h

omit [Quoting] in
theorem Runner.handoffAfterEnqueueFailure_carries (h : HandoffResult effects result) (err : Option Err) :
    HandoffResult effects (r.handoffAfterEnqueueFailure threadID result err env).1.1 := by
  unfold Runner.handoffAfterEnqueueFailure
  split
  · exact h
  · exact ⟨h.effects,h.status⟩

omit [Quoting] in
theorem Runner.dispatchPersistedHandoffOutbox_carries {cp : Checkpointer W T E} {outbox : HandoffOutbox W}
    {snapshot : ThreadSnapshot T E} {runMeta : RunMetadata} {resumePtr : ExecutionPointer}
    (h : HandoffResult effects result) (hout : r.dispatchPersistedHandoffOutbox cp threadID revision snapshot runMeta
      outbox resumePtr result signal env = some out) : HandoffResult effects out.1.1 := by
  unfold Runner.dispatchPersistedHandoffOutbox at hout
  split at hout
  · cases hout
  · split at hout
    · cases hout
      apply Runner.handoffAfterEnqueueFailure_carries
      exact ⟨h.effects,h.status⟩
    · cases hout
      apply Runner.finalizeHandoffTerminal_carries
      exact ⟨h.effects,h.status⟩

omit [Quoting] in
theorem Runner.tryTransactionalHandoffSave_carries {snapshot : ThreadSnapshot T E}
    {outbox : Option (HandoffOutbox W)} {result' : ThreadResult T E} (h : HandoffResult effects result)
    (hout : r.tryTransactionalHandoffSave inv threadID revision snapshot outbox result env =
      (some (.ok result'),env')) : HandoffResult effects result' := by
  unfold Runner.tryTransactionalHandoffSave at hout
  split at hout
  · split at hout
    · cases hout
    · split at hout
      · cases hout
      · split at hout
        · cases hout
        · split at hout
          · cases hout
          · cases hout
            exact ⟨h.effects,h.status⟩
  · cases hout

omit [Quoting] in
theorem Runner.handoffSaveFailed_carries (label : String) (state : T) (effects : List E) (runMeta : RunMetadata)
    (pointer : Text) (err : Err) (env : Env W T E) :
    HandoffResult effects (r.handoffSaveFailed label state effects runMeta pointer err env).1.1 := by
  have hfailed := newRunResultFailed_carries r.host state effects runMeta pointer
    (ascii "handoff_save_failed") env
  exact ⟨hfailed.effects,hfailed.status⟩

omit [Quoting] in
theorem Runner.saveHandoff_carries {snapshot : ThreadSnapshot T E} {outbox : Option (HandoffOutbox W)}
    (h : HandoffResult effects result) (hsnapshot : snapshot.effects = effects)
    (hout : r.saveHandoff inv threadID revision snapshot outbox result signal env = some out) :
    HandoffResult effects out.1.1 := by
  subst hsnapshot
  unfold Runner.saveHandoff at hout
  split at hout
  · next err after hpersist =>
    cases hout
    exact Runner.handoffSaveFailed_carries _ _ _ _ _ _ _
  · cases hout
    apply Runner.finalizeHandoffTerminal_carries
    exact ⟨h.effects,h.status⟩
  · dsimp only at hout
    split at hout
    · refine Runner.dispatchPersistedHandoffOutbox_carries ?_ hout
      exact ⟨h.effects,h.status⟩
    · cases hout
      apply Runner.finalizeHandoffTerminal_carries
      exact ⟨h.effects,h.status⟩

theorem Runner.completeHandoffTerminal_carries {current reason : Text} {state : T} {runMeta : RunMetadata}
    {resumeAt : ExecutionPointer}
    (hout : r.completeHandoffTerminal inv threadID current state runMeta effects revision reason resumeAt signal
      env = some out) : HandoffResult effects out.1.1 := by
  unfold Runner.completeHandoffTerminal at hout
  dsimp only at hout
  split at hout
  · cases hout
    exact newRunResultFailed_carries _ _ _ _ _ _ _
  · split at hout
    · next err after htx =>
      cases hout
      exact Runner.handoffSaveFailed_carries _ _ _ _ _ _ _
    · next result' after htx =>
      cases hout
      apply Runner.finalizeHandoffTerminal_carries
      exact Runner.tryTransactionalHandoffSave_carries (newRunResult_handoff _ _ _ _ _) htx
    · next after htx => exact Runner.saveHandoff_carries (newRunResult_handoff _ _ _ _ _) rfl hout

end Handoffs

theorem Runner.handoff_saved (r : Runner W A T E) (inv : Invocation W T) (revision : Nat) (c : Cursor T E)
    (hthread : threadID ≠ []) (reason : Text) (resumeAt : ExecutionPointer) (signal : Bool) (env : Env W T E) :
    ∃ out, r.completeHandoffTerminal inv threadID c.current c.state c.runMeta c.effects revision reason resumeAt
        signal env = some out ∧ Saved threadID c env out := by
  obtain ⟨out,hout,hreported⟩ := r.completeHandoffTerminal_reported inv hthread c.current c.state c.runMeta
    c.effects revision reason resumeAt signal env
  have hcarries := Runner.completeHandoffTerminal_carries hout
  refine ⟨out,hout,hcarries.effects,fun _ => hcarries.status,fun hne => ?_,hreported.unstored⟩
  obtain ⟨hid,head,hlast,hrev,-,-,hcontinues⟩ := hreported.stored hne
  exact ⟨hid,head,hlast,hrev,hcontinues.effects,hcontinues.retryCounts⟩

omit [Quoting] in
theorem Runner.endSegment_quiet (r : Runner W A T E) (c : Cursor T E) (reason : SegmentEndReason)
    (env : Env W T E) : (r.endSegment c reason env).2.threads = env.threads := rfl

omit [Quoting] in
theorem Runner.handleContextCancellation_saved (ctxErr : Err) (consumerClose : Bool) (env : Env W T E) :
    Saved threadID c env (r.handleContextCancellation inv threadID revision c ctxErr consumerClose env) := by
  apply Saved.of_quiet _ (r.endSegment_quiet c .contextCanceled env)
  unfold Runner.handleContextCancellation
  dsimp only
  split
  · next err refused hpersist =>
    obtain ⟨-,⟨-,hsame⟩ | ⟨_,_,_,hok,-⟩⟩ := Runner.persistSnapshotPrepared_cases hpersist
    · refine .of_unset ?_ ?_ ?_ _
      · rfl
      · rfl
      · exact hsame
    · cases hok
  · next skipped hpersist =>
    obtain ⟨-,⟨-,hsame⟩ | ⟨_,_,_,hok,-⟩⟩ := Runner.persistSnapshotPrepared_cases hpersist
    · refine .of_unset ?_ ?_ ?_ _
      · rfl
      · rfl
      · exact hsame
    · cases hok
  · next prepared newRev stored hpersist =>
    obtain ⟨-,⟨hnone,-⟩ | ⟨cp,state,-,hok,hstored⟩⟩ := Runner.persistSnapshotPrepared_cases hpersist
    · cases hnone with
      | inl herr => obtain ⟨err,herr⟩ := herr; cases herr
      | inr hskip => cases hskip
    · cases hok
      split
      · next err pruned hpolicy =>
        refine .pruned rfl hstored rfl rfl ?_ (Nat.succ_ne_zero _) ?_ ?_ hpolicy _
        · rfl
        · rfl
        · nofun
      · next pruned hpolicy =>
        refine .pruned rfl hstored rfl rfl ?_ (Nat.succ_ne_zero _) ?_ ?_ hpolicy _
        · rfl
        · rfl
        · nofun

theorem Runner.handleHandoff_saved (hthread : threadID ≠ []) (env : Env W T E) :
    ∃ out, r.handleHandoff inv threadID revision c env = some out ∧ Saved threadID c env out := by
  obtain ⟨out,hout,hsaved⟩ := r.handoff_saved inv revision c hthread _ [] true (env.call r.host.canceled).2
  exact ⟨out,hout,hsaved.of_quiet rfl⟩

omit [Quoting] in
theorem Runner.leaseLost_saved (env : Env W T E) : Saved threadID c env (r.leaseLost c env) :=
  .failed _ _ _ _ _ _ rfl

theorem Runner.interrupt_saved (hthread : threadID ≠ []) (i : Interruption) (env : Env W T E) :
    ∃ out, r.interrupt inv threadID revision c env i = some out ∧ Saved threadID c env out := by
  cases i with
  | handoff => exact Runner.handleHandoff_saved hthread env
  | leaseLost => exact ⟨_,rfl,Runner.leaseLost_saved env⟩
  | canceled err => exact ⟨_,rfl,(Runner.handleContextCancellation_saved err _ _).of_quiet rfl⟩

end Ends

def Directive.retries (base : Directive A) : Bool := base.kind == .retry && decide (0 < base.maxAttempts)

def Cursor.counted (c : Cursor T E) (base : Directive A) : GoMap Text Int :=
  if base.retries then
    c.runMeta.retryCounts.set c.current ((c.runMeta.retryCounts.get? c.current).getD 0 + 1)
  else c.runMeta.retryCounts

inductive Routed (g : Graph W A T) (node : Text) (base : Directive A) (count : Int) : Route → Text → Prop
  | edge {target : Text} (completed : base.kind = .completed) (found : g.edges.get? node = some target) :
      Routed g node base count .edge target
  | conditional {target : Text} {router : EdgeRouter W T} (completed : base.kind = .completed)
      (found : g.conditionalEdges.get? node = some router)
      (known : target = endNode ∨ (g.nodes.get? target).isSome = true)
      (allowed : ∀ targets, g.conditionalAllowed.get? node = some targets → target ∈ targets) :
      Routed g node base count .conditional target
  | retry {target : Text} (retries : base.retries = true) (found : g.retryRoutes.get? node = some target)
      (within : count ≤ base.maxAttempts) : Routed g node base count .retry target

inductive LastPoints (g : Graph W A T) (node : Text) (base : Directive A) (count : Int) :
    List (Point W A T) → Prop
  | none : LastPoints g node base count []
  | stranded (completed : base.kind = .completed) (edge : g.edges.get? node = none)
      (router : g.conditionalEdges.get? node = none) : LastPoints g node base count [.stranded node]
  | followed {route : Route} (routed : Routed g node base count route endNode)
      (completed : base.kind = .completed) : LastPoints g node base count [.followed node route endNode]

section Directives

variable [Quoting] {r : Runner W A T E} {inv : Invocation W T} {threadID : Text} {revision : Nat}
  {c : Cursor T E} {base : Directive A} {env env' : Env W T E} {points : List (Point W A T)}

theorem Runner.resolveEdge_cases {ctx : NodeContext} {state : T} {answer : Result (Route × Text)}
    {budgets : GoMap Text Int} (hbase : base.kind = .completed) (count : Int)
    (h : r.resolveEdge ctx c.current state env = ((answer,budgets,points),env')) :
    env'.threads = env.threads ∧
    ((∃ err, answer = .error err ∧ LastPoints r.graph c.current base count points) ∨
      ∃ route target, answer = .ok (route,target) ∧ points = [] ∧
        Routed r.graph c.current base count route target) := by
  unfold Runner.resolveEdge at h
  split at h
  · next next hedge =>
    cases h
    exact ⟨rfl,.inr ⟨_,_,rfl,rfl,.edge hbase hedge⟩⟩
  · next hedge =>
    split at h
    · next hrouter =>
      cases h
      exact ⟨rfl,.inl ⟨_,rfl,.stranded hbase hedge hrouter⟩⟩
    · next router hrouter =>
      dsimp only at h
      split at h
      · next err hanswer =>
        cases h
        exact ⟨rfl,.inl ⟨_,rfl,.none⟩⟩
      · next next hanswer =>
        split at h
        · cases h
          exact ⟨rfl,.inl ⟨_,rfl,.none⟩⟩
        · split at h
          · cases h
            exact ⟨rfl,.inl ⟨_,rfl,.none⟩⟩
          · next hallowed =>
            split at h
            · next hknown =>
              cases h
              refine ⟨rfl,.inr ⟨_,_,rfl,rfl,.conditional hbase hrouter hknown fun targets htargets => ?_⟩⟩
              simpa [htargets] using hallowed
            · cases h
              exact ⟨rfl,.inl ⟨_,rfl,.none⟩⟩

def Cursor.after (c : Cursor T E) (base : Directive A) : Cursor T E :=
  { c with runMeta := { c.runMeta with retryCounts := c.counted base } }

def Cursor.retryCount (c : Cursor T E) : Int := (c.runMeta.retryCounts.get? c.current).getD 0

/-- What a directive makes of a run. One that goes on has followed a route; one that ends has saved the
cursor with its counters. -/
inductive Enacted (g : Graph W A T) (threadID : Text) (c : Cursor T E) (base : Directive A) (env : Env W T E) :
    (Next T E × List (Point W A T)) × Env W T E → Prop
  | proceed {target : Text} {runMeta : RunMetadata} {route : Route} {env' : Env W T E}
      (routed : Routed g c.current base (c.after base).retryCount route target)
      (inside : route ≠ .retry → target ≠ endNode)
      (steps : runMeta.stepCount = c.runMeta.stepCount) (retries : runMeta.retryCounts = c.counted base)
      (quiet : env'.threads = env.threads) :
      Enacted g threadID c base env ((.proceed target runMeta,[.followed c.current route target]),env')
  | finish {result : ThreadResult T E} {err : Option Err} {points : List (Point W A T)} {env' : Env W T E}
      (last : LastPoints g c.current base (c.after base).retryCount points)
      (saved : Saved threadID (c.after base) env ((result,err),env'))
      (exhausted : base.retries = true → base.maxAttempts < (c.after base).retryCount →
        err = some (.of .retryBudgetExceeded))
      (unstored : base.kind ≠ .suspend → base.kind ≠ .handoff → result.resumeToken = .unset) :
      Enacted g threadID c base env ((.finish result err,points),env')

omit [Quoting] in
theorem Directive.retries_of_kind (h : base.kind ≠ .retry) : base.retries = false := by
  simp [Directive.retries,h]

omit [Quoting] in
theorem Cursor.after_of_not_retries (h : base.retries = false) : c.after base = c := by
  simp [Cursor.after,Cursor.counted,h]

omit [Quoting] in
theorem Cursor.counted_of_retries (h : base.retries = true) :
    c.counted base = c.runMeta.retryCounts.set c.current (c.retryCount + 1) := by
  simp [Cursor.counted,Cursor.retryCount,h]

omit [Quoting] in
theorem Cursor.retryCount_after (h : base.retries = true) : (c.after base).retryCount = c.retryCount + 1 := by
  simp [Cursor.after,Cursor.retryCount,Cursor.counted,h]

omit [Quoting] in
theorem Enacted.of_unset {result : ThreadResult T E} (hretries : base.retries = false)
    (htoken : result.resumeToken = .unset) (heffects : result.effects = c.effects) 
    (hquiet : env'.threads = env.threads) (err : Option Err) {points : List (Point W A T)}
    (hlast : LastPoints r.graph c.current base c.retryCount points) :
    Enacted r.graph threadID c base env ((.finish result err,points),env') := by
  apply Enacted.finish
  case last => rwa [Cursor.after_of_not_retries hretries]
  case saved => exact .of_unset htoken (by rw [heffects]; rfl) hquiet err
  case exhausted =>
    intro htrue
    rw [hretries] at htrue
    cases htrue
  case unstored => exact fun _ _ => htoken

omit [Quoting] in
theorem Runner.failUnmarked_quiet (c : Cursor T E) (reason : Text) (env : Env W T E) :
    (r.failUnmarked c reason env).1.resumeToken = .unset ∧
      (r.failUnmarked c reason env).1.effects = c.effects ∧
      (r.failUnmarked c reason env).2.threads = env.threads := by
  obtain ⟨htoken,hsame,-⟩ := newRunResultFailed_clean r.host c.state c.effects c.runMeta c.current reason env
  exact ⟨htoken,newRunResultFailed_effects _ _ _ _ _ _ _,hsame⟩

theorem Runner.applyDirectiveCompleted_enacted (hbase : base.kind = .completed) :
    Enacted r.graph threadID c base env (r.applyDirectiveCompleted threadID c env) := by
  have hretries : base.retries = false := Directive.retries_of_kind (by rw [hbase]; decide)
  unfold Runner.applyDirectiveCompleted
  split
  next answer budgets points after hresolve =>
  obtain ⟨hquiet,⟨err,rfl,hlast⟩ | ⟨route,target,rfl,rfl,hrouted⟩⟩ :=
    Runner.resolveEdge_cases hbase c.retryCount hresolve
  · obtain ⟨htoken,heffects,hsame⟩ := r.failUnmarked_quiet
      { c with runMeta := { c.runMeta with budgetCounts := budgets } } err.message after
    refine .of_unset hretries ?_ ?_ (hsame.trans hquiet) _ hlast
    · exact htoken
    · exact heffects
  · dsimp only
    split
    · next hend =>
      subst hend
      unfold Runner.finishCompleted
      refine .of_unset hretries ?_ ?_ ?_ _ (.followed hrouted hbase)
      · rfl
      · rfl
      · exact hquiet
    · next hend =>
      rw [List.nil_append]
      apply Enacted.proceed
      case routed => rwa [Cursor.after_of_not_retries hretries]
      case inside => exact fun _ => hend
      case steps => rfl
      case retries => simp [Cursor.counted,hretries]
      case quiet => exact hquiet

theorem Runner.applyDirectiveSuspend_enacted (hbase : base.kind = .suspend) :
    Enacted r.graph threadID c base env (((r.applyDirectiveSuspend inv threadID revision c base env).1,[]),
      (r.applyDirectiveSuspend inv threadID revision c base env).2) := by
  have hretries : base.retries = false := Directive.retries_of_kind (by rw [hbase]; decide)
  have hended := r.endSegment_quiet c .suspend env
  -- every branch ends the run, so one statement about the saved cursor is enough
  suffices hsaved : ∃ result err env', r.applyDirectiveSuspend inv threadID revision c base env =
      (.finish result err,env') ∧ Saved threadID c env ((result,err),env') by
    obtain ⟨result,err,after,heq,hsaved⟩ := hsaved
    rw [heq]
    apply Enacted.finish
    case last => exact .none
    case saved => rwa [Cursor.after_of_not_retries hretries]
    case exhausted =>
      intro htrue
      rw [hretries] at htrue
      cases htrue
    case unstored => exact fun hne => absurd hbase hne
  unfold Runner.applyDirectiveSuspend
  dsimp only
  split
  · next err hptr => exact ⟨_,_,_,rfl,.failed _ _ _ _ _ _ hended⟩
  · split
    · next err refused hpersist =>
      obtain ⟨-,⟨-,hsame⟩ | ⟨_,_,_,hok,-⟩⟩ := Runner.persistSnapshotPrepared_cases hpersist
      · exact ⟨_,_,_,rfl,.failed _ _ _ _ _ _ (hsame.trans hended)⟩
      · cases hok
    · next skipped hpersist =>
      obtain ⟨-,⟨-,hsame⟩ | ⟨_,_,_,hok,-⟩⟩ := Runner.persistSnapshotPrepared_cases hpersist
      · refine ⟨_,_,_,rfl,.of_unset ?_ ?_ (hsame.trans hended) _⟩
        · rfl
        · rfl
      · cases hok
    · next prepared newRev stored hpersist =>
      obtain ⟨-,⟨hnone,-⟩ | ⟨cp,state,-,hok,hstored⟩⟩ := Runner.persistSnapshotPrepared_cases hpersist
      · cases hnone with
        | inl herr => obtain ⟨err,herr⟩ := herr; cases herr
        | inr hskip => cases hskip
      · cases hok
        split
        · next err pruned hpolicy =>
          refine ⟨_,_,_,rfl,Saved.of_quiet
            (.pruned rfl hstored rfl rfl ?_ (Nat.succ_ne_zero _) ?_ ?_ hpolicy _) hended⟩
          · rfl
          · rfl
          · nofun
        · next pruned hpolicy =>
          refine ⟨_,_,_,rfl,Saved.of_quiet
            (.pruned rfl hstored rfl rfl ?_ (Nat.succ_ne_zero _) ?_ ?_ hpolicy _) hended⟩
          · rfl
          · rfl
          · nofun

theorem Runner.applyDirectiveHandoff_enacted (r : Runner W A T E) (inv : Invocation W T) (revision : Nat)
    (c : Cursor T E) (env : Env W T E) (hthread : threadID ≠ []) (hbase : base.kind = .handoff) :
    ∃ out, r.applyDirectiveHandoff inv threadID revision c base env = some out ∧
      Enacted r.graph threadID c base env ((out.1,[]),out.2) := by
  have hretries : base.retries = false := Directive.retries_of_kind (by rw [hbase]; decide)
  obtain ⟨out,hout,hsaved⟩ := r.handoff_saved inv revision c hthread
    (if base.reason = [] then ascii "handoff" else base.reason) (directiveResumePointer c.current base) false env
  refine ⟨(.finish out.1.1 out.1.2,out.2),by rw [Runner.applyDirectiveHandoff,hout]; rfl,?_⟩
  apply Enacted.finish
  case last => exact .none
  case saved => rwa [Cursor.after_of_not_retries hretries]
  case exhausted =>
    intro htrue
    rw [hretries] at htrue
    cases htrue
  case unstored => exact fun _ hne => absurd hbase hne

theorem Runner.applyDirectiveRetry_enacted (hbase : base.kind = .retry) :
    Enacted r.graph threadID c base env (r.applyDirectiveRetry c base env) := by
  unfold Runner.applyDirectiveRetry
  split
  · next hmax =>
    have hretries : base.retries = false := by simp [Directive.retries,hmax]
    obtain ⟨htoken,heffects,hsame⟩ := r.failUnmarked_quiet c
      (ascii "flowy: Retry directive requires maxAttempts > 0") env
    exact .of_unset hretries htoken heffects hsame _ .none
  · next hmax =>
    have hretries : base.retries = true := by simp [Directive.retries,hbase]; omega
    have hcount := Cursor.retryCount_after (c := c) hretries
    have hafter : c.after base = { c with runMeta := { c.runMeta with
        retryCounts := c.runMeta.retryCounts.set c.current (c.retryCount + 1) } } := by
      rw [Cursor.after,Cursor.counted_of_retries hretries]
    dsimp only
    split
    · next hover =>
      apply Enacted.finish
      case last => exact .none
      case saved => exact .failed _ _ _ _ _ _ rfl
      case exhausted => exact fun _ _ => rfl
      case unstored => exact fun _ _ => (newRunResultFailed_clean _ _ _ _ _ _ _).1
    · next hwithin =>
      split
      · next hroute =>
        apply Enacted.finish
        case last => exact .none
        case saved => exact .failed _ _ _ _ _ _ rfl
        case exhausted =>
          intro _ hover
          rw [hcount] at hover
          exact absurd hover hwithin
        case unstored => exact fun _ _ => (newRunResultFailed_clean _ _ _ _ _ _ _).1
      · next fallback hroute =>
        apply Enacted.proceed
        case routed =>
          refine .retry hretries hroute ?_
          rw [hcount]
          exact not_lt.mp hwithin
        case inside => exact fun hne => absurd rfl hne
        case steps => rfl
        case retries => rw [Cursor.counted_of_retries hretries]; rfl
        case quiet => rfl

theorem Runner.applyDirective_enacted (hthread : threadID ≠ []) (c : Cursor T E) (base : Directive A)
    (env : Env W T E) :
    ∃ out, r.applyDirective inv threadID revision c base env = some out ∧
      Enacted r.graph threadID c base env out := by
  unfold Runner.applyDirective
  have hplain (hne : base.kind ≠ .retry) (reason : Text) (err : Err) : Enacted r.graph threadID c base env
      ((.finish (r.failUnmarked c reason env).1 (some err),[]),(r.failUnmarked c reason env).2) := by
    obtain ⟨htoken,heffects,hsame⟩ := r.failUnmarked_quiet c reason env
    exact .of_unset (Directive.retries_of_kind hne) htoken heffects hsame _ .none
  cases hkind : base.kind with
  | wait => exact ⟨_,rfl,hplain (by rw [hkind]; decide) _ _⟩
  | completed => exact ⟨_,rfl,Runner.applyDirectiveCompleted_enacted hkind⟩
  | next => exact ⟨_,rfl,hplain (by rw [hkind]; decide) _ _⟩
  | «end» =>
    refine ⟨_,rfl,.of_unset (Directive.retries_of_kind (by rw [hkind]; decide)) ?_ ?_ ?_ _ .none⟩
    · rfl
    · rfl
    · rfl
  | suspend => exact ⟨_,rfl,Runner.applyDirectiveSuspend_enacted hkind⟩
  | handoff =>
    obtain ⟨out,hout,henacted⟩ := r.applyDirectiveHandoff_enacted inv revision c env hthread hkind
    exact ⟨_,by simp only [hout]; rfl,henacted⟩
  | retry => exact ⟨_,rfl,Runner.applyDirectiveRetry_enacted hkind⟩
  | fail =>
    have hretries : base.retries = false := Directive.retries_of_kind (by rw [hkind]; decide)
    refine ⟨_,rfl,.of_unset hretries ?_ ?_ ?_ _ .none⟩
    · exact (newRunResultFailed_clean _ _ _ _ _ _ _).1
    · exact newRunResultFailed_effects _ _ _ _ _ _ _
    · exact (newRunResultFailed_clean _ _ _ _ _ _ _).2.1
  | effect => exact ⟨_,rfl,hplain (by rw [hkind]; decide) _ _⟩
  | unset => exact ⟨_,rfl,hplain (by rw [hkind]; decide) _ _⟩

end Directives

/-- What a turn at `c` can do: the run ends before a directive is enacted, ends by one or goes on by one. -/
inductive Turned [AnyValue A E] (g : Graph W A T) (limit : Nat) (threadID : Text) (c : Cursor T E)
    (env : Env W T E) : (Turn T E × List (Point W A T)) × Env W T E → Prop
  | stopped {points : List (Point W A T)} {c' : Cursor T E} {base : Option (Directive A)}
      {result : ThreadResult T E} {err : Option Err} {env' : Env W T E}
      (visit : Visit g threadID c points c' base)
      (bounded : points ≠ [] → c.runMeta.stepCount < limit)
      (saved : Saved threadID c' env ((result,err),env')) :
      Turned g limit threadID c env ((.done result err,points),env')
  | finished {points more : List (Point W A T)} {c' : Cursor T E} {base : Directive A}
      {result : ThreadResult T E} {err : Option Err} {mid env' : Env W T E}
      (visit : Visit g threadID c points c' (some base))
      (bounded : c.runMeta.stepCount < limit) (quiet : mid.threads = env.threads)
      (enacted : Enacted g threadID c' base mid ((.finish result err,more),env')) :
      Turned g limit threadID c env ((.done result err,points ++ .applied c'.current base :: more),env')
  | continued {points more : List (Point W A T)} {c' : Cursor T E} {base : Directive A} {target : Text}
      {runMeta : RunMetadata} {mid env' : Env W T E}
      (visit : Visit g threadID c points c' (some base))
      (bounded : c.runMeta.stepCount < limit) (quiet : mid.threads = env.threads)
      (enacted : Enacted g threadID c' base mid ((.proceed target runMeta,more),env')) :
      Turned g limit threadID c env ((.again { c' with current := target, runMeta := runMeta },
        points ++ .applied c'.current base :: more),env')

section Turns

variable [Quoting] [AnyValue A E] (r : Runner W A T E) (inv : Invocation W T) {threadID : Text} (revision : Nat)
  (sink : EventSink W T E) {c c' : Cursor T E} {env env' mid : Env W T E} {points : List (Point W A T)}
  {base : Option (Directive A)}

omit [Quoting] in
theorem Turned.ends {out : (ThreadResult T E × Option Err) × Env W T E}
    (hvisit : Visit r.graph threadID c points c' base)
    (hbounded : points ≠ [] → c.runMeta.stepCount < r.limit) (hquiet : mid.threads = env.threads)
    (hsaved : Saved threadID c' mid out) :
    Turned r.graph r.limit threadID c env (Runner.ends points out) :=
  .stopped hvisit hbounded (hsaved.of_quiet hquiet)

theorem Runner.afterFailure_turned (hthread : threadID ≠ []) (hvisit : Visit r.graph threadID c points c' base)
    (hbounded : points ≠ [] → c.runMeta.stepCount < r.limit) (hquiet : mid.threads = env.threads)
    (err : Err) (reason : Text) :
    ∃ out, r.afterFailure inv threadID revision points c' err reason mid = some out ∧
      Turned r.graph r.limit threadID c env out := by
  unfold Runner.afterFailure
  split
  · next after hlease =>
    exact ⟨_,rfl,.ends r hvisit hbounded ((Host.canceledBy_quiet hlease).trans hquiet)
      (Runner.leaseLost_saved after)⟩
  · next after hlease =>
    have hquiet' := (Host.canceledBy_quiet hlease).trans hquiet
    split
    · next cancellation after' hpoll =>
      have hquiet'' := (Env.of_call hpoll).1.trans hquiet'
      split
      · split
        · next last hhandoff =>
          obtain ⟨out,hout,hsaved⟩ := Runner.handleHandoff_saved (r := r) (c := c') hthread last
          exact ⟨_,by rw [hout]; rfl,.ends r hvisit hbounded
            ((Host.canceledBy_quiet hhandoff).trans hquiet'') hsaved⟩
        · next last hhandoff =>
          exact ⟨_,rfl,.ends r hvisit hbounded ((Host.canceledBy_quiet hhandoff).trans hquiet'')
            ((Runner.handleContextCancellation_saved _ _ _).of_quiet rfl)⟩
      · exact ⟨_,rfl,.ends r hvisit hbounded hquiet'' (.failed _ _ _ _ _ _ rfl)⟩
    · next after' hpoll =>
      exact ⟨_,rfl,.ends r hvisit hbounded ((Env.of_call hpoll).1.trans hquiet')
        (.failed _ _ _ _ _ _ rfl)⟩

theorem Runner.afterEmitCanceled_turned (hthread : threadID ≠ [])
    (hvisit : Visit r.graph threadID c points c' base)
    (hbounded : points ≠ [] → c.runMeta.stepCount < r.limit) (hquiet : mid.threads = env.threads) :
    ∃ out, r.afterEmitCanceled inv threadID revision points c' mid = some out ∧
      Turned r.graph r.limit threadID c env out := by
  unfold Runner.afterEmitCanceled
  split
  · next after hhandoff =>
    obtain ⟨out,hout,hsaved⟩ := Runner.handleHandoff_saved (r := r) (c := c') hthread after
    exact ⟨_,by rw [hout]; rfl,.ends r hvisit hbounded ((Host.canceledBy_quiet hhandoff).trans hquiet) hsaved⟩
  · next after hhandoff =>
    have hquiet' := (Host.canceledBy_quiet hhandoff).trans hquiet
    split
    · next after' hlease =>
      exact ⟨_,rfl,.ends r hvisit hbounded ((Host.canceledBy_quiet hlease).trans hquiet')
        (Runner.leaseLost_saved after')⟩
    · next after' hlease =>
      exact ⟨_,rfl,.ends r hvisit hbounded ((Host.canceledBy_quiet hlease).trans hquiet')
        (Runner.handleContextCancellation_saved _ _ _)⟩

theorem Runner.afterStep_turned (hthread : threadID ≠ []) {base : Directive A}
    (hvisit : Visit r.graph threadID c points c' (some base))
    (hbounded : c.runMeta.stepCount < r.limit) (hquiet : mid.threads = env.threads) :
    ∃ out, r.afterStep inv threadID revision points c' base mid = some out ∧
      Turned r.graph r.limit threadID c env out := by
  unfold Runner.afterStep
  split
  · next i after hstop =>
    obtain ⟨out,hout,hsaved⟩ := Runner.interrupt_saved (r := r) (c := c') hthread i after
    exact ⟨_,by rw [hout]; rfl,.ends r hvisit (fun _ => hbounded)
      ((Host.interruption_quiet hstop).trans hquiet) hsaved⟩
  · next after hstop =>
    have hquiet' := (Host.interruption_quiet hstop).trans hquiet
    split
    · exact ⟨_,rfl,.ends r hvisit (fun _ => hbounded) hquiet' (.failed _ _ _ _ _ _ rfl)⟩
    · split
      · next after' hlease =>
        exact ⟨_,rfl,.ends r hvisit (fun _ => hbounded) ((Host.canceledBy_quiet hlease).trans hquiet')
          (Runner.leaseLost_saved after')⟩
      · next after' hlease =>
        have hquiet'' := (Host.canceledBy_quiet hlease).trans hquiet'
        obtain ⟨⟨⟨next,more⟩,last⟩,hout,henacted⟩ := Runner.applyDirective_enacted (r := r) hthread c' base after'
        rw [hout]
        cases next with
        | finish result err => exact ⟨_,rfl,.finished hvisit hbounded hquiet'' henacted⟩
        | proceed target runMeta => exact ⟨_,rfl,.continued hvisit hbounded hquiet'' henacted⟩

theorem Runner.turn_turned (hthread : threadID ≠ []) (c : Cursor T E) (env : Env W T E) :
    ∃ out, r.turn inv threadID revision sink c env = some out ∧
      Turned r.graph r.limit threadID c env out := by
  unfold Runner.turn
  split
  · next i after hstop =>
    obtain ⟨out,hout,hsaved⟩ := Runner.interrupt_saved (r := r) (c := c) hthread i after
    exact ⟨_,by rw [hout]; rfl,.ends r .skipped (fun hne => absurd rfl hne) (Host.interruption_quiet hstop)
      hsaved⟩
  · next after hstop =>
    have hquiet := Host.interruption_quiet hstop
    split
    · exact ⟨_,rfl,.ends r .skipped (fun hne => absurd rfl hne) hquiet (.failed _ _ _ _ _ _ rfl)⟩
    · next hlimit =>
      have hbounded : c.runMeta.stepCount < r.limit := not_le.mp hlimit
      split
      · next c' err reason points mid hstep =>
        obtain ⟨hsame,hvisit⟩ := Runner.runNodeStep_visit hstep
        exact r.afterFailure_turned inv revision hthread hvisit (fun _ => hbounded) (hsame.trans hquiet) err
          reason
      · next c' points mid hstep =>
        obtain ⟨hsame,hvisit⟩ := Runner.runNodeStep_visit hstep
        exact r.afterEmitCanceled_turned inv revision hthread hvisit (fun _ => hbounded) (hsame.trans hquiet)
      · next c' base points mid hstep =>
        obtain ⟨hsame,hvisit⟩ := Runner.runNodeStep_visit hstep
        exact r.afterStep_turned inv revision hthread hvisit hbounded (hsame.trans hquiet)

end Turns

end Steps
end Flowy
