import Flowy.Graph.Handoff

/-! What a handoff reports is what storage holds. The machine behind both the publication and the recovery
ends in one of two ways: its first patch failed and nothing changed, or the head of the thread carries the
revision, the status and the time that are reported. -/
namespace Flowy

section Reports

variable {W A T E : Type}

/-- A run that resumes from `s` goes on where one that resumes from `kept` would. -/
structure ThreadSnapshot.Continues (s kept : ThreadSnapshot T E) : Prop where
  pointer : s.executionPointer = kept.executionPointer
  effects : s.effects = kept.effects
  retryCounts : s.runMeta.retryCounts = kept.runMeta.retryCounts

def Env.HeadIs (env : Env W T E) (threadID : Text) (revision : Nat) (status : HandoffStatus) (pendingAt : Time)
    (kept : ThreadSnapshot T E) : Prop :=
  ∃ head, (env.threads threadID).getLast? = some head ∧ head.revision = revision ∧
    head.runMeta.handoffStatus = status ∧ head.runMeta.handoffPendingAt = pendingAt ∧ head.Continues kept

/-- The outbox got the intent while its snapshot was the head of the thread and marked enqueued. -/
def Handed.AtHead (h : Handed T E) : Prop :=
  ∃ head, h.visible.getLast? = some head ∧ head.revision = h.intent.snapshotRevision ∧
    head.runMeta.handoffStatus = .enqueued

def HandsAtHead (env env' : Env W T E) : Prop :=
  ∃ new, env'.handed = env.handed ++ new ∧ ∀ h ∈ new, h.AtHead

/-- A call took `env` to `env'` and reports `token`, `status` and `pendingAt`. A token without a revision is
no token. -/
structure ReportsStorage (threadID : Text) (env env' : Env W T E) (token : ResumeToken) (status : HandoffStatus)
    (pendingAt : Time) : Prop where
  stored : token.snapshotRevision ≠ 0 → token.threadID = threadID ∧
    ∃ head, (env'.threads threadID).getLast? = some head ∧ head.revision = token.snapshotRevision ∧
      head.runMeta.handoffStatus = status ∧ head.runMeta.handoffPendingAt = pendingAt
  unstored : token.snapshotRevision = 0 → env'.threads = env.threads
  handed : HandsAtHead env env'

section Hands

variable {env env' env'' : Env W T E}

theorem HandsAtHead.of_eq (h : env'.handed = env.handed) : HandsAtHead env env' :=
  ⟨[],by rw [h,List.append_nil],by simp⟩

theorem HandsAtHead.trans (h : HandsAtHead env env') (h' : HandsAtHead env' env'') : HandsAtHead env env'' := by
  obtain ⟨new,heq,hall⟩ := h
  obtain ⟨new',heq',hall'⟩ := h'
  refine ⟨new ++ new',by rw [heq',heq,List.append_assoc],fun x hx => ?_⟩
  cases List.mem_append.mp hx with
  | inl hx => exact hall x hx
  | inr hx => exact hall' x hx

theorem Env.HeadIs.congr {threadID : Text} {revision : Nat} {status : HandoffStatus} {pendingAt : Time}
    {kept : ThreadSnapshot T E} (h : env.HeadIs threadID revision status pendingAt kept)
    (heq : (env'.threads threadID).getLast? = (env.threads threadID).getLast?) :
    env'.HeadIs threadID revision status pendingAt kept := by
  obtain ⟨head,hlast,hrest⟩ := h
  exact ⟨head,heq.trans hlast,hrest⟩

theorem Env.HeadIs.keep {threadID : Text} {revision : Nat} {status : HandoffStatus} {pendingAt : Time}
    {kept kept' : ThreadSnapshot T E} (h : env.HeadIs threadID revision status pendingAt kept)
    (hkept : kept.Continues kept') : env.HeadIs threadID revision status pendingAt kept' := by
  obtain ⟨head,hlast,hrev,hstatus,hat,hcont⟩ := h
  exact ⟨head,hlast,hrev,hstatus,hat,hcont.pointer.trans hkept.pointer,hcont.effects.trans hkept.effects,
    hcont.retryCounts.trans hkept.retryCounts⟩

theorem Env.headIs_of_append {snapshot : ThreadSnapshot T E} (kept : ThreadSnapshot T E)
    (h : env'.threads = (env.append snapshot).threads) (hkept : snapshot.Continues kept) :
    env'.HeadIs snapshot.threadID snapshot.revision snapshot.runMeta.handoffStatus
      snapshot.runMeta.handoffPendingAt kept :=
  ⟨snapshot,by rw [h,Env.append_thread,List.getLast?_concat],rfl,rfl,rfl,hkept⟩

end Hands

section Intents

variable {threadID reason : Text} {pointer : ExecutionPointer} {pending committed : Nat}

theorem newHandoffIntent_eq_ok {intent : HandoffIntent} {status : HandoffStatus}
    (h : newHandoffIntent threadID pointer reason status pending committed = .ok intent) :
    intent = buildHandoffIntent threadID pointer reason status pending committed := by
  simp only [newHandoffIntent] at h
  cases hv : validateHandoffIntent
      (buildHandoffIntent threadID pointer reason status pending committed) with
  | none =>
    rw [hv] at h
    cases h
    rfl
  | some err =>
    rw [hv] at h
    cases h

theorem newHandoffIntent_valid (hthread : threadID ≠ []) (hpointer : pointer ≠ []) (hpending : pending ≠ 0)
    (hle : pending ≤ committed) :
    newHandoffIntent threadID pointer reason .enqueued pending committed =
      .ok (buildHandoffIntent threadID pointer reason .enqueued pending committed) := by
  have hcommitted : committed ≠ 0 := by omega
  have hlt : ¬committed < pending := by omega
  simp [newHandoffIntent,validateHandoffIntent,buildHandoffIntent,hthread,hpointer,hpending,hcommitted,hlt]

variable {env env' : Env W T E}

theorem enqueueHandoffIntent_atHead {enqueue : HandoffIntent → W → Option Err × W} {intent : HandoffIntent}
    {out : Option Err} {pendingAt : Time} {kept : ThreadSnapshot T E}
    (h : enqueueHandoffIntent enqueue intent env = (out,env'))
    (hhead : env.HeadIs intent.threadID intent.snapshotRevision .enqueued pendingAt kept) :
    env'.threads = env.threads ∧ HandsAtHead env env' := by
  unfold enqueueHandoffIntent at h
  split at h
  · cases h
    exact ⟨rfl,.of_eq rfl⟩
  · cases h
    obtain ⟨head,hlast,hrev,hstatus,-⟩ := hhead
    refine ⟨rfl,[⟨intent,env.threads intent.threadID⟩],rfl,fun x hx => ?_⟩
    rw [List.mem_singleton.mp hx]
    exact ⟨head,hlast,hrev,hstatus⟩

end Intents

section Machine

variable {r : Runner W A T E} {cp : Checkpointer W T E} {env env' : Env W T E}
  {snapshot : ThreadSnapshot T E} {runMeta : RunMetadata} {threadID reason : Text} {rev : Nat}

theorem Runner.patchHandoffStatus_cases {status : HandoffStatus} (hstatus : status ≠ .pending) {out : Result Nat}
    (h : r.patchHandoffStatus cp rev snapshot runMeta status env = (out,env')) :
    env'.handed = env.handed ∧ ((∃ err, out = .error err) ∧ env'.threads = env.threads ∨
      out = .ok (rev + 1) ∧ env'.HeadIs snapshot.threadID (rev + 1) status .zero
        { snapshot with runMeta := runMeta }) := by
  simp only [Runner.patchHandoffStatus,if_neg hstatus] at h
  cases Checkpointer.save_cases h with
  | inl hfailed =>
    obtain ⟨err,herr,hthreads,hhanded⟩ := hfailed
    exact ⟨hhanded,.inl ⟨⟨err,herr⟩,hthreads⟩⟩
  | inr hsaved =>
    obtain ⟨hok,hthreads,hhanded⟩ := hsaved
    exact ⟨hhanded,.inr ⟨hok,Env.headIs_of_append _ hthreads ⟨rfl,rfl,rfl⟩⟩⟩

structure PatchFailed (threadID : Text) (rev : Nat) (runMeta : RunMetadata) (env env' : Env W T E)
    (fsm : HandoffOutboxFSMResult) : Prop where
  token : fsm.resumeToken = ⟨threadID,rev⟩
  failed : fsm.patchErr.isSome = true
  status : fsm.persistedStatus = .pending
  pendingAt : fsm.persistedPendingAt = runMeta.handoffPendingAt
  threads : env'.threads = env.threads

structure Patched (threadID : Text) (kept : ThreadSnapshot T E) (env' : Env W T E)
    (fsm : HandoffOutboxFSMResult) : Prop where
  thread : fsm.resumeToken.threadID = threadID
  positive : fsm.resumeToken.snapshotRevision ≠ 0
  status : fsm.persistedStatus = .enqueued ∨ fsm.persistedStatus = .orphaned
  head : env'.HeadIs threadID fsm.resumeToken.snapshotRevision fsm.persistedStatus fsm.persistedPendingAt kept

theorem Runner.runHandoffOutboxFSM_cases (r : Runner W A T E) (cp : Checkpointer W T E) (runMeta : RunMetadata)
    (outbox : HandoffOutbox W) (reason : Text) (env : Env W T E) {resumePtr : ExecutionPointer}
    (hthread : threadID ≠ []) (hsnapshot : snapshot.threadID = threadID) (hpointer : resumePtr ≠ [])
    (hrev : rev ≠ 0) :
    ∃ fsm env', r.runHandoffOutboxFSM cp threadID rev snapshot runMeta outbox resumePtr reason env =
        some (fsm,env') ∧ HandsAtHead env env' ∧
      (PatchFailed threadID rev runMeta env env' fsm ∨
        Patched threadID { snapshot with runMeta := runMeta } env' fsm) := by
  subst hsnapshot
  unfold Runner.runHandoffOutboxFSM
  split
  · next err failed hpatch =>
    obtain ⟨hhanded,⟨-,hthreads⟩ | ⟨hok,-⟩⟩ := Runner.patchHandoffStatus_cases (by decide) hpatch
    · exact ⟨_,_,rfl,.of_eq hhanded,.inl ⟨rfl,rfl,rfl,rfl,hthreads⟩⟩
    · cases hok
  · next enqueuedRev patched hpatch =>
    obtain ⟨hhanded,⟨⟨err,herr⟩,-⟩ | ⟨hok,hhead⟩⟩ := Runner.patchHandoffStatus_cases (by decide) hpatch
    · cases herr
    · cases hok
      rw [newHandoffIntent_valid hthread hpointer hrev (Nat.le_succ rev)]
      have hclean := HandsAtHead.of_eq hhanded
      split
      · cases ‹Except.ok _ = Except.error _›
      · next intent hintent =>
        cases hintent
        split
        · next enqueueErr refused henqueue =>
          obtain ⟨hthreads,hhands⟩ := enqueueHandoffIntent_atHead henqueue hhead
          split
          · next orphanRev orphaned hpatch' =>
            obtain ⟨hhanded',⟨⟨err,herr⟩,-⟩ | ⟨hok,hhead'⟩⟩ :=
              Runner.patchHandoffStatus_cases (by decide) hpatch'
            · cases herr
            · cases hok
              exact ⟨_,_,rfl,(hclean.trans hhands).trans (.of_eq hhanded'),
                .inr ⟨rfl,Nat.succ_ne_zero _,.inr rfl,hhead'⟩⟩
          · next err kept hpatch' =>
            obtain ⟨hhanded',⟨-,hthreads'⟩ | ⟨hok,-⟩⟩ := Runner.patchHandoffStatus_cases (by decide) hpatch'
            · exact ⟨_,_,rfl,(hclean.trans hhands).trans (.of_eq hhanded'),
                .inr ⟨rfl,Nat.succ_ne_zero _,.inl rfl,hhead.congr (by rw [hthreads',hthreads])⟩⟩
            · cases hok
        · next accepted henqueue =>
          obtain ⟨hthreads,hhands⟩ := enqueueHandoffIntent_atHead henqueue hhead
          exact ⟨_,_,rfl,hclean.trans hhands,
            .inr ⟨rfl,Nat.succ_ne_zero _,.inl rfl,hhead.congr (by rw [hthreads])⟩⟩

end Machine

section Publication

variable {r : Runner W A T E} {inv : Invocation W T} {env env' after : Env W T E} {threadID : Text}
  {result : ThreadResult T E} {signal : Bool} {revision : Nat} {snapshot kept : ThreadSnapshot T E}

structure Reported (threadID : Text) (kept : ThreadSnapshot T E) (env : Env W T E)
    (out : (ThreadResult T E × Option Err) × Env W T E) : Prop where
  stored : out.1.1.resumeToken.snapshotRevision ≠ 0 → out.1.1.resumeToken.threadID = threadID ∧
    out.2.HeadIs threadID out.1.1.resumeToken.snapshotRevision out.1.1.runMeta.handoffStatus
      out.1.1.runMeta.handoffPendingAt kept
  unstored : out.1.1.resumeToken.snapshotRevision = 0 → out.2.threads = env.threads
  handed : HandsAtHead env out.2

structure HeadReported (threadID : Text) (kept : ThreadSnapshot T E) (env after : Env W T E)
    (result : ThreadResult T E) : Prop where
  thread : result.resumeToken.threadID = threadID
  positive : result.resumeToken.snapshotRevision ≠ 0
  head : after.HeadIs threadID result.resumeToken.snapshotRevision result.runMeta.handoffStatus
    result.runMeta.handoffPendingAt kept
  handed : HandsAtHead env after

theorem HeadReported.pruned (h : HeadReported threadID kept env after result) {out : Option Err}
    (hpolicy : r.applyRetentionPolicy threadID after = (out,env')) (reason : Text) (err : Option Err) :
    Reported threadID kept env (({ result with reason := reason },err),env') := by
  obtain ⟨hlast,hhanded⟩ := Runner.applyRetentionPolicy_head hpolicy
  exact ⟨fun _ => ⟨h.thread,h.head.congr hlast⟩,fun hzero => absurd hzero h.positive,
    h.handed.trans (.of_eq hhanded)⟩

theorem HeadReported.finalized (h : HeadReported threadID kept env after result) :
    Reported threadID kept env (r.finalizeHandoffTerminal threadID result signal true after) := by
  unfold Runner.finalizeHandoffTerminal
  split
  · next err pruned hpolicy => exact h.pruned hpolicy _ _
  · next pruned hpolicy => exact h.pruned hpolicy result.reason _

theorem HeadReported.afterFailure (h : HeadReported threadID kept env after result) (err : Option Err) :
    Reported threadID kept env (r.handoffAfterEnqueueFailure threadID result err after) := by
  unfold Runner.handoffAfterEnqueueFailure
  split
  · next pruned hpolicy => exact h.pruned hpolicy result.reason _
  · next perr pruned hpolicy => exact h.pruned hpolicy _ _

theorem newRunResultFailed_clean (host : Host W) (state : T) (effects : List E) (runMeta : RunMetadata)
    (pointer reason : Text) (env : Env W T E) :
    (newRunResultFailed host state effects runMeta pointer reason env).1.resumeToken = .unset ∧
    (newRunResultFailed host state effects runMeta pointer reason env).2.threads = env.threads ∧
    (newRunResultFailed host state effects runMeta pointer reason env).2.handed = env.handed := by
  unfold newRunResultFailed
  split
  · exact ⟨rfl,rfl,rfl⟩
  · exact ⟨rfl,rfl,rfl⟩

theorem Runner.handoffSaveFailed_reported (label : String) (state : T) (effects : List E) (runMeta : RunMetadata)
    (pointer : Text) (err : Err) (hthreads : after.threads = env.threads) (hhands : HandsAtHead env after) :
    Reported threadID kept env (r.handoffSaveFailed label state effects runMeta pointer err after) := by
  obtain ⟨htoken,hsame,hhanded⟩ := newRunResultFailed_clean r.host state effects runMeta pointer
    (ascii "handoff_save_failed") after
  have hzero : (r.handoffSaveFailed label state effects runMeta pointer err after).1.1.resumeToken = .unset :=
    htoken
  constructor
  case stored =>
    rw [hzero]
    exact fun hne => absurd rfl hne
  case unstored => exact fun _ => hsame.trans hthreads
  case handed => exact hhands.trans (.of_eq hhanded)

theorem Runner.dispatchPersistedHandoffOutbox_reported {cp : Checkpointer W T E} {outbox : HandoffOutbox W}
    {resumePtr : ExecutionPointer} (hthread : threadID ≠ []) (hsnapshot : snapshot.threadID = threadID)
    (hpointer : resumePtr ≠ []) (hrev : revision ≠ 0) (hkept : snapshot.Continues kept)
    (hstored : after.HeadIs threadID revision .pending snapshot.runMeta.handoffPendingAt kept)
    (hhands : HandsAtHead env after) :
    ∃ out, r.dispatchPersistedHandoffOutbox cp threadID revision snapshot snapshot.runMeta outbox resumePtr
        result signal after = some out ∧ Reported threadID kept env out := by
  obtain ⟨fsm,env',hrun,hhands',hend⟩ := r.runHandoffOutboxFSM_cases cp snapshot.runMeta outbox result.reason
    after hthread hsnapshot hpointer hrev
  have hfull := hhands.trans hhands'
  -- both ends leave the head that the machine reports
  have hreport : fsm.resumeToken.threadID = threadID ∧ fsm.resumeToken.snapshotRevision ≠ 0 ∧
      env'.HeadIs threadID fsm.resumeToken.snapshotRevision fsm.persistedStatus fsm.persistedPendingAt kept := by
    cases hend with
    | inl hfailed =>
      rw [hfailed.token,hfailed.status,hfailed.pendingAt]
      exact ⟨rfl,hrev,hstored.congr (by rw [hfailed.threads])⟩
    | inr hpatched => exact ⟨hpatched.thread,hpatched.positive,hpatched.head.keep hkept⟩
  unfold Runner.dispatchPersistedHandoffOutbox
  rw [hrun]
  simp only
  split
  · have hne : fsm.resumeToken.threadID ≠ [] := by rw [hreport.1]; exact hthread
    rw [if_neg hne]
    refine ⟨_,rfl,HeadReported.afterFailure ?_ _⟩
    exact ⟨hreport.1,hreport.2.1,hreport.2.2,hfull⟩
  · refine ⟨_,rfl,HeadReported.finalized ?_⟩
    exact ⟨hreport.1,hreport.2.1,hreport.2.2,hfull⟩

theorem Runner.saveHandoff_reported {outbox : Option (HandoffOutbox W)} (hthread : threadID ≠ [])
    (hsnapshot : snapshot.threadID = threadID) (hpointer : snapshot.executionPointer ≠ [])
    (hpending : outbox.isSome = true → snapshot.runMeta.handoffStatus = .pending)
    (hkept : snapshot.Continues kept) (hmeta : result.runMeta = snapshot.runMeta) (htoken : result.resumeToken = .unset)
    (hthreads : after.threads = env.threads) (hhands : HandsAtHead env after) :
    ∃ out, r.saveHandoff inv threadID revision snapshot outbox result signal after = some out ∧
      Reported threadID kept env out := by
  subst hsnapshot
  unfold Runner.saveHandoff
  split
  · next err refused hpersist =>
    obtain ⟨hhanded,⟨-,hsame⟩ | ⟨_,_,_,hok,-⟩⟩ := Runner.persistSnapshotPrepared_cases hpersist
    · exact ⟨_,rfl,Runner.handoffSaveFailed_reported _ _ _ _ _ _ (hsame.trans hthreads)
        (hhands.trans (.of_eq hhanded))⟩
    · cases hok
  · next skipped hpersist =>
    obtain ⟨hhanded,⟨-,hsame⟩ | ⟨_,_,_,hok,-⟩⟩ := Runner.persistSnapshotPrepared_cases hpersist
    · refine ⟨_,rfl,?_⟩
      constructor
      case stored =>
        intro hne
        exact absurd (congrArg ResumeToken.snapshotRevision htoken) hne
      case unstored => exact fun _ => hsame.trans hthreads
      case handed => exact hhands.trans (.of_eq hhanded)
    · cases hok
  · next prepared newRev stored hpersist =>
    obtain ⟨hhanded,⟨hnone,-⟩ | ⟨cp,state,hcp,hok,hstored⟩⟩ := Runner.persistSnapshotPrepared_cases hpersist
    · cases hnone with
      | inl herr => obtain ⟨err,herr⟩ := herr; cases herr
      | inr hskip => cases hskip
    · cases hok
      have hhead := Env.headIs_of_append kept hstored ⟨hkept.pointer,hkept.effects,hkept.retryCounts⟩
      have hfull := hhands.trans (.of_eq hhanded)
      split
      · next outbox cp' hcp' =>
        rw [hpending rfl] at hhead
        exact Runner.dispatchPersistedHandoffOutbox_reported hthread rfl hpointer (Nat.succ_ne_zero _)
          ⟨hkept.pointer,hkept.effects,hkept.retryCounts⟩ hhead hfull
      · refine ⟨_,rfl,HeadReported.finalized ?_⟩
        rw [← hmeta] at hhead
        exact ⟨rfl,Nat.succ_ne_zero _,hhead,hfull⟩

theorem Checkpointer.saveWithOutbox_cases {cp : Checkpointer W T E} {expected : Nat}
    {enqueueFn : Nat → Env W T E → Result Nat × Env W T E} {out : Result Nat × Nat}
    (h : cp.saveWithOutbox expected snapshot enqueueFn env = (out,env')) :
    ((∃ err, out.1 = .error err) ∧ env'.threads = env.threads ∧ env'.handed = env.handed) ∨
    ∃ begun mid res, begun.threads = (env.append { snapshot with revision := expected + 1 }).threads ∧
      begun.handed = env.handed ∧ enqueueFn (expected + 1) begun = (res,mid) ∧ env'.handed = mid.handed ∧
      ((∃ err, out.1 = .error err) ∧ env'.threads = env.threads ∨
        ∃ validated, res = .ok validated ∧ out = (.ok (expected + 1),validated) ∧
          env'.threads = mid.threads) := by
  unfold Checkpointer.saveWithOutbox at h
  split at h
  · next err refused hcall =>
    cases h
    exact .inl ⟨⟨err,rfl⟩,Env.of_call hcall⟩
  · next opened hcall =>
    obtain ⟨hthreads,hhanded⟩ := Env.of_call hcall
    split at h
    · have hbegun : (opened.append { snapshot with revision := expected + 1 }).threads =
          (env.append { snapshot with revision := expected + 1 }).threads := by
        simp only [Env.append,hthreads]
      split at h
      · next err mid hfn =>
        cases h
        exact .inr ⟨_,mid,_,hbegun,hhanded,hfn,rfl,.inl ⟨⟨err,rfl⟩,hthreads⟩⟩
      · next validated mid hfn =>
        split at h
        · next err failed hcommit =>
          cases h
          exact .inr ⟨_,mid,_,hbegun,hhanded,hfn,(Env.of_call hcommit).2,.inl ⟨⟨_,rfl⟩,hthreads⟩⟩
        · next committed hcommit =>
          cases h
          obtain ⟨hsame,hhanded'⟩ := Env.of_call hcommit
          exact .inr ⟨_,mid,_,hbegun,hhanded,hfn,hhanded',.inr ⟨validated,rfl,rfl,hsame⟩⟩
    · cases h
      exact .inl ⟨⟨_,rfl⟩,hthreads,hhanded⟩

theorem enqueueSaved_atHead {enqueueTx : HandoffIntent → W → Option Err × W} {pointer : ExecutionPointer}
    {reason : Text} {expected saved : Nat} {pendingAt : Time} {out : Result Nat}
    (h : Runner.enqueueSaved enqueueTx threadID pointer reason expected saved env = (out,env'))
    (hhead : env.HeadIs threadID saved .enqueued pendingAt kept) :
    env'.threads = env.threads ∧ HandsAtHead env env' ∧ ∀ v, out = .ok v → v = saved := by
  unfold Runner.enqueueSaved at h
  split at h
  · cases h
    exact ⟨rfl,.of_eq rfl,nofun⟩
  · split at h
    · cases h
      exact ⟨rfl,.of_eq rfl,nofun⟩
    · next intent hintent =>
      cases newHandoffIntent_eq_ok hintent
      split at h
      · next err refused henqueue =>
        cases h
        obtain ⟨hkept,hhands⟩ := enqueueHandoffIntent_atHead henqueue hhead
        exact ⟨hkept,hhands,nofun⟩
      · next accepted henqueue =>
        cases h
        obtain ⟨hkept,hhands⟩ := enqueueHandoffIntent_atHead henqueue hhead
        refine ⟨hkept,hhands,fun v hv => ?_⟩
        cases hv
        rfl

theorem Runner.tryTransactionalHandoffSave_cases {outbox : Option (HandoffOutbox W)}
    {out : Option (Result (ThreadResult T E))} (hsnapshot : snapshot.threadID = threadID)
    (h : r.tryTransactionalHandoffSave inv threadID revision snapshot outbox result env = (out,env')) :
    (out = none ∧ env' = env) ∨
    (∃ err, out = some (.error err)) ∧ env'.threads = env.threads ∧ HandsAtHead env env' ∨
    ∃ res, out = some (.ok res) ∧ HeadReported threadID snapshot env env' res := by
  subst hsnapshot
  unfold Runner.tryTransactionalHandoffSave at h
  split at h
  · next cp enqueueTx hcp htx =>
    split at h
    · next err refused hprep =>
      obtain ⟨⟨hthreads,hhanded⟩,-⟩ := Runner.prepareSnapshot_cases hprep
      cases h
      exact .inr (.inl ⟨⟨err,rfl⟩,hthreads,.of_eq hhanded⟩)
    · next prepared ready hprep =>
      obtain ⟨⟨hthreads,hhanded⟩,hstate⟩ := Runner.prepareSnapshot_cases hprep
      obtain ⟨state,rfl⟩ := hstate prepared rfl
      have hready : HandsAtHead env ready := .of_eq hhanded
      generalize hout : cp.saveWithOutbox revision _ _ ready = saved at h
      obtain ⟨res,final⟩ := saved
      obtain ⟨⟨err,herr⟩,hsame,hhanded'⟩ | ⟨begun,mid,fnres,hbegun,hbh,hfn,hfh,hend⟩ :=
        Checkpointer.saveWithOutbox_cases hout
      · obtain ⟨first,second⟩ := res
        cases herr
        cases h
        exact .inr (.inl ⟨⟨err,rfl⟩,hsame.trans hthreads,hready.trans (.of_eq hhanded')⟩)
      · have hhead := Env.headIs_of_append snapshot hbegun ⟨rfl,rfl,rfl⟩
        -- inside the transaction the head is the snapshot being saved
        obtain ⟨hkept,hhands,hvalid⟩ := enqueueSaved_atHead hfn hhead
        have hfull : HandsAtHead env final :=
          ((hready.trans (.of_eq hbh)).trans hhands).trans (.of_eq hfh)
        obtain ⟨⟨err,herr⟩,hsame⟩ | ⟨validated,hfnres,hres,hsame⟩ := hend
        · obtain ⟨first,second⟩ := res
          cases herr
          cases h
          exact .inr (.inl ⟨⟨err,rfl⟩,hsame.trans hthreads,hfull⟩)
        · cases hres
          cases hvalid validated hfnres
          simp only [Nat.add_eq_zero_iff,Nat.one_ne_zero,and_false,if_false,ne_eq,not_true_eq_false] at h
          cases h
          refine .inr (.inr ⟨_,rfl,rfl,Nat.succ_ne_zero _,?_,hfull⟩)
          exact hhead.congr (by rw [hsame,hkept])
  · cases h
    exact .inl ⟨rfl,rfl⟩

theorem Runner.completeHandoffTerminal_reported [Quoting] (r : Runner W A T E) (inv : Invocation W T)
    (hthread : threadID ≠ []) (current : Text) (state : T) (runMeta : RunMetadata) (effects : List E)
    (revision : Nat) (reason : Text) (resumeAt : ExecutionPointer) (signal : Bool) (env : Env W T E) :
    ∃ out, r.completeHandoffTerminal inv threadID current state runMeta effects revision reason resumeAt signal
        env = some out ∧ Reported threadID
          ⟨⟨threadID,if resumeAt = [] then current else resumeAt,state,runMeta,effects⟩,0⟩ env out := by
  unfold Runner.completeHandoffTerminal
  simp only
  split
  · next err hptr =>
    obtain ⟨htoken,hsame,hhanded⟩ := newRunResultFailed_clean r.host state effects
      ({ runMeta with telemetryContext := (env.call r.host.telemetry).1 }.ended
        ((env.call r.host.telemetry).2.call r.host.now).1 .handoff) current
      (ascii "handoff_resume_target_invalid") ((env.call r.host.telemetry).2.call r.host.now).2
    refine ⟨_,rfl,?_⟩
    constructor
    case stored =>
      intro hne
      exact absurd (congrArg ResumeToken.snapshotRevision htoken) hne
    case unstored => exact fun _ => hsame
    case handed => exact .of_eq hhanded
  · next hptr =>
    obtain ⟨hpointer,-⟩ := Graph.validateExecutionPointer_none hptr
    generalize hpend : (if (r.resolveHandoffOutbox inv).isSome = true then
      ((env.call r.host.telemetry).2.call r.host.now).2.call r.host.now else
      (Time.zero,((env.call r.host.telemetry).2.call r.host.now).2)) = pending
    have hclean : pending.2.threads = env.threads ∧ pending.2.handed = env.handed := by
      rw [← hpend]
      split
      · exact ⟨rfl,rfl⟩
      · exact ⟨rfl,rfl⟩
    have hhands : HandsAtHead env pending.2 := .of_eq hclean.2
    split
    · next err failed htx =>
      obtain ⟨hnone,-⟩ | ⟨-,hsame,hhands'⟩ | ⟨res,hok,-⟩ :=
        Runner.tryTransactionalHandoffSave_cases rfl htx
      · cases hnone
      · exact ⟨_,rfl,Runner.handoffSaveFailed_reported _ _ _ _ _ _ (hsame.trans hclean.1)
          (hhands.trans hhands')⟩
      · cases hok
    · next res committed htx =>
      obtain ⟨hnone,-⟩ | ⟨⟨err,herr⟩,-⟩ | ⟨res,hok,hhead⟩ :=
        Runner.tryTransactionalHandoffSave_cases rfl htx
      · cases hnone
      · cases herr
      · cases hok
        refine ⟨_,rfl,HeadReported.finalized ?_⟩
        exact ⟨hhead.thread,hhead.positive,hhead.head.keep ⟨rfl,rfl,rfl⟩,hhands.trans hhead.handed⟩
    · next kept htx =>
      obtain ⟨-,rfl⟩ | ⟨⟨err,herr⟩,-⟩ | ⟨res,hok,-⟩ :=
        Runner.tryTransactionalHandoffSave_cases rfl htx
      · refine Runner.saveHandoff_reported hthread rfl hpointer ?_ ⟨rfl,rfl,rfl⟩ rfl rfl hclean.1 hhands
        exact fun hsome => if_pos hsome
      · cases herr
      · cases hok

end Publication

section Recovery

variable [Quoting] {r : Runner W A T E} {cp : Checkpointer W T E} {env env' : Env W T E} {threadID : Text}

theorem normalizeLoadedSnapshot_runMeta (threadID : Text) (snapshot : ThreadSnapshot T E) (revision : Nat) :
    (normalizeLoadedSnapshot threadID snapshot revision).1.runMeta = snapshot.runMeta := by
  unfold normalizeLoadedSnapshot
  dsimp only
  repeat' split
  all_goals rfl

theorem normalizeLoadedSnapshot_continues (threadID : Text) (snapshot : ThreadSnapshot T E) (revision : Nat) :
    snapshot.Continues (normalizeLoadedSnapshot threadID snapshot revision).1 := by
  unfold normalizeLoadedSnapshot
  dsimp only
  repeat' split
  all_goals exact ⟨rfl,rfl,rfl⟩

theorem normalizeLoadedSnapshot_ok {snapshot : ThreadSnapshot T E} {revision : Nat}
    (h : (normalizeLoadedSnapshot threadID snapshot revision).2 = none) :
    threadID ≠ [] ∧ revision ≠ 0 ∧
      (normalizeLoadedSnapshot threadID snapshot revision).1.threadID = threadID ∧
      (normalizeLoadedSnapshot threadID snapshot revision).1.executionPointer ≠ [] := by
  unfold normalizeLoadedSnapshot at h ⊢
  split at h
  · cases h
  · next hthread =>
    split at h
    · cases h
    · next hsame =>
      simp only at h ⊢
      split at h
      · cases h
      · next hrev =>
        split at h
        · cases h
        · next hmatch =>
          split at h
          · cases h
          · next hptr =>
            rw [if_neg hthread,if_neg hsame,if_neg hrev,if_neg hmatch,if_neg hptr]
            exact ⟨hthread,hrev,rfl,hptr⟩

omit [Quoting] in
theorem resumeDecisionStatusForError_ne (err : Err) :
    (resumeDecisionStatusForError err).1 ≠ .handoffRecoverable := by
  unfold resumeDecisionStatusForError
  repeat' split
  all_goals decide

structure ReadsHead (threadID : Text) (env : Env W T E) (d : ResumeDecision T E) : Prop where
  token : d.resumeToken = ⟨threadID,d.snapshotRevision⟩
  head : env.HeadIs threadID d.snapshotRevision d.handoffStatus d.runMeta.handoffPendingAt d.snapshot

structure Recovers (threadID : Text) (d : ResumeDecision T E) : Prop where
  thread : threadID ≠ []
  positive : d.snapshotRevision ≠ 0
  snapshot : d.snapshot.threadID = threadID
  pointer : d.snapshot.executionPointer ≠ []
  runMeta : d.runMeta = d.snapshot.runMeta
  status : d.handoffStatus = d.snapshot.runMeta.handoffStatus
  marked : d.snapshot.runMeta.handoffStatus ≠ .none

omit [Quoting] in
theorem Runner.recoverable_marked {snapshot : ThreadSnapshot T E} {opts : RecoverOptions W} {now : Time}
    (h : (Runner.recoverable snapshot opts now).1 = .handoffRecoverable) :
    snapshot.runMeta.handoffStatus ≠ .none := by
  intro hnone
  simp [Runner.recoverable,hnone] at h

omit [Quoting] in
theorem Runner.readForRecovery_clean (r : Runner W A T E) (snapshot : ThreadSnapshot T E) (env : Env W T E) :
    (r.readForRecovery snapshot env).2.threads = env.threads ∧
      (r.readForRecovery snapshot env).2.handed = env.handed := by
  unfold Runner.readForRecovery
  split
  · exact ⟨rfl,rfl⟩
  · exact ⟨rfl,rfl⟩

theorem Runner.evaluateHandoffRecovery_cases [Inhabited T] {opts : RecoverOptions W} {d : ResumeDecision T E}
    (h : r.evaluateHandoffRecovery cp threadID opts env = (d,env')) :
    (env'.threads = env.threads ∧ env'.handed = env.handed) ∧
      (d.resumeToken.snapshotRevision = 0 ∨ ReadsHead threadID env d) ∧
      (d.status = .handoffRecoverable → ReadsHead threadID env d ∧ Recovers threadID d) := by
  unfold Runner.evaluateHandoffRecovery at h
  split at h
  · cases h
    exact ⟨⟨rfl,rfl⟩,.inl rfl,nofun⟩
  · unfold Checkpointer.loadNormalizedSnapshot at h
    generalize hload : cp.load threadID env = loaded at h
    obtain ⟨result,read⟩ := loaded
    obtain ⟨hclean,hlast⟩ := Checkpointer.load_cases hload
    cases result with
    | error err =>
      simp only at h
      cases h
      exact ⟨hclean,.inl rfl,fun hstatus => absurd hstatus (resumeDecisionStatusForError_ne _)⟩
    | ok snapshot =>
      have hmeta := normalizeLoadedSnapshot_runMeta threadID snapshot snapshot.revision
      have hhead : env.HeadIs threadID snapshot.revision
          (normalizeLoadedSnapshot threadID snapshot snapshot.revision).1.runMeta.handoffStatus
          (normalizeLoadedSnapshot threadID snapshot snapshot.revision).1.runMeta.handoffPendingAt
          (normalizeLoadedSnapshot threadID snapshot snapshot.revision).1 :=
        ⟨snapshot,hlast snapshot rfl,rfl,by rw [hmeta],by rw [hmeta],
          normalizeLoadedSnapshot_continues threadID snapshot snapshot.revision⟩
      cases hnorm : (normalizeLoadedSnapshot threadID snapshot snapshot.revision).2 with
      | some err =>
        simp only [hnorm,Option.map_some] at h
        cases h
        exact ⟨hclean,.inr ⟨rfl,hhead⟩,fun hstatus => absurd hstatus (resumeDecisionStatusForError_ne _)⟩
      | none =>
        obtain ⟨hthread,hrev,hid,hptr⟩ := normalizeLoadedSnapshot_ok hnorm
        simp only [hnorm,Option.map_none] at h
        split at h
        · cases h
          exact ⟨hclean,.inr ⟨rfl,hhead⟩,nofun⟩
        · cases h
          obtain ⟨hthreads,hhanded⟩ := r.readForRecovery_clean
            (normalizeLoadedSnapshot threadID snapshot snapshot.revision).1 read
          refine ⟨?_,.inr ⟨rfl,hhead⟩,fun hstatus => ⟨⟨rfl,hhead⟩,?_⟩⟩
          · exact ⟨hthreads.trans hclean.1,hhanded.trans hclean.2⟩
          · exact ⟨hthread,hrev,hid,hptr,rfl,rfl,Runner.recoverable_marked hstatus⟩

omit [Quoting] in
theorem normalizeRecoveryFSMResult_failed {fsm : HandoffOutboxFSMResult} {runMeta : RunMetadata} {rev : Nat}
    (h : PatchFailed threadID rev runMeta env env' fsm) :
    (normalizeRecoveryFSMResult runMeta fsm).resumeToken = ⟨threadID,rev⟩ ∧
      (normalizeRecoveryFSMResult runMeta fsm).persistedStatus = runMeta.handoffStatus ∧
      (normalizeRecoveryFSMResult runMeta fsm).persistedPendingAt = runMeta.handoffPendingAt := by
  unfold normalizeRecoveryFSMResult
  split
  · exact ⟨h.token,rfl,rfl⟩
  · next hkeep =>
    have hpending : runMeta.handoffStatus = .pending := by
      by_contra hne
      exact hkeep ⟨h.failed,h.status,hne⟩
    exact ⟨h.token,h.status.trans hpending.symm,h.pendingAt⟩

omit [Quoting] in
theorem normalizeRecoveryFSMResult_patched {fsm : HandoffOutboxFSMResult} {runMeta : RunMetadata}
    {kept : ThreadSnapshot T E} (h : Patched threadID kept env' fsm) : normalizeRecoveryFSMResult runMeta fsm = fsm := by
  unfold normalizeRecoveryFSMResult
  refine if_neg fun hpending => ?_
  cases h.status with
  | inl hstatus => rw [hstatus] at hpending; exact absurd hpending.2.1 (by decide)
  | inr hstatus => rw [hstatus] at hpending; exact absurd hpending.2.1 (by decide)

omit [Quoting] in
theorem applyFSMHandoffRecoveryResult_eq (result : HandoffRecoveryResult T E) {fsm : HandoffOutboxFSMResult}
    (hthread : fsm.resumeToken.threadID ≠ []) (hstatus : fsm.persistedStatus ≠ .none) :
    (applyFSMHandoffRecoveryResult result fsm).resumeToken = fsm.resumeToken ∧
      (applyFSMHandoffRecoveryResult result fsm).handoffStatus = fsm.persistedStatus ∧
      (applyFSMHandoffRecoveryResult result fsm).decision.runMeta.handoffPendingAt = fsm.persistedPendingAt := by
  by_cases hrev : fsm.resumeToken.snapshotRevision = 0
  · simp [applyFSMHandoffRecoveryResult,hthread,hstatus,hrev]
  · simp [applyFSMHandoffRecoveryResult,hthread,hstatus,hrev]

def RecoveryReported (threadID : Text) (env : Env W T E)
    (out : (HandoffRecoveryResult T E × Option Err) × Env W T E) : Prop :=
  ReportsStorage threadID env out.2 out.1.1.resumeToken out.1.1.handoffStatus
    out.1.1.decision.runMeta.handoffPendingAt

omit [Quoting] in
theorem ReadsHead.reported {d : ResumeDecision T E}
    (hread : d.resumeToken.snapshotRevision = 0 ∨ ReadsHead threadID env d)
    (hclean : env'.threads = env.threads ∧ env'.handed = env.handed) :
    ReportsStorage threadID env env' d.resumeToken d.handoffStatus d.runMeta.handoffPendingAt := by
  refine ⟨fun hne => ?_,fun _ => hclean.1,.of_eq hclean.2⟩
  obtain hzero | hhead := hread
  · exact absurd hzero hne
  · obtain ⟨head,hlast,hrev,hstatus,hat,-⟩ := hhead.head
    rw [hhead.token]
    exact ⟨rfl,head,by rw [hclean.1,hlast],hrev,hstatus,hat⟩

theorem Runner.recoverStaleHandoff_reported [Inhabited T] (r : Runner W A T E) (threadID : Text)
    (opts : List (RecoverStaleHandoffOption W)) (env : Env W T E) :
    ∃ out, r.recoverStaleHandoff threadID opts env = some out ∧ RecoveryReported threadID env out := by
  unfold Runner.recoverStaleHandoff
  simp only
  cases hcp : r.checkpointer with
  | none => exact ⟨_,rfl,ReadsHead.reported (.inl rfl) ⟨rfl,rfl⟩⟩
  | some cp =>
    obtain ⟨⟨d,read⟩,hev⟩ : ∃ evaluated,
        r.evaluateHandoffRecovery cp threadID (r.recoverStaleHandoffConfig opts) env = evaluated := ⟨_,rfl⟩
    obtain ⟨hclean,hread,hrecoverable⟩ := Runner.evaluateHandoffRecovery_cases hev
    simp only [hev]
    split
    · exact ⟨_,rfl,ReadsHead.reported hread hclean⟩
    · next hstatus =>
      obtain ⟨hhead,hready⟩ := hrecoverable (not_not.mp hstatus)
      cases (r.recoverStaleHandoffConfig opts).outbox with
      | none => exact ⟨_,rfl,ReadsHead.reported hread hclean⟩
      | some outbox =>
        obtain ⟨fsm,final,hrun,hhands,hend⟩ := r.runHandoffOutboxFSM_cases cp d.snapshot.runMeta outbox
          (ascii "handoff_recovery") read hready.thread hready.snapshot hready.pointer hready.positive
        simp only [Runner.recoverHandoffEnqueue,hrun]
        refine ⟨_,rfl,?_⟩
        have hfull : HandsAtHead env final := (HandsAtHead.of_eq hclean.2).trans hhands
        -- both ends of the machine leave the head that the normalized result names
        have hreport : (normalizeRecoveryFSMResult d.snapshot.runMeta fsm).resumeToken.threadID = threadID ∧
            (normalizeRecoveryFSMResult d.snapshot.runMeta fsm).resumeToken.snapshotRevision ≠ 0 ∧
            (normalizeRecoveryFSMResult d.snapshot.runMeta fsm).persistedStatus ≠ .none ∧
            final.HeadIs threadID
              (normalizeRecoveryFSMResult d.snapshot.runMeta fsm).resumeToken.snapshotRevision
              (normalizeRecoveryFSMResult d.snapshot.runMeta fsm).persistedStatus
              (normalizeRecoveryFSMResult d.snapshot.runMeta fsm).persistedPendingAt d.snapshot := by
          cases hend with
          | inl hfailed =>
            obtain ⟨htoken,hkept,hat⟩ := normalizeRecoveryFSMResult_failed hfailed
            have hstored := hhead.head
            rw [hready.status,hready.runMeta] at hstored
            rw [htoken,hkept,hat]
            exact ⟨rfl,hready.positive,hready.marked,
              hstored.congr (by rw [hfailed.threads,hclean.1])⟩
          | inr hpatched =>
            rw [normalizeRecoveryFSMResult_patched hpatched]
            refine ⟨hpatched.thread,hpatched.positive,?_,hpatched.head⟩
            cases hpatched.status with
            | inl hstatus => rw [hstatus]; decide
            | inr hstatus => rw [hstatus]; decide
        obtain ⟨hthread,hpositive,hmarked,hfinal⟩ := hreport
        have hne : (normalizeRecoveryFSMResult d.snapshot.runMeta fsm).resumeToken.threadID ≠ [] := by
          rw [hthread]
          exact hready.thread
        obtain ⟨htoken,hst,hat⟩ := applyFSMHandoffRecoveryResult_eq (recoveryResultFromDecision d) hne hmarked
        constructor
        case stored =>
          intro _
          obtain ⟨head,hlast,hrev,hstatus,htime,-⟩ := hfinal
          rw [htoken,hst,hat]
          exact ⟨hthread,head,hlast,hrev,hstatus,htime⟩
        case unstored =>
          rw [htoken]
          exact fun hzero => absurd hzero hpositive
        case handed => exact hfull

end Recovery

structure HandoffsMatchStorage [Quoting] [Inhabited T] (r : Runner W A T E) : Prop where
  published : ∀ (inv : Invocation W T) (threadID current : Text) (state : T) (runMeta : RunMetadata)
    (effects : List E) (revision : Nat) (reason : Text) (resumeAt : ExecutionPointer) (signalSession : Bool)
    (env : Env W T E), threadID ≠ [] →
    ∃ result err env', r.completeHandoffTerminal inv threadID current state runMeta effects revision reason
        resumeAt signalSession env = some ((result,err),env') ∧
      ReportsStorage threadID env env' result.resumeToken result.runMeta.handoffStatus
        result.runMeta.handoffPendingAt
  recovered : ∀ (threadID : Text) (opts : List (RecoverStaleHandoffOption W)) (env : Env W T E),
    ∃ result err env', r.recoverStaleHandoff threadID opts env = some ((result,err),env') ∧
      ReportsStorage threadID env env' result.resumeToken result.handoffStatus
        result.decision.runMeta.handoffPendingAt

theorem handoff_reports_match_storage [Quoting] [Inhabited T] (r : Runner W A T E) :
    HandoffsMatchStorage r := by
  constructor
  case published =>
    intro inv threadID current state runMeta effects revision reason resumeAt signalSession env hthread
    obtain ⟨⟨⟨result,err⟩,env'⟩,hout,hreported⟩ := r.completeHandoffTerminal_reported inv hthread current state
      runMeta effects revision reason resumeAt signalSession env
    refine ⟨result,err,env',hout,fun hne => ?_,hreported.unstored,hreported.handed⟩
    obtain ⟨hid,head,hlast,hrev,hstatus,hat,-⟩ := hreported.stored hne
    exact ⟨hid,head,hlast,hrev,hstatus,hat⟩
  case recovered =>
    intro threadID opts env
    obtain ⟨⟨⟨result,err⟩,env'⟩,hout,hreported⟩ := r.recoverStaleHandoff_reported threadID opts env
    exact ⟨result,err,env',hout,hreported⟩

end Reports

section Example

@[reducible] def Quoting.plain : Quoting := ⟨id⟩

attribute [local instance] Quoting.plain

def refusedHandoff : Runner Unit Nat Nat Nat where
  graph := ⟨GoMap.set ∅ [110] fun ctx state w => (⟨.ok (state,.completed),ctx.budgets⟩,w),∅,∅,∅,∅,[110],
    fun _ update => update,⟨1,false,0,∅⟩⟩
  checkpointer := some ⟨false,fun _ _ w => (none,w),fun _ w => (none,w),fun _ w => (none,w),
    fun w => (none,w),fun _ w => (none,w)⟩
  interceptors := []
  handoffOutbox := some ⟨fun _ w => (some (.of .executionFailed),w),none⟩
  handoffStaleAfter := 0
  host := ⟨fun w => (⟨7⟩,w),fun _ => [],fun w => (∅,w),fun w => (none,w),fun w => (false,w),fun _ => none,
    fun _ w => (none,w),fun _ w => (none,w),fun _ w => (false,w)⟩

-- pending at revision 1, enqueued at 2, and orphaned at 3 after the outbox refused the intent of revision 2
example : (refusedHandoff.completeHandoffTerminal ⟨none,none,none,none,∅,∅,none,false,.hardFail⟩ [116] [110] 0
      (newRunMetadata [] ⟨1⟩) [] 0 [] [] false ⟨(),fun _ => [],[]⟩).map
      (fun out => (out.1.1.resumeToken,out.1.1.runMeta.handoffStatus,
        (out.2.threads [116]).map (fun s => (s.revision,s.runMeta.handoffStatus)),
        out.2.handed.map fun h => h.intent.snapshotRevision)) =
    some (⟨[116],3⟩,.orphaned,[(1,.pending),(2,.enqueued),(3,.orphaned)],[2]) := by decide

end Example
end Flowy
