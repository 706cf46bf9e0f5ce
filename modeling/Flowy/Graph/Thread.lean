import Flowy.Checkpoint
import Flowy.Wait.Delivery
import Flowy.Graph.Builder

/-! Storage of ordinary threads as a runner sees it. A checkpointer is atomic and compares revisions;
whether an operation is refused for another reason is decided by the world, which answers every host
call. -/
namespace Flowy

def ResumeToken.unset : ResumeToken := ⟨[],0⟩

structure ThreadSnapshot (T E : Type) extends Snapshot T E where
  revision : Nat

structure ThreadResult (T E : Type) extends RunResult T E where
  resumeToken : ResumeToken

structure HandoffIntent where
  threadID : Text
  executionPointer : ExecutionPointer
  reason : Text
  handoffStatus : HandoffStatus
  pendingSnapshotRevision : Nat
  committedSnapshotRevision : Nat
  snapshotRevision : Nat
  resumeToken : ResumeToken
deriving DecidableEq, Repr

/-- An intent as the outbox got it, and what its thread held then. -/
structure Handed (T E : Type) where
  intent : HandoffIntent
  visible : List (ThreadSnapshot T E)

/-- The world, the stored threads (oldest snapshot first) and the intents handed over so far. -/
structure Env (W T E : Type) where
  world : W
  threads : Text → List (ThreadSnapshot T E)
  handed : List (Handed T E)

/-- The reasons of a checkpointer to refuse, apart from a conflict. -/
structure Checkpointer (W T E : Type) where
  transactional : Bool
  saveFault : Nat → ThreadSnapshot T E → W → Option Err × W
  loadFault : Text → W → Option Err × W
  pruneFault : Text → W → Option Err × W
  commitFault : W → Option Err × W
  deleteFault : Text → W → Option Err × W

/-- `enqueueIntentTx` is present on a transactional outbox. -/
structure HandoffOutbox (W : Type) where
  enqueueIntent : HandoffIntent → W → Option Err × W
  enqueueIntentTx : Option (HandoffIntent → W → Option Err × W)

structure StateInterceptor (W T : Type) where
  beforeSave : T → W → Result T × W
  afterLoad : T → W → Result T × W

/-- `runCtx.Err()` and `context.Cause(runCtx)` of a canceled context. -/
structure Cancellation where
  err : Err
  cause : Err

/-- What a run asks of its context, the clock, the telemetry bridge, the lease manager and the sessions of
its runner. `unwrapped` is the text of `errors.Unwrap` of an error that a callback returned. -/
structure Host (W : Type) where
  now : W → Time × W
  segmentID : Time → Text
  telemetry : W → GoMap Text Text × W
  canceled : W → Option Cancellation × W
  consumerClosed : W → Bool × W
  unwrapped : Err → Option Text
  acquireLease : Text → W → Option Err × W
  releaseLease : Text → W → Option Err × W
  running : Text → W → Bool × W

inductive CheckpointFailurePolicy
  | hardFail | skipOnSaveError
deriving DecidableEq, Repr

structure ResumePlan where
  target : ExecutionPointer
  useCurrent : Bool

structure Invocation (W T : Type) where
  overlay : Option T
  overlayMerger : Option (T → T → T)
  resumeTargetPolicy : Option (T → ExecutionPointer → W → Result (T × ResumePlan) × W)
  invariantValidator : Option (T → W → Option Err × W)
  budgetCounts : GoMap Text Int
  telemetryContext : GoMap Text Text
  handoffOutbox : Option (HandoffOutbox W)
  atomicHandoff : Bool
  checkpointPolicy : CheckpointFailurePolicy

structure Runner (W A T E : Type) where
  graph : Graph W A T
  checkpointer : Option (Checkpointer W T E)
  interceptors : List (StateInterceptor W T)
  handoffOutbox : Option (HandoffOutbox W)
  handoffStaleAfter : Duration
  host : Host W

section Storage

variable {W A T E : Type}

namespace Env

def call {α : Type} (env : Env W T E) (f : W → α × W) : α × Env W T E :=
  ((f env.world).1,{ env with world := (f env.world).2 })

theorem of_call {α : Type} {env env' : Env W T E} {f : W → α × W} {a : α} (h : env.call f = (a,env')) :
    env'.threads = env.threads ∧ env'.handed = env.handed := by
  cases h
  exact ⟨rfl,rfl⟩

def hand (env : Env W T E) (enqueue : HandoffIntent → W → Option Err × W) (intent : HandoffIntent) :
    Option Err × Env W T E :=
  let out := env.call (enqueue intent)
  (out.1,{ out.2 with handed := env.handed ++ [⟨intent,env.threads intent.threadID⟩] })

def append (env : Env W T E) (snapshot : ThreadSnapshot T E) : Env W T E :=
  let thread := env.threads snapshot.threadID ++ [snapshot]
  { env with threads := Function.update env.threads snapshot.threadID thread }

end Env

def headRevision (items : List (ThreadSnapshot T E)) : Nat := items.getLast?.elim 0 fun s => s.revision

namespace Checkpointer

variable (cp : Checkpointer W T E)

def save (expectedRevision : Nat) (snapshot : ThreadSnapshot T E) (env : Env W T E) : Result Nat × Env W T E :=
  match env.call (cp.saveFault expectedRevision snapshot) with
  | (some err,env) => (.error err,env)
  | (none,env) =>
    if headRevision (env.threads snapshot.threadID) = expectedRevision then
      (.ok (expectedRevision + 1),env.append { snapshot with revision := expectedRevision + 1 })
    else (fail .concurrencyConflict,env)

/-- `enqueueFn` runs inside the transaction; what it returns is kept beside the result, as the closure of
the caller keeps it. An error rolls the save back. -/
def saveWithOutbox (expectedRevision : Nat) (snapshot : ThreadSnapshot T E)
    (enqueueFn : Nat → Env W T E → Result Nat × Env W T E) (env : Env W T E) :
    (Result Nat × Nat) × Env W T E :=
  match env.call (cp.saveFault expectedRevision snapshot) with
  | (some err,env) => ((.error err,0),env)
  | (none,env) =>
    if headRevision (env.threads snapshot.threadID) = expectedRevision then
      match enqueueFn (expectedRevision + 1)
          (env.append { snapshot with revision := expectedRevision + 1 }) with
      | (.error err,after) => ((.error err,0),{ after with threads := env.threads })
      | (.ok validated,after) =>
        match after.call cp.commitFault with
        | (some err,after) => ((.error ((Err.of .transactionalHandoffCommitFailed).wrap err),validated),
            { after with threads := env.threads })
        | (none,after) => ((.ok (expectedRevision + 1),validated),after)
    else ((fail .concurrencyConflict,0),env)

def load (threadID : Text) (env : Env W T E) : Result (ThreadSnapshot T E) × Env W T E :=
  match env.call (cp.loadFault threadID) with
  | (some err,env) => (.error err,env)
  | (none,env) =>
    ((env.threads threadID).getLast?.elim (fail .threadNotFound) .ok,env)

def prune (threadID : Text) (retainCount : Int) (env : Env W T E) : Option Err × Env W T E :=
  match env.call (cp.pruneFault threadID) with
  | (some err,env) => (some err,env)
  | (none,env) =>
    let items := env.threads threadID
    let kept := if retainCount ≤ 0 then [] else items.drop (items.length - retainCount.toNat)
    (none,{ env with threads := Function.update env.threads threadID kept })

def deleteIfIdle (threadID : Text) (env : Env W T E) : Option Err × Env W T E :=
  match env.call (cp.deleteFault threadID) with
  | (some err,env) => (some err,env)
  | (none,env) => (none,{ env with threads := Function.update env.threads threadID [] })

end Checkpointer

/-- `validateInvariant`, without the label of a failed save. -/
def Invocation.validate (inv : Invocation W T) (state : T) (w : W) : Option Err × W :=
  inv.invariantValidator.elim (none,w) fun validator => validator state w

def beforeSaveAll : List (StateInterceptor W T) → T → W → Result T × W
  | [], state, w => (.ok state,w)
  | interceptor :: rest, state, w =>
    match interceptor.beforeSave state w with
    | (.error err,w) => (.error (.label "flowy: before_save interceptor: " err),w)
    | (.ok state,w) => beforeSaveAll rest state w

def checkpointContractError (err : Err) : Bool :=
  err.is .concurrencyConflict || err.is .invalidSnapshot || err.is .leaseLost || err.is .threadLeaseBusy ||
    err.is .executionCapability || err.is .invalidHandoffIntent || err.is .transactionalOutboxUnsupported

namespace Runner

variable (r : Runner W A T E)

/-- Validates domain state before transforming its storage representation. -/
def prepareSnapshot (inv : Invocation W T) (snapshot : ThreadSnapshot T E) (env : Env W T E) :
    Result (ThreadSnapshot T E) × Env W T E :=
  match r.checkpointer with
  | none => (.error ⟨ascii "flowy: checkpointer is required",[]⟩,env)
  | some _ =>
    match env.call (inv.validate snapshot.state) with
    | (some err,env) => (.error (.label "flowy: invariant violated: " err),env)
    | (none,env) =>
      match env.call (beforeSaveAll r.interceptors snapshot.state) with
      | (.error err,env) => (.error err,env)
      | (.ok state,env) => (.ok { snapshot with state := state },env)

/-- The prepared snapshot and its revision, or `none` if the policy skipped a failed save. -/
def persistSnapshotPrepared (inv : Invocation W T) (expectedRevision : Nat) (snapshot : ThreadSnapshot T E)
    (env : Env W T E) : Result (Option (ThreadSnapshot T E × Nat)) × Env W T E :=
  match r.prepareSnapshot inv snapshot env with
  | (.error err,env) => (.error err,env)
  | (.ok prepared,env) =>
    match r.checkpointer with
    | none => (.error ⟨ascii "flowy: checkpointer is required",[]⟩,env)
    | some cp =>
      match cp.save expectedRevision prepared env with
      | (.ok revision,env) => (.ok (some (prepared,revision)),env)
      | (.error err,env) =>
        if inv.checkpointPolicy ≠ .skipOnSaveError ∨ checkpointContractError err = true then (.error err,env)
        else (.ok none,env)

def applyRetentionPolicy (threadID : Text) (env : Env W T E) : Option Err × Env W T E :=
  match r.checkpointer with
  | none => (none,env)
  | some cp =>
    if r.graph.defaults.retentionLimit ≤ 0 then (none,env)
    else cp.prune threadID r.graph.defaults.retentionLimit env

def resolveHandoffOutbox (inv : Invocation W T) : Option (HandoffOutbox W) :=
  inv.handoffOutbox.or r.handoffOutbox

end Runner

def retentionFailedReason (reason : Text) : Text :=
  if reason = [] then ascii "retention_failed" else reason ++ ascii "_retention_failed"

def RunMetadata.ended (runMeta : RunMetadata) (at_ : Time) (reason : SegmentEndReason) : RunMetadata :=
  { runMeta with segment := { runMeta.segment with endTime := at_, endReason := reason } }

def newRunResult (status : RunStatus) (state : T) (effects : List E) (runMeta : RunMetadata) (pointer : Text)
    (reason : Text) : ThreadResult T E :=
  ⟨⟨state,status,effects,runMeta,pointer,reason⟩,.unset⟩

/-- Marks the segment failed unless it already is. -/
def newRunResultFailed (host : Host W) (state : T) (effects : List E) (runMeta : RunMetadata) (pointer : Text)
    (reason : Text) (env : Env W T E) : ThreadResult T E × Env W T E :=
  if runMeta.segment.endReason ≠ .fail ∨ runMeta.segment.endTime.isZero = true then
    let now := env.call host.now
    (newRunResult .failed state effects (runMeta.ended now.1 .fail) pointer reason,now.2)
  else (newRunResult .failed state effects runMeta pointer reason,env)

section Quoted

variable [Quoting]

def invalidResumePointerError (node : Text) : Err :=
  (Err.of .invalidSnapshot).join
    ⟨Sentinel.resumeStartNodeNotFound.message ++ ascii ": " ++ Quoting.quoted node,[.resumeStartNodeNotFound]⟩

def Graph.validateExecutionPointer (g : Graph W A T) (ptr : ExecutionPointer) : Option Err :=
  if ptr = [] then some (.of .invalidSnapshot)
  else if (g.nodes.get? ptr).isSome then none
  else some (invalidResumePointerError ptr)

theorem Graph.validateExecutionPointer_none {g : Graph W A T} {ptr : ExecutionPointer}
    (h : g.validateExecutionPointer ptr = none) : ptr ≠ [] ∧ (g.nodes.get? ptr).isSome = true := by
  unfold Graph.validateExecutionPointer at h
  split at h
  · cases h
  · next hne =>
    split at h
    · next hreg => exact ⟨hne,hreg⟩
    · cases h

end Quoted
end Storage

/-! What the operations leave behind. -/
section Effects

variable {W A T E : Type} {cp : Checkpointer W T E} {env env' : Env W T E} {snapshot : ThreadSnapshot T E}
  {expected : Nat} {threadID : Text}

theorem Env.append_thread (env : Env W T E) (snapshot : ThreadSnapshot T E) :
    (env.append snapshot).threads snapshot.threadID = env.threads snapshot.threadID ++ [snapshot] := by
  simp [Env.append]

theorem Checkpointer.save_cases {out : Result Nat} (h : cp.save expected snapshot env = (out,env')) :
    (∃ err, out = .error err ∧ env'.threads = env.threads ∧ env'.handed = env.handed) ∨
    (out = .ok (expected + 1) ∧ env'.threads = (env.append { snapshot with revision := expected + 1 }).threads ∧
      env'.handed = env.handed) := by
  unfold Checkpointer.save at h
  split at h
  · next err after hcall =>
    cases h
    exact .inl ⟨err,rfl,Env.of_call hcall⟩
  · next after hcall =>
    obtain ⟨hthreads,hhanded⟩ := Env.of_call hcall
    split at h
    · cases h
      exact .inr ⟨rfl,by simp only [Env.append,hthreads],hhanded⟩
    · cases h
      exact .inl ⟨_,rfl,hthreads,hhanded⟩

theorem Checkpointer.load_cases {out : Result (ThreadSnapshot T E)} (h : cp.load threadID env = (out,env')) :
    (env'.threads = env.threads ∧ env'.handed = env.handed) ∧
      ∀ s, out = .ok s → (env.threads threadID).getLast? = some s := by
  unfold Checkpointer.load at h
  split at h
  · next err after hcall =>
    cases h
    exact ⟨Env.of_call hcall,nofun⟩
  · next after hcall =>
    have hsame := Env.of_call hcall
    cases h
    refine ⟨hsame,fun s hs => ?_⟩
    rw [hsame.1] at hs
    cases hlast : (env.threads threadID).getLast? with
    | none => simp [hlast,fail] at hs
    | some last =>
      rw [hlast] at hs
      cases hs
      rfl

theorem Checkpointer.prune_head {retain : Int} (hretain : 0 < retain) {out : Option Err}
    (h : cp.prune threadID retain env = (out,env')) :
    (env'.threads threadID).getLast? = (env.threads threadID).getLast? ∧ env'.handed = env.handed := by
  unfold Checkpointer.prune at h
  split at h
  · next err after hcall =>
    cases h
    obtain ⟨hthreads,hhanded⟩ := Env.of_call hcall
    exact ⟨by rw [hthreads],hhanded⟩
  · next after hcall =>
    obtain ⟨hthreads,hhanded⟩ := Env.of_call hcall
    cases h
    refine ⟨?_,hhanded⟩
    simp only [Function.update_self,if_neg (not_le.mpr hretain),hthreads]
    rw [List.getLast?_drop]
    split
    · next hall =>
      have hnil : (env.threads threadID).length = 0 := by omega
      rw [List.eq_nil_of_length_eq_zero hnil]
      rfl
    · rfl

theorem Runner.applyRetentionPolicy_head {r : Runner W A T E} {out : Option Err}
    (h : r.applyRetentionPolicy threadID env = (out,env')) :
    (env'.threads threadID).getLast? = (env.threads threadID).getLast? ∧ env'.handed = env.handed := by
  unfold Runner.applyRetentionPolicy at h
  split at h
  · cases h
    exact ⟨rfl,rfl⟩
  · split at h
    · cases h
      exact ⟨rfl,rfl⟩
    · next hlimit => exact Checkpointer.prune_head (not_le.mp hlimit) h

theorem Runner.prepareSnapshot_cases {r : Runner W A T E} {inv : Invocation W T}
    {out : Result (ThreadSnapshot T E)} (h : r.prepareSnapshot inv snapshot env = (out,env')) :
    (env'.threads = env.threads ∧ env'.handed = env.handed) ∧
      ∀ s, out = .ok s → ∃ state, s = { snapshot with state := state } := by
  unfold Runner.prepareSnapshot at h
  split at h
  · cases h
    exact ⟨⟨rfl,rfl⟩,nofun⟩
  · split at h
    · next hcall =>
      cases h
      exact ⟨Env.of_call hcall,nofun⟩
    · next hcall =>
      obtain ⟨hthreads,hhanded⟩ := Env.of_call hcall
      split at h
      · next hcall' =>
        cases h
        obtain ⟨hthreads',hhanded'⟩ := Env.of_call hcall'
        exact ⟨⟨hthreads'.trans hthreads,hhanded'.trans hhanded⟩,nofun⟩
      · next state after hcall' =>
        cases h
        obtain ⟨hthreads',hhanded'⟩ := Env.of_call hcall'
        refine ⟨⟨hthreads'.trans hthreads,hhanded'.trans hhanded⟩,fun s hs => ?_⟩
        cases hs
        exact ⟨state,rfl⟩

theorem Runner.persistSnapshotPrepared_cases {r : Runner W A T E} {inv : Invocation W T}
    {out : Result (Option (ThreadSnapshot T E × Nat))}
    (h : r.persistSnapshotPrepared inv expected snapshot env = (out,env')) :
    env'.handed = env.handed ∧
    (((∃ err, out = .error err) ∨ out = .ok none) ∧ env'.threads = env.threads ∨
      ∃ cp state, r.checkpointer = some cp ∧
        out = .ok (some ({ snapshot with state := state },expected + 1)) ∧
        env'.threads = (env.append { snapshot with state := state, revision := expected + 1 }).threads) := by
  unfold Runner.persistSnapshotPrepared at h
  split at h
  · next err after hprep =>
    obtain ⟨⟨hthreads,hhanded⟩,-⟩ := Runner.prepareSnapshot_cases hprep
    cases h
    exact ⟨hhanded,.inl ⟨.inl ⟨err,rfl⟩,hthreads⟩⟩
  · next prepared after hprep =>
    obtain ⟨⟨hthreads,hhanded⟩,hstate⟩ := Runner.prepareSnapshot_cases hprep
    obtain ⟨state,rfl⟩ := hstate prepared rfl
    split at h
    · cases h
      exact ⟨hhanded,.inl ⟨.inl ⟨_,rfl⟩,hthreads⟩⟩
    · next cp hcp =>
      split at h
      · next revision stored hsave =>
        cases h
        obtain ⟨err,herr,-⟩ | ⟨hrev,hstored,hhanded'⟩ := Checkpointer.save_cases hsave
        · cases herr
        · cases hrev
          refine ⟨hhanded'.trans hhanded,.inr ⟨cp,state,hcp,rfl,?_⟩⟩
          rw [hstored]
          simp only [Env.append,hthreads]
      · next err stored hsave =>
        obtain ⟨err',herr,hsame,hhanded'⟩ | ⟨hok,-⟩ := Checkpointer.save_cases hsave
        · split at h
          · cases h
            exact ⟨hhanded'.trans hhanded,.inl ⟨.inl ⟨err,rfl⟩,hsame.trans hthreads⟩⟩
          · cases h
            exact ⟨hhanded'.trans hhanded,.inl ⟨.inr rfl,hsame.trans hthreads⟩⟩
        · cases hok

end Effects
end Flowy
