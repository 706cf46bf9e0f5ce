import Flowy.Activity.Protocol
import Flowy.Child.Commit
import Flowy.Wait.Delivery

/-! The decision operations as their callers see them. Six open a session of their own: check of the
request, lease, load, checks of the source, decision, commit, release. The other two are calls of a
running node and work on the envelope that its session caches. -/
namespace Flowy

/-- What a call leaves: the envelope it committed, if any, and its answer. -/
structure Outcome (α : Type) where
  committed : Option Execution
  result : Result α

namespace Outcome

variable {α β : Type}

def refuse (err : Err) : Outcome α := ⟨none,.error err⟩

def map (f : α → β) (o : Outcome α) : Outcome β := ⟨o.committed,o.result.map f⟩

def Refused (o : Outcome α) : Prop := o.committed = none ∧ ∃ err, o.result = .error err

def Replayed (o : Outcome α) : Prop := o.committed = none ∧ ∃ a, o.result = .ok a

theorem refused_iff (o : Outcome α) : o.Refused ↔ ¬o.Replayed ∧ ∀ t, o.committed ≠ some t := by
  obtain ⟨committed,result⟩ := o
  cases committed <;> cases result <;> simp [Refused,Replayed]

theorem map_replayed (f : α → β) (o : Outcome α) : (o.map f).Replayed ↔ o.Replayed := by
  obtain ⟨committed,result⟩ := o
  cases result <;> simp [Replayed,map,Except.map]

theorem map_refused (f : α → β) (o : Outcome α) : (o.map f).Refused ↔ o.Refused := by
  obtain ⟨committed,result⟩ := o
  cases result <;> simp [Refused,map,Except.map]

end Outcome

/-- What was read as JSON can be written as JSON: no recorded time is outside the years it has. -/
def rewritable (e : Execution) : Bool :=
  e.journal.all (fun _ r => r.marshals) && marshalledGroups e.children

/-- What a host call meets on its way. `early` is the load before the lease, which only the wait
operations make; `ctx k` is the `k`-th look at the context of the session; `stored` is the store's
answer to the one commit of the call. -/
structure HostSession where
  early : Result Execution
  callerCtx : Result Unit
  acquired : Result Nat
  loaded : Result Execution
  ctx : Nat → Result Unit
  stored : Result Unit
  finished : Result Unit
  readable : ∀ e, loaded = .ok e → rewritable e = true

namespace HostSession

variable {α : Type}

/-- `acquireSession`: the incarnation of the lease. -/
def acquire (s : HostSession) (id : Text) : Result Nat := do
  require (validRuntimeText [id]) .executionCapability
  s.callerCtx
  s.acquired

/-- The deferred `errors.Join(retErr, session.finish())`. -/
def finish (s : HostSession) (o : Outcome α) : Outcome α :=
  match s.finished, o.result with
  | .ok (), _ => o
  | .error err, .ok _ => { o with result := .error err }
  | .error err, .error first => { o with result := .error (first.join err) }

def commit (s : HostSession) (id : Text) :
    Result (Nat × α × Option Execution) → Outcome (α × ResumeToken)
  | .error err => .refuse err
  | .ok (revision,reply,none) => ⟨none,.ok (reply,⟨id,revision⟩)⟩
  | .ok (revision,reply,some target) =>
    match s.stored with
    | .error err => .refuse err
    | .ok () => ⟨some { target with revision := revision + 1 },.ok (reply,⟨id,revision + 1⟩)⟩

/-- One call: `entry` comes before the lease, `section_` is applied to the incarnation and to what
`loaded` returns. A section without a target is a replay. -/
def call (s : HostSession) (entry : Result Unit) (id : Text) (loaded : Result Execution)
    (section_ : Nat → Execution → Result (α × Option Execution)) : Outcome (α × ResumeToken) :=
  match (do entry; s.acquire id : Result Nat) with
  | .error err => .refuse err
  | .ok incarnation => s.finish <| s.commit id do
    let source ← loaded
    let (reply,target) ← section_ incarnation source
    .ok (source.revision,reply,target)

/-- A load that the wait operations make: no execution is no armed wait. -/
def waitLoad (loaded : Result Execution) : Result Execution :=
  loaded.mapError fun err => if err.is .threadNotFound then .of .waitNotArmed else err

end HostSession

section Operations

variable [Sha256] {T E : Type}

/-- The checks of the loaded source that `ResolveActivity` and `childMutationSource` make. They
differ in the error for an execution that has ended. -/
def WaitRunner.mutationSource (r : WaitRunner) (ended : Sentinel) (source : Execution)
    (token : ResumeToken) : Result Unit := do
  validateLoadedIntegrity source token.threadID
  require (token.snapshotRevision != 0 && token.snapshotRevision == source.revision)
    .concurrencyConflict
  validateExecutionCollections source
  source.descriptor.check r.descriptor
  require source.terminal.isNone ended
  require (r.hasNode source.progress.executionPointer) .resumeStartNodeNotFound
  require (source.importProvenance.all fun p => p.importerID != [] && p.source.validate.isOk)
    .executionImportInvalid

def WaitRunner.childMutationSource (r : WaitRunner) : Execution → ResumeToken → Result Unit :=
  r.mutationSource .childRevision

namespace HostSession

/-- `ResolveActivity`; `sample` is the random number a retry may draw. -/
def resolveActivity (s : HostSession) (r : WaitRunner) (now : Time) (sample : Option Nat)
    (token : ResumeToken) (resolution : ActivityResolution) : Outcome (Unit × ResumeToken) :=
  s.call resolution.check token.threadID s.loaded fun incarnation source => do
    r.mutationSource .activityConflict source token
    let target ← resolveActivityTarget incarnation source resolution now sample
    s.ctx 0
    .ok ((),some target)

def confirmChildCancellation (s : HostSession) (r : WaitRunner) (now : Time) (token : ResumeToken)
    (decision : ChildCancelConfirmation) : Outcome (Unit × ResumeToken) :=
  s.call decision.check token.threadID s.loaded fun incarnation source => do
    r.childMutationSource source token
    let target ← Flowy.confirmChildCancellation incarnation source decision now
    s.ctx 0
    .ok ((),some target)

def resolveChildWait (s : HostSession) (r : WaitRunner) (now : Time) (token : ResumeToken)
    (resolution : ChildWaitResolution) : Outcome (Unit × ResumeToken) :=
  s.call resolution.check token.threadID s.loaded fun incarnation source => do
    r.childMutationSource source token
    let target ← Flowy.resolveChildWait incarnation source resolution now
    s.ctx 0
    .ok ((),some target)

def resolveChildOutcome (s : HostSession) (r : WaitRunner) (now : Time) (token : ResumeToken)
    (resolution : ChildOutcomeResolution) : Outcome (Unit × ResumeToken) :=
  s.call (require (validChildOutcomeRequest resolution) .childInvalid) token.threadID s.loaded
    fun incarnation source => do
      r.childMutationSource source token
      let target ← Flowy.resolveChildOutcome incarnation source resolution now
      -- looked at before a replay returns, and once more before a commit
      s.ctx 0
      if target.isSome then s.ctx 1
      .ok ((),target)

/-- The wait operations check the request and a first load of the source before the lease. -/
def waitEntry (s : HostSession) (r : WaitRunner) (check : Result Unit) (id generation : Text) :
    Result Unit := do
  check
  let source ← waitLoad s.early
  let _ ← r.waitDeliverySource source id generation
  .ok ()

theorem waitEntry_eq_ok {s : HostSession} {r : WaitRunner} {check : Result Unit} {id generation : Text} :
    s.waitEntry r check id generation = .ok () ↔ check = .ok () ∧ ∃ source waits,
      waitLoad s.early = .ok source ∧ r.waitDeliverySource source id generation = .ok waits := by
  simp only [waitEntry,bind_eq_ok,and_true,exists_and_left]
  exact ⟨fun ⟨_,hcheck,h⟩ => ⟨hcheck,h⟩,fun ⟨hcheck,h⟩ => ⟨(),hcheck,h⟩⟩

def deliverWait (s : HostSession) (r : WaitRunner) (codecs : Codecs T E) (now : Time)
    (executionID : Text) (delivery : WaitDelivery) (contract : WaitDeliveryContract T) :
    Outcome (WaitDecision × ResumeToken) :=
  s.call (s.waitEntry r (delivery.check executionID) executionID delivery.generation) executionID
    (waitLoad s.loaded) fun incarnation source =>
      Flowy.deliverWait r codecs s.ctx incarnation now source executionID delivery contract

/-- `CancelWait`; `wall` is the time of `markSegmentFailed`. -/
def cancelWait (s : HostSession) (r : WaitRunner) (now wall : Time) (token : ResumeToken)
    (request : WaitCancellation) : Outcome (Unit × ResumeToken) :=
  s.call (s.waitEntry r (request.check token) token.threadID request.generation) token.threadID
    (waitLoad s.loaded) fun incarnation source => do
      let target ← Flowy.cancelWait r (s.ctx 0) incarnation now wall source token request
      .ok ((),target)

end HostSession

structure ChildCancelNotice where
  parentID : Text
  groupKey : Text
  childID : Text
  executionID : Text
  childRevision : Nat
  requestID : Text
  reason : Text
deriving DecidableEq, Repr

/-- What a call of a running node meets: the session's incarnation and its cached envelope, the
store's answer to the commit, and for a live fork the host's answer to each dispatch. -/
structure NodeSession where
  incarnation : Nat
  envelope : Execution
  ctx : Nat → Result Unit
  stored : Result Unit
  authorize : ChildCancelNotice → Result Unit
  readable : rewritable envelope = true

namespace NodeSession

def commit (n : NodeSession) (edit : Result (ChildGroupRecord × Option Execution))
    (next : Execution → ChildGroupRecord → Result ChildGroupRecord) : Outcome ChildGroupRecord :=
  match edit with
  | .error err => .refuse err
  | .ok (group,none) => ⟨none,next n.envelope group⟩
  | .ok (group,some target) =>
    match n.stored with
    | .error err => .refuse err
    | .ok () =>
      let cached := { target with revision := n.envelope.revision + 1 }
      ⟨some cached,next cached group⟩

/-- A fake fork notifies nobody, a live one only what its policy authorizes. -/
def notifier (n : NodeSession) (notify : ChildCancelNotice → Result Unit) (notice : ChildCancelNotice) :
    Result Unit :=
  match n.envelope.fork.map ForkLineage.mode with
  | some .fake => .ok ()
  | some .live => do
    n.authorize notice
    notify notice
  | none => notify notice

/-- The loop over the children of the group; `k` counts the looks at the context. -/
def notifyChildren (n : NodeSession) (notify : ChildCancelNotice → Result Unit)
    (group : ChildGroupRecord) (request : ChildCancelRequest) : Nat → List ChildRecord → Result Unit
  | _, [] => .ok ()
  | k, child :: rest =>
    if !child.cancelRequested || settledChild child then n.notifyChildren notify group request k rest
    else do
      n.ctx k
      n.notifier notify ⟨group.parentID,group.plan.key,child.spec.id,child.executionID,child.revision,
        request.id,request.reason⟩
      n.notifyChildren notify group request (k + 1) rest

end NodeSession

/-- `currentChildGroup`: empty where the cached groups do not validate. -/
def cachedChildGroup (e : Execution) (identity : Text) : ChildGroupRecord :=
  match executionChildGroups e with
  | .error _ => .zero
  | .ok groups => (groups.get? identity).getD .zero

/-- `CancelChildren`. The request is committed first, so a notification can fail after the commit. -/
def NodeSession.cancelChildren (node : Option NodeSession) (now : Time) (expected : ChildGroupRecord)
    (request : ChildCancelRequest) (notify : Option (ChildCancelNotice → Result Unit)) :
    Outcome ChildGroupRecord :=
  match node, notify with
  | none, _ => .refuse (.of .executionCapability)
  | some _, none => .refuse (.of .childInvalid)
  | some n, some notify =>
    n.commit (requestChildCancellation n.incarnation n.envelope expected request now)
      fun cached group => do
        n.notifyChildren notify group request 0 group.children
        .ok (cachedChildGroup cached expected.identity)

def NodeSession.returnChildBudget (node : Option NodeSession) (now : Time)
    (expected : ChildGroupRecord) (claim : ChildBudgetReturn) : Outcome ChildGroupRecord :=
  match node with
  | none => .refuse (.of .executionCapability)
  | some n =>
    n.commit (Flowy.returnChildBudget n.incarnation n.envelope expected claim now)
      fun _ group => .ok group

end Operations

section Inversion

variable {α : Type} {s : HostSession} {entry : Result Unit} {id : Text} {loaded : Result Execution}
  {section_ : Nat → Execution → Result (α × Option Execution)}

def HostSession.Decides (s : HostSession) (entry : Result Unit) (id : Text) (loaded : Result Execution)
    (section_ : Nat → Execution → Result (α × Option Execution)) (source : Execution)
    (decided : α × Option Execution) : Prop :=
  entry = .ok () ∧ loaded = .ok source ∧
    ∃ incarnation, s.acquire id = .ok incarnation ∧ section_ incarnation source = .ok decided

namespace HostSession

theorem finish_committed (s : HostSession) (o : Outcome α) :
    (s.finish o).committed = o.committed := by
  unfold finish
  split <;> rfl

theorem finish_replayed (s : HostSession) (o : Outcome α) :
    (s.finish o).Replayed ↔ s.finished = .ok () ∧ o.Replayed := by
  unfold finish Outcome.Replayed
  split <;> simp [*]

theorem commit_committed {decided : Result (Nat × α × Option Execution)} {t : Execution} :
    (s.commit id decided).committed = some t ↔ ∃ revision reply target,
      decided = .ok (revision,reply,some target) ∧ s.stored = .ok () ∧
        t = { target with revision := revision + 1 } := by
  unfold commit
  split
  · simp [Outcome.refuse]
  · simp
  · split
    · rename_i hstored
      simp [Outcome.refuse,hstored]
    · rename_i hstored
      simp [hstored,eq_comm]

theorem commit_replayed {decided : Result (Nat × α × Option Execution)} :
    (s.commit id decided).Replayed ↔ ∃ revision reply, decided = .ok (revision,reply,none) := by
  unfold commit
  split
  · simp [Outcome.refuse,Outcome.Replayed]
  · simp [Outcome.Replayed]
  · split <;> simp [Outcome.refuse,Outcome.Replayed]

theorem not_decides {err : Err} (h : (do entry; s.acquire id : Result Nat) = .error err)
    (source : Execution) (decided : α × Option Execution) :
    ¬s.Decides entry id loaded section_ source decided := by
  rintro ⟨hentry,-,i,hi,-⟩
  simp [hentry,hi,bind,Except.bind] at h

theorem call_committed {t : Execution} :
    (s.call entry id loaded section_).committed = some t ↔ ∃ source reply target,
      s.Decides entry id loaded section_ source (reply,some target) ∧ s.stored = .ok () ∧
        t = { target with revision := source.revision + 1 } := by
  unfold call
  cases hleased : (do entry; s.acquire id : Result Nat) with
  | error err =>
    simp [Outcome.refuse,not_decides hleased]
  | ok i =>
    obtain ⟨_,hentry,hi⟩ := bind_eq_ok.mp hleased
    rw [finish_committed,commit_committed]
    simp only [Decides,hentry,hi,bind_eq_ok,true_and,Except.ok.injEq,exists_eq_left',Prod.mk.injEq]
    constructor
    · rintro ⟨_,reply,target,⟨source,hload,⟨reply',target'⟩,hsec,rfl,rfl,rfl⟩,hstored,rfl⟩
      exact ⟨source,reply',target,⟨hload,hsec⟩,hstored,rfl⟩
    · rintro ⟨source,reply,target,⟨hload,hsec⟩,hstored,rfl⟩
      exact ⟨_,reply,target,⟨source,hload,(reply,some target),hsec,rfl,rfl,rfl⟩,hstored,rfl⟩

theorem call_replayed :
    (s.call entry id loaded section_).Replayed ↔ s.finished = .ok () ∧ ∃ source reply,
      s.Decides entry id loaded section_ source (reply,none) := by
  unfold call
  cases hleased : (do entry; s.acquire id : Result Nat) with
  | error err =>
    simp [Outcome.refuse,Outcome.Replayed,not_decides hleased]
  | ok i =>
    obtain ⟨_,hentry,hi⟩ := bind_eq_ok.mp hleased
    rw [finish_replayed,commit_replayed]
    simp only [Decides,hentry,hi,bind_eq_ok,true_and,Except.ok.injEq,exists_eq_left',Prod.mk.injEq]
    refine and_congr_right fun _ => ⟨?_,?_⟩
    · rintro ⟨_,reply,source,hload,⟨reply',target'⟩,hsec,rfl,rfl,rfl⟩
      exact ⟨source,reply',hload,hsec⟩
    · rintro ⟨source,reply,hload,hsec⟩
      exact ⟨_,reply,source,hload,(reply,none),hsec,rfl,rfl,rfl⟩

theorem call_refused (h : ∀ i source decided, section_ i source ≠ .ok decided) :
    (s.call entry id loaded section_).Refused := by
  refine (Outcome.refused_iff _).mpr ⟨fun hrep => ?_,fun t hcom => ?_⟩
  · obtain ⟨-,source,reply,-,-,i,-,hsec⟩ := call_replayed.mp hrep
    exact h _ _ _ hsec
  · obtain ⟨source,reply,target,⟨-,-,i,-,hsec⟩,-⟩ := call_committed.mp hcom
    exact h _ _ _ hsec

theorem call_refused_after {β : Type} {check : Execution → Result Unit}
    {decision : Nat → Execution → Result β} {next : β → Result (α × Option Execution)}
    (h : ∀ i source b, decision i source ≠ .ok b) :
    (s.call entry id loaded fun i source => do
      check source
      let b ← decision i source
      next b).Refused := by
  refine call_refused fun i source decided hsec => ?_
  simp only [bind_eq_ok] at hsec
  obtain ⟨_,-,b,hb,-⟩ := hsec
  exact h i source b hb

theorem call_of_decides {source : Execution} {reply : α} {target : Option Execution}
    (h : s.Decides entry id loaded section_ source (reply,target)) :
    s.call entry id loaded section_ = s.finish (s.commit id (.ok (source.revision,reply,target))) := by
  obtain ⟨hentry,hload,i,hi,hsec⟩ := h
  simp [call,hentry,hi,hload,hsec,bind,Except.bind]

end HostSession

namespace NodeSession

variable {n : NodeSession} {edit : Result (ChildGroupRecord × Option Execution)}
  {next : Execution → ChildGroupRecord → Result ChildGroupRecord}

theorem commit_committed {t : Execution} :
    (n.commit edit next).committed = some t ↔ ∃ group target, edit = .ok (group,some target) ∧
      n.stored = .ok () ∧ t = { target with revision := n.envelope.revision + 1 } := by
  unfold commit
  split
  · simp [Outcome.refuse]
  · simp
  · split
    · rename_i hstored
      simp [Outcome.refuse,hstored]
    · rename_i hstored
      simp [hstored,eq_comm]

theorem commit_replayed :
    (n.commit edit next).Replayed ↔
      ∃ group, edit = .ok (group,none) ∧ ∃ reply, next n.envelope group = .ok reply := by
  unfold commit
  split
  · simp [Outcome.refuse,Outcome.Replayed]
  · simp [Outcome.Replayed]
  · split <;> simp [Outcome.refuse,Outcome.Replayed]

end NodeSession
end Inversion
end Flowy
