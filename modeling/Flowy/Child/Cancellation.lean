import Flowy.Child.History
import Flowy.Child.Readmit

/-! Cancellation of a group: what a request does to every child, and the race between a request and
the dispatchers that are already running. The request moves the revision of a running child, so its
dispatcher comes back with an invocation that is one revision old. -/
namespace Flowy

open Fencing
open scoped List

structure CancelOk (g : ChildGroupRecord) : Prop where
  requested : g.cancelRequested = g.cancelRequest.isSome
  asked : g.cancelRequested = true → ∀ c ∈ g.children, launchable c = false ∧
    (settledChild c = true ∨ c.cancelRequested = true)
  unasked : g.cancelRequested = false → ∀ c ∈ g.children, c.cancelRequested = false
  canceled : ∀ c ∈ g.children, c.state = .canceled → c.cancelRequested = true
  launches : ∀ c ∈ g.children, (c.state = .planned → c.revision = 0) ∧ (c.state = .queued → c.revision = 1)

def CancelsOk {J W : Type} (e : ExecutionEnvelope J ChildGroups W) : Prop :=
  ∀ identity g, e.children.get? identity = some g → CancelOk g

section Groups

variable {g : ChildGroupRecord} {c c' : ChildRecord}

theorem mem_setChild {x : ChildRecord} (h : x ∈ (g.setChild c').children) : x = c' ∨ x ∈ g.children := by
  simp only [ChildGroupRecord.setChild,List.mem_map] at h
  obtain ⟨y,hy,rfl⟩ := h
  split
  · exact .inl rfl
  · exact .inr hy

theorem CancelOk.reread (h : CancelOk g) : CancelOk g.reread := by
  have hmem : ∀ x ∈ g.reread.children, ∃ y ∈ g.children, y.reread = x := fun x hx =>
    List.mem_map.mp hx
  refine ⟨h.requested,fun hg x hx => ?_,fun hg x hx => ?_,fun x hx hs => ?_,fun x hx => ?_⟩
  all_goals obtain ⟨y,hy,rfl⟩ := hmem x hx
  · exact h.asked hg y hy
  · exact h.unasked hg y hy
  · exact h.canceled y hy hs
  · exact h.launches y hy

theorem CancelOk.setChild (h : CancelOk g) (hc : c ∈ g.children) (hasked : c'.cancelRequested = c.cancelRequested)
    (hl : g.cancelRequested = true → launchable c' = false)
    (hopen : g.cancelRequested = true → settledChild c = false)
    (hcanceled : c'.state = .canceled → c'.cancelRequested = true)
    (hlaunch : (c'.state = .planned → c'.revision = 0) ∧ (c'.state = .queued → c'.revision = 1)) :
    CancelOk (g.setChild c') := by
  refine ⟨h.requested,fun hg x hx => ?_,fun hg x hx => ?_,fun x hx => ?_,fun x hx => ?_⟩
  all_goals rcases mem_setChild hx with rfl | hx
  · have hold := (h.asked hg c hc).2
    rw [hopen hg,Bool.false_eq_true,false_or] at hold
    exact ⟨hl hg,.inr (hasked.trans hold)⟩
  · exact h.asked hg x hx
  · exact hasked.trans (h.unasked hg c hc)
  · exact h.unasked hg x hx
  · exact hcanceled
  · exact h.canceled x hx
  · exact hlaunch
  · exact h.launches x hx

theorem canceled_asked (hv : validateChildRecordState c = true) (hs : c.state = .canceled) :
    c.cancelRequested = true := by
  simp only [validateChildRecordState,validateChildStateMachine,hs,Bool.and_eq_true] at hv
  have hconf := hv.2.2.2
  have hfirst := hv.2.1
  simp only [hconf,Bool.true_and,Bool.not_eq_true',Bool.or_eq_false_iff,Bool.not_eq_false'] at hfirst
  exact hfirst.1

theorem requestChildCancel_room (hs : c.state = .running) (h : requestChildCancel c = .ok c') :
    c.revision + 1 < maxRevision := by
  unfold requestChildCancel at h
  rw [if_neg (by simp [settledChild,hs])] at h
  simp only [bind_eq_ok,require_eq_ok,exists_const,hs,beq_self_eq_true,Bool.true_and,Bool.not_eq_true',
    Bool.or_eq_false_iff,decide_eq_false_iff_not] at h
  have hroom := h.1.2
  omega

theorem not_launchable_iff (h : launchable c = false) : c.state ≠ .planned ∧ c.state ≠ .queued := by
  simp only [launchable,Bool.or_eq_false_iff,beq_eq_false_iff_ne] at h
  exact h

theorem launches_of_not_launchable (h : launchable c = false) :
    (c.state = .planned → c.revision = 0) ∧ (c.state = .queued → c.revision = 1) :=
  ⟨fun hs => absurd hs (not_launchable_iff h).1,fun hs => absurd hs (not_launchable_iff h).2⟩

variable [Sha256] {J W : Type} {clock : Time → Bool} {i : Nat} {e : ExecutionEnvelope J ChildGroups W}
  {g' : ChildGroupRecord}

theorem GroupEdit.cancelOk {a : EditScope} (h : CancelOk g) (hedit : GroupEdit clock i e g a g') :
    CancelOk g' := by
  have hwrong : g.cancelRequested = false → g.cancelRequested = true → False := by simp_all
  cases hedit with
  | queue c hc hg hs =>
    refine h.setChild hc rfl (fun h => (hwrong hg h).elim) (fun h => (hwrong hg h).elim)
      (fun h => by cases h) ⟨fun h => (by cases h),fun _ => ?_⟩
    simp [queueChild,(h.launches c hc).1 hs]
  | start c hc hg hs =>
    exact h.setChild hc rfl (fun h => (hwrong hg h).elim) (fun h => (hwrong hg h).elim)
      (fun h => by cases h) ⟨fun h => (by cases h),fun h => by cases h⟩
  | recover children hr hall =>
    have hmem : ∀ x ∈ children, ∃ y ∈ g.children, recoverChild i y = .ok x := fun x hx =>
      forall₂_mem_right hall hx
    refine ⟨h.requested,fun hg x hx => ?_,fun hg x hx => ?_,fun x hx hs => ?_,fun x hx => ?_⟩
    all_goals
      obtain ⟨y,hy,hrec⟩ := hmem x hx
      rcases recoverChild_eq_ok hrec with ⟨-,rfl⟩ | ⟨hrun,-,rfl⟩
    · exact h.asked hg _ hy
    · refine ⟨by simp [launchable],.inr ?_⟩
      exact (h.asked hg y hy).2.resolve_left (by simp [settledChild,hrun])
    · exact h.unasked hg _ hy
    · exact h.unasked hg y hy
    · exact h.canceled _ hy hs
    · cases hs
    · exact h.launches _ hy
    · exact ⟨fun h => (by cases h),fun h => by cases h⟩
  | finish c hc result hs hi hr hv =>
    exact h.setChild hc rfl (fun _ => (not_launchable_of_result hr).1)
      (fun _ => by simp [settledChild,hs]) (canceled_asked hv)
      (launches_of_not_launchable (not_launchable_of_result hr).1)
  | join result hm hs => exact ⟨h.requested,h.asked,h.unasked,h.canceled,h.launches⟩
  | cancel request now children hnow hcheck hm hnone hall =>
    have hmem : ∀ x ∈ children, ∃ y ∈ g.children, requestChildCancel y = .ok x := fun x hx =>
      forall₂_mem_right hall hx
    refine ⟨rfl,fun _ x hx => ?_,(fun hg => by cases hg),fun x hx hs => ?_,fun x hx => ?_⟩
    all_goals
      obtain ⟨y,hy,hreq⟩ := hmem x hx
      rcases requestChildCancel_eq_ok hreq with ⟨hset,rfl⟩ | ⟨hset,hl,rfl⟩ | ⟨hset,hl,rfl⟩
    · exact ⟨(not_launchable_of_settled hset).1,.inl hset⟩
    · exact ⟨by simp [launchable],.inr rfl⟩
    · exact ⟨hl,.inr rfl⟩
    · exact h.canceled _ hy hs
    · rfl
    · rfl
    · exact h.launches _ hy
    · exact ⟨fun h => (by cases h),fun h => by cases h⟩
    · exact launches_of_not_launchable hl
  | credit claim c returned now hnow hcheck hnone hc hrev hret =>
    exact ⟨h.requested,h.asked,h.unasked,h.canceled,h.launches⟩
  | decide c c' hc hm hdec hv =>
    obtain ⟨hopen,hset⟩ := hdec.settles
    have hunsettled : settledChild c = false := by
      simp only [unresolvedCancelableChild,Bool.or_eq_true,beq_iff_eq] at hopen
      rcases hopen with (hs | hs) | hs <;> simp [settledChild,hs]
    have hasked : c'.cancelRequested = c.cancelRequested := by cases hdec <;> rfl
    exact h.setChild hc hasked (fun _ => (not_launchable_of_settled hset).1) (fun _ => hunsettled)
      (canceled_asked hv) (launches_of_not_launchable (not_launchable_of_settled hset).1)

end Groups

section Live

variable {J W : Type} {i : Nat} {e t : ExecutionEnvelope J ChildGroups W} {p : Text × ChildInvocation}

/-- The child of an invocation still waits for the outcome that session `i` will bring. -/
def Live (i : Nat) (e : ExecutionEnvelope J ChildGroups W) (p : Text × ChildInvocation) : Prop :=
  ∃ g c, e.children.get? p.1 = some g ∧ c ∈ g.children ∧ c.spec.id = p.2.childID ∧
    childInvocationMatches c p.2 i = true

theorem matches_reread (c : ChildRecord) (inv : ChildInvocation) (i : Nat) :
    childInvocationMatches c.reread inv i = childInvocationMatches c inv i := rfl

theorem matches_facts {c : ChildRecord} {inv : ChildInvocation}
    (h : childInvocationMatches c inv i = true) : c.state = .running ∧ c.incarnation = i ∧
      c.revision < maxRevision ∧ (c.revision = inv.revision ∨
        (c.cancelRequested = true ∧ inv.revision < maxRevision ∧ c.revision = inv.revision + 1)) := by
  simp only [childInvocationMatches,Bool.and_eq_true,Bool.or_eq_true,beq_iff_eq,decide_eq_true_eq] at h
  exact ⟨h.1.1.1,h.2,h.1.2,h.1.1.2.imp id fun h => ⟨h.1.1,h.1.2,h.2⟩⟩

variable [Sha256] {clock : Time → Bool} {identity id : Text} {a : EditScope}

theorem Live.ne (hs : SoundGroups e) (h : Live i e p) {g : ChildGroupRecord} {c : ChildRecord}
    (hg : e.children.get? p.1 = some g) (hc : c ∈ g.children) (hr : c.state ≠ .running) :
    p.2.childID ≠ c.spec.id := by
  obtain ⟨g',c',hg',hc',hid,hm⟩ := h
  rw [hg] at hg'
  cases hg'
  intro heq
  have hsame := List.inj_on_of_nodup_map (hs _ g hg).distinct hc' hc (hid.trans heq)
  exact hr (hsame ▸ (matches_facts hm).1)

theorem Live.child (hs : SoundGroups e) (h : Live i e p) {j : Nat}
    (hop : ChildOperation clock j e identity a t) (ha : a = .child id ∨ a = .launch id)
    (hne : p.1 = identity → p.2.childID ≠ id) (n : Nat) : Live i { t with revision := n } p := by
  obtain ⟨g,c,hg,hc,hid,hm⟩ := h
  obtain ⟨g',hg',hall⟩ := hop.frame hs ha hg
  obtain ⟨c',hc',hsame⟩ := forall₂_mem_left hall hc
  have heq := hsame fun h => by
    rw [hid]
    exact hne h
  subst heq
  exact ⟨g',c',hg',hc',hid,hm⟩

/-- A commit on a whole group: recovery refuses to touch a live child, a join leaves the children
alone, and a request moves the revision by the one step that the invocation allows. -/
theorem Live.group (hs : SoundGroups e) (hok : CancelsOk e) (h : Live i e p)
    (hop : ChildOperation clock i e identity .group t) (n : Nat) : Live i { t with revision := n } p := by
  obtain ⟨g,c,hg,hc,hid,hm⟩ := h
  obtain ⟨hrun,hinc,hmax,hrev⟩ := matches_facts hm
  cases hop.commit with
  | plan g0 plan available hnone hbound hplan hledger hmar =>
    refine ⟨g,c,?_,hc,hid,hm⟩
    change (e.putGroup g0.identity g0).children.get? p.1 = some g
    rw [hs.get?_putGroup,if_neg]
    · exact hg
    · intro heq
      rw [heq,hnone] at hg
      cases hg
  | edit identity g0 g' a hg0 hedit hmar =>
    by_cases heq : p.1 = identity
    · subst heq
      rw [hg] at hg0
      cases hg0
      have hget : (e.putGroup p.1 g').children.get? p.1 = some g'.reread := by
        rw [hs.get?_putGroup,if_pos rfl]
      -- it is enough to find the child before the group is read back
      suffices hfound : ∃ c' ∈ g'.children, c'.spec.id = p.2.childID ∧
          childInvocationMatches c' p.2 i = true by
        obtain ⟨c',hc',hid',hm'⟩ := hfound
        exact ⟨g'.reread,c'.reread,hget,List.mem_map_of_mem hc',hid',hm'⟩
      cases hedit with
      | recover children hr hall =>
        obtain ⟨c',hc',hrec⟩ := forall₂_mem_left hall hc
        rcases recoverChild_eq_ok hrec with ⟨hstop,-⟩ | ⟨-,hother,-⟩
        · exact absurd hrun hstop
        · exact absurd hinc hother
      | join result hm' hset => exact ⟨c,hc,hid,hm⟩
      | cancel request now children hnow hcheck hmerged hnone hall =>
        obtain ⟨c',hc',hreq⟩ := forall₂_mem_left hall hc
        have hfresh : c.cancelRequested = false := by
          refine (hok _ g hg).unasked ?_ c hc
          rw [(hok _ g hg).requested,hnone]
          rfl
        have hexact : c.revision = p.2.revision := hrev.resolve_right fun h => by
          rw [hfresh] at h
          cases h.1
        have hroom := requestChildCancel_room hrun hreq
        refine ⟨c',hc',?_⟩
        rcases requestChildCancel_eq_ok hreq with ⟨hset,-⟩ | ⟨-,hl,-⟩ | ⟨-,-,rfl⟩
        · simp [settledChild,hrun] at hset
        · simp [launchable,hrun] at hl
        · refine ⟨hid,?_⟩
          simp only [childInvocationMatches,hrun,hinc,Bool.and_eq_true,Bool.or_eq_true,beq_iff_eq,
            decide_eq_true_eq]
          exact ⟨⟨⟨trivial,.inr ⟨⟨trivial,by omega⟩,by omega⟩⟩,hroom⟩,trivial⟩
    · refine ⟨g,c,?_,hc,hid,hm⟩
      change (e.putGroup identity g').children.get? p.1 = some g
      rw [hs.get?_putGroup,if_neg heq]
      exact hg

end Live

section Sessions

def liveOf (c : RunCall) : List (Text × ChildInvocation) :=
  (c.workers.filter fun w => w.phase == .spawned || w.phase == .dispatching).map fun w =>
    (c.identity,w.invocation)

def liveWorkers (l : Launches) : List (Text × ChildInvocation) := l.calls.flatMap liveOf

/-- Every live worker of a session has a child of its own that waits for it. -/
structure LiveOk {J W : Type} (i : Nat) (cache : Option (ExecutionEnvelope J ChildGroups W))
    (l : Launches) : Prop where
  unloaded : cache = none → liveWorkers l = []
  live : ∀ e, cache = some e → ∀ p ∈ liveWorkers l, Live i e p
  distinct : ((liveWorkers l).map fun p => (p.1,p.2.childID)).Nodup

variable {J W : Type} {i k w : Nat} {e e' t : ExecutionEnvelope J ChildGroups W} {l l' : Launches}
  {c c' : RunCall} {x : Worker} {identity : Text}

theorem nodup_map_of_subperm {α β : Type} {xs ys : List α} {f : α → β} (h : xs <+~ ys)
    (hn : (ys.map f).Nodup) : (xs.map f).Nodup := by
  obtain ⟨zs,hperm,hsub⟩ := h
  exact (hperm.map f).nodup_iff.mp ((hsub.map f).nodup hn)

theorem LiveOk.sub (h : LiveOk i (some e) l) (hsub : liveWorkers l' <+~ liveWorkers l)
    (hlive : ∀ p ∈ liveWorkers l', Live i e p → Live i e' p) : LiveOk i (some e') l' := by
  refine ⟨(fun h => by cases h),?_,nodup_map_of_subperm hsub h.distinct⟩
  rintro _ ⟨⟩ p hp
  exact hlive p hp (h.live e rfl p (hsub.subset hp))

theorem LiveOk.shrink (h : LiveOk i (some e) l) (hsub : liveWorkers l' <+~ liveWorkers l) :
    LiveOk i (some e) l' := h.sub hsub fun _ _ => id

theorem liveOf_of_workers (c c' : RunCall) (hid : c'.identity = c.identity) (hw : c'.workers = c.workers) :
    liveOf c' = liveOf c := by
  rw [liveOf,liveOf,hid,hw]

theorem liveWorkers_set (hk : l.calls[k]? = some c) (c' : RunCall) (hid : c'.identity = c.identity)
    (hw : c'.workers = c.workers) : (l.calls.set k c').flatMap liveOf <+~ liveWorkers l := by
  refine flatMap_set hk ?_
  rw [liveOf_of_workers c c' hid hw]

theorem setWorkers_identity (c : RunCall) (workers : List Worker) :
    (c.setWorkers workers).identity = c.identity := by
  cases c <;> rfl

theorem liveOf_end (hw : c.workers[w]? = some x) (hx : x.phase = .spawned ∨ x.phase = .dispatching)
    {phase : WorkerPhase} (hp : phase = .succeeded ∨ phase = .failed) :
    (c.identity,x.invocation) :: liveOf (c.setWorkers (c.workers.set w { x with phase := phase })) <+~
      liveOf c := by
  obtain ⟨pre,post,hsplit,hset⟩ := set_split hw
  have hlive : (x.phase == .spawned || x.phase == .dispatching) = true := by simpa using hx
  have hend : (phase == .spawned || phase == .dispatching) = false := by
    rcases hp with rfl | rfl <;> rfl
  rw [liveOf,liveOf,setWorkers_identity,setWorkers_workers (workers_ne_nil hw),hset,hsplit]
  simp only [List.filter_append,List.filter_cons,hlive,hend,if_true,Bool.false_eq_true,if_false,
    List.map_append,List.map_cons]
  exact List.perm_middle.symm.subperm

theorem liveOf_dispatch (hw : c.workers[w]? = some x) (hx : x.phase = .spawned) :
    liveOf (c.setWorkers (c.workers.set w { x with phase := .dispatching })) = liveOf c := by
  obtain ⟨pre,post,hsplit,hset⟩ := set_split hw
  rw [liveOf,liveOf,setWorkers_identity,setWorkers_workers (workers_ne_nil hw),hset,hsplit]
  simp [List.filter_append,hx]

theorem liveOf_receive (launch : Launch) (w : Nat) (ok : Bool) :
    liveOf (receiveCompletion e launch w ok) <+~ liveOf (.launching launch) := by
  have hsub : ((launch.workers.eraseIdx w).filter fun w =>
      w.phase == .spawned || w.phase == .dispatching).map (fun w => (launch.identity,w.invocation)) <+~
        liveOf (.launching launch) :=
    (((List.eraseIdx_sublist launch.workers w).filter _).map _).subperm
  unfold receiveCompletion
  dsimp only
  split <;> exact hsub

def ChildLive (i : Nat) (e : ExecutionEnvelope J ChildGroups W) : ChildAct J W → Prop
  | .move l' _ => LiveOk i (some e) l'
  | .commit t la lf _ => LiveOk i (some { t with revision := e.revision + 1 }) la ∧ LiveOk i (some e) lf

variable [Sha256] {clock : Time → Bool}

section Acts

variable (hs : SoundGroups e) (hok : CancelsOk e) (hlive : LiveOk i (some e) l)

include hs hok hlive

theorem prepareAct_live (plan : ChildGroupPlan) (available : Counters) :
    ChildLive i e (prepareAct e l plan available) := by
  have happ : ∀ identity, liveWorkers ⟨l.calls ++ [.prepared identity],none,.calls⟩ = liveWorkers l := by
    intro identity
    simp [liveWorkers,List.flatMap_append,liveOf,RunCall.workers]
  unfold prepareAct
  cases hp : prepareChildren e plan available with
  | error err => exact hlive.shrink (.refl _)
  | ok r =>
    obtain ⟨g,target⟩ := r
    cases target with
    | none => exact hlive.shrink (by rw [happ])
    | some target =>
      exact ⟨hlive.sub (by rw [happ]) fun p _ h =>
        h.group hs hok (.prepare plan available g target hp : ChildOperation (fun _ => true) _ _ _ _ _) _,
        hlive.shrink (.refl _)⟩

theorem recoverAct_live (hk : l.calls[k]? = some (.prepared identity)) :
    ChildLive i e (recoverAct i k e l identity) := by
  have hnil : ∀ c, c.workers = [] → liveWorkers (l.set k c) <+~ liveWorkers l := by
    intro c hc
    refine flatMap_set hk ?_
    rw [liveOf,hc]
    exact List.nil_subperm
  unfold recoverAct
  cases hr : recoverChildLaunches i e identity with
  | error err => exact hlive.shrink (hnil _ rfl)
  | ok r =>
    have hnext : liveWorkers (l.set k (if r.pending then .returned identity []
        else .launching ⟨identity,r.group.plan.maxConcurrency,r.group.plan.failurePolicy,
          launchableChildIDs r.group,[]⟩)) <+~ liveWorkers l := by
      split <;> exact hnil _ rfl
    dsimp only
    cases ht : r.target with
    | none => exact hlive.shrink hnext
    | some target =>
      exact ⟨hlive.sub hnext fun p _ h =>
        h.group hs hok (.recover identity r target hr ht : ChildOperation (fun _ => true) _ _ _ _ _) _,
        hlive.shrink (hnil _ rfl)⟩

theorem launchAct_live {launch : Launch} {p : PendingLaunch} (hk : l.calls[k]? = some c)
    (hid : c.identity = launch.identity) (hworkers : c.workers = launch.workers)
    (hp : HoldOk e launch p) : ChildLive i e (launchAct i k e l launch p) := by
  have hret : liveWorkers (l.set k (.returned launch.identity launch.workers)) <+~ liveWorkers l :=
    liveWorkers_set hk _ hid.symm hworkers.symm
  unfold launchAct
  dsimp only
  cases ht : persistChildGroups e (p.put launch.identity (startChild i p.child)).groups with
  | error err => exact hlive.shrink hret
  | ok target =>
    have hop : ChildOperation (fun _ => true) i e launch.identity (.launch p.child.spec.id) target :=
      .run launch.identity p target hp.groups hp.group hp.child hp.queued hp.asked ht
    rw [PendingLaunch.put,hp.groups] at ht
    have htarget : target = e.putGroup launch.identity (p.group.setChild (startChild i p.child)) :=
      (persistChildGroups_eq_ok.mp ht).2
    have hne : ∀ q ∈ liveWorkers l, q.1 = launch.identity → q.2.childID ≠ p.child.spec.id := by
      intro q hq heq
      exact (hlive.live e rfl q hq).ne hs (heq ▸ hp.group) hp.child (by rw [hp.queued]; simp)
    refine ⟨?_,hlive.shrink hret⟩
    generalize hinv : invocationOf (p.put launch.identity (startChild i p.child)).group
      (p.put launch.identity (startChild i p.child)).child = inv
    have hchild : inv.childID = p.child.spec.id := by rw [← hinv]; rfl
    have hissue : liveWorkers (l.set k (.launching { launch with
        workers := launch.workers ++ [⟨inv,.spawned⟩] })) <+~ (launch.identity,inv) :: liveWorkers l := by
      refine flatMap_set_cons hk ?_
      rw [← liveOf_of_workers c (.launching launch) hid.symm hworkers.symm]
      simp only [liveOf,RunCall.workers,RunCall.identity,List.filter_append,List.map_append]
      exact (List.perm_append_singleton _ _).subperm
    have hnodup : (((launch.identity,inv) :: liveWorkers l).map fun q => (q.1,q.2.childID)).Nodup := by
      rw [List.map_cons,List.nodup_cons]
      refine ⟨fun hmem => ?_,hlive.distinct⟩
      obtain ⟨q,hq,heq⟩ := List.mem_map.mp hmem
      simp only [Prod.mk.injEq] at heq
      exact hne q hq heq.1 (heq.2.trans hchild)
    refine ⟨(fun h => by cases h),?_,nodup_map_of_subperm hissue hnodup⟩
    rintro _ ⟨⟩ q hq
    rcases List.mem_cons.mp (hissue.subset hq) with rfl | hq
    · -- the child that this commit has started
      have hd := (hs _ _ hp.group).distinct
      obtain ⟨pre,post,-,hset⟩ := setChild_split hd hp.child (show (startChild i p.child).spec.id = _ from rfl)
      refine ⟨(p.group.setChild (startChild i p.child)).reread,(startChild i p.child).reread,?_,?_,?_,?_⟩
      · rw [htarget]
        change (e.putGroup _ _).children.get? launch.identity = _
        rw [hs.get?_putGroup,if_pos rfl]
      · exact List.mem_map_of_mem (by rw [hset]; simp)
      · exact hchild.symm
      · have hrev := ((hok _ _ hp.group).launches p.child hp.child).2 hp.queued
        rw [matches_reread,← hinv]
        simp [childInvocationMatches,startChild,invocationOf,PendingLaunch.put,hrev,maxRevision]
    · exact (hlive.live e rfl q hq).child hs hop (.inr rfl) (hne q hq) _

theorem beginAct_live {limit : Int} {policy : ChildFailurePolicy} {id : Text} {ids : List Text}
    {workers : List Worker} (hl : LaunchesOk (some e) l)
    (hk : l.calls[k]? = some (.launching ⟨identity,limit,policy,id :: ids,workers⟩))
    (hroom : (workers.length : Int) < limit) :
    ChildLive i e (beginAct i k e l ⟨identity,limit,policy,ids,workers⟩ id) := by
  have hsame : ∀ c', c'.identity = identity → c'.workers = workers →
      (l.calls.set k c').flatMap liveOf <+~ liveWorkers l := fun c' h1 h2 => liveWorkers_set hk c' h1 h2
  unfold beginAct
  cases hb : beginChild e identity id with
  | error err => exact hlive.shrink (hsame _ rfl rfl)
  | ok p =>
    obtain ⟨-,-,hg,hc,hid,-⟩ := beginChild_eq_ok hb
    dsimp only
    split
    · rename_i hplanned
      cases ht : persistChildGroups e (p.put identity (queueChild p.child)).groups with
      | error err => exact hlive.shrink (hsame _ rfl rfl)
      | ok target =>
        have hop : ChildOperation (fun _ => true) i e identity (.child id) target :=
          .queue identity id p target hb hplanned ht
        refine ⟨hlive.sub (hsame _ rfl rfl) fun q hq h => h.child hs hop (.inl rfl) (fun heq => ?_) _,
          hlive.shrink (hsame _ rfl rfl)⟩
        rw [← hid]
        exact h.ne hs (heq ▸ hg) hc (by rw [hplanned]; simp)
    · rename_i hplanned
      have hok' : LaunchOk e ⟨identity,limit,policy,id :: ids,workers⟩ := hl.ok e rfl k _ hk
      exact launchAct_live hs hok hlive hk rfl rfl (hok'.holdOk hb hroom hplanned)

omit hok in
theorem finishWorkerAct_live (hk : l.calls[k]? = some c) (hw : c.workers[w]? = some x)
    (hx : x.phase = .spawned ∨ x.phase = .dispatching) (result : ChildResult) :
    ChildLive i e (finishWorkerAct i k w e l c x result) := by
  have hgone : ∀ phase, phase = .succeeded ∨ phase = .failed →
      (c.identity,x.invocation) :: liveWorkers (l.setWorker k w c x phase) <+~ liveWorkers l :=
    fun phase hp => cons_flatMap_set hk (liveOf_end hw hx hp)
  have hless : ∀ phase, phase = .succeeded ∨ phase = .failed →
      liveWorkers (l.setWorker k w c x phase) <+~ liveWorkers l := fun phase hp =>
    (List.sublist_cons_self _ _).subperm.trans (hgone phase hp)
  unfold finishWorkerAct
  cases hf : finishChild i e c.identity x.invocation result with
  | error err => exact hlive.shrink (hless _ (.inr rfl))
  | ok target =>
    have hop : ChildOperation (fun _ => true) i e _ _ target := .finish _ _ _ _ hf
    have hphase : (if result.state = .unknown then WorkerPhase.failed else .succeeded) = .succeeded ∨
        (if result.state = .unknown then WorkerPhase.failed else .succeeded) = .failed := by
      split
      · exact .inr rfl
      · exact .inl rfl
    refine ⟨hlive.sub (hless _ hphase) fun q hq h => h.child hs hop (.inl rfl) (fun heq hid => ?_) _,
      hlive.shrink (hless _ (.inr rfl))⟩
    have hn := nodup_map_of_subperm (hgone _ hphase) hlive.distinct
    rw [List.map_cons,List.nodup_cons] at hn
    exact hn.1 (List.mem_map.mpr ⟨q,hq,by rw [heq,hid]⟩)

omit hs hok hlive in
theorem returnChildBudget_settled {expected g : ChildGroupRecord} {claim : ChildBudgetReturn} {now : Time}
    (h : returnChildBudget i e expected claim now = .ok (g,some t)) :
    ∃ g0 child, e.children.get? expected.identity = some g0 ∧ child ∈ g0.children ∧
      child.spec.id = claim.childID ∧ settledChild child = true := by
  obtain ⟨-,-,-,group,child,returned,hg,-,hchild,-,hret,-⟩ := returnChildBudget_some_iff.mp h
  exact ⟨group,child,(assertedChildGroup_eq_ok hg).1,child?_mem hchild,child?_id hchild,
    (computeChildBudgetReturn_eq_ok hret).settled⟩

theorem mutateAct_live {mutation : ChildMutation} (hclock : mutation.clocked clock = true) {use : SessionUse} :
    ChildLive i e (resultAct (mutationTarget i e mutation) { l with use := use }) := by
  have hkeep : LiveOk i (some e) { l with use := use } := hlive.shrink (.refl _)
  -- nobody but the running worker waits for a child that the mutation touches
  have hcommit : ∀ t, mutationTarget i e mutation = .ok (some t) → ∀ p ∈ liveWorkers l, Live i e p →
      Live i { t with revision := e.revision + 1 } p := by
    intro t ht p hp h
    cases mutation with
    | join expected merge =>
      obtain ⟨⟨result,-⟩,hr,rfl⟩ := map_eq_ok.mp ht
      exact h.group hs hok (.join expected merge result t hr : ChildOperation clock _ _ _ _ _) _
    | cancel expected request now =>
      obtain ⟨⟨g,-⟩,hr,rfl⟩ := map_eq_ok.mp ht
      exact h.group hs hok (.cancel expected g request now t hclock hr) _
    | credit expected claim now =>
      obtain ⟨⟨g,-⟩,hr,rfl⟩ := map_eq_ok.mp ht
      obtain ⟨g0,child,hg0,hc,hid,hset⟩ := returnChildBudget_settled hr
      refine h.child hs (.credit expected g claim now t hclock hr) (.inl rfl) (fun heq => ?_) _
      rw [← hid]
      exact h.ne hs (heq ▸ hg0) hc (not_launchable_of_settled hset).2
  cases hr : mutationTarget i e mutation with
  | error err => exact hkeep
  | ok target =>
    cases target with
    | none => exact hkeep
    | some target => exact ⟨hlive.sub (.refl _) (hcommit target hr),hkeep⟩

theorem childAct_live (hl : LaunchesOk (some e) l) {a : ChildAction J W} {act : ChildAct J W}
    (h : childAct clock a i (some e) l = some act) : ChildLive i e act := by
  cases a with
  | prepare plan available =>
    simp only [childAct,Option.ite_none_right_eq_some,Option.some.injEq] at h
    obtain ⟨-,rfl⟩ := h
    exact prepareAct_live hs hok hlive plan available
  | recover k =>
    simp only [childAct] at h
    split at h
    · rename_i identity hk
      simp only [Option.ite_none_right_eq_some,Option.some.injEq] at h
      obtain ⟨-,rfl⟩ := h
      exact recoverAct_live hs hok hlive hk
    · cases h
  | begin k =>
    simp only [childAct] at h
    split at h
    · rename_i identity limit policy id ids workers hk
      simp only [Option.ite_none_right_eq_some,Option.some.injEq] at h
      obtain ⟨⟨-,hroom⟩,rfl⟩ := h
      exact beginAct_live hs hok hlive hl hk hroom
    · cases h
  | run k =>
    simp only [childAct] at h
    split at h
    · rename_i launch p hk
      cases h
      exact launchAct_live hs hok hlive hk rfl rfl (hl.ok e rfl k _ hk)
    · cases h
  | stop k =>
    simp only [childAct] at h
    split at h
    · rename_i identity hk
      cases h
      exact hlive.shrink (liveWorkers_set hk _ rfl rfl)
    · rename_i launch hk
      cases h
      exact hlive.shrink (liveWorkers_set hk _ rfl rfl)
    · cases h
  | receive k w =>
    simp only [childAct] at h
    split at h
    · rename_i launch hk
      split at h
      · cases h
        exact hlive.shrink (flatMap_set hk (liveOf_receive launch w true))
      · cases h
        exact hlive.shrink (flatMap_set hk (liveOf_receive launch w false))
      · cases h
    · cases h
  | dispatch k w =>
    simp only [childAct] at h
    split at h
    · rename_i c hk
      split at h
      · rename_i invocation hw
        cases h
        refine hlive.shrink (flatMap_set hk ?_)
        rw [liveOf_dispatch hw rfl]
      · cases h
    · cases h
  | skip k w err =>
    simp only [childAct] at h
    split at h
    · rename_i c hk
      split at h
      · rename_i invocation hw
        simp only [Option.ite_none_right_eq_some,Option.some.injEq] at h
        obtain ⟨-,rfl⟩ := h
        exact finishWorkerAct_live hs hlive hk hw (.inl rfl) _
      · cases h
    · cases h
  | finish k w result dispatchErr =>
    simp only [childAct] at h
    split at h
    · rename_i c hk
      split at h
      · rename_i invocation hw
        simp only [Option.ite_none_right_eq_some,Option.some.injEq] at h
        obtain ⟨-,rfl⟩ := h
        exact finishWorkerAct_live hs hlive hk hw (.inr rfl) _
      · cases h
    · cases h
  | mutate mutation =>
    simp only [childAct,Option.ite_none_right_eq_some,Option.some.injEq] at h
    obtain ⟨⟨-,-,hclock⟩,rfl⟩ := h
    exact mutateAct_live hs hok hlive hclock
  | decide decision =>
    simp only [childAct,Option.ite_none_right_eq_some,Option.some.injEq] at h
    obtain ⟨⟨huse,-⟩,rfl⟩ := h
    -- the session of a decision has no workers
    have hnil : ∀ cache : Option (ExecutionEnvelope J ChildGroups W),
        LiveOk i cache { l with use := .resolution } := by
      have hcalls : liveWorkers { l with use := .resolution } = [] := by
        rw [liveWorkers,(hl.idle huse).2]
        rfl
      refine fun cache => ⟨fun _ => hcalls,fun e' _ p hp => ?_,?_⟩
      · rw [hcalls] at hp
        cases hp
      · rw [hcalls]
        exact List.nodup_nil
    cases decisionTarget i e decision with
    | error err => exact hnil _
    | ok target =>
      cases target with
      | none => exact hnil _
      | some target => exact ⟨hnil _,hnil _⟩
  | other target =>
    simp only [childAct] at h
    split at h
    · rename_i hguard
      cases h
      refine ⟨hlive.sub (.refl _) fun p _ hp => ?_,hlive⟩
      obtain ⟨g,c,hg,hrest⟩ := hp
      exact ⟨g,c,by rw [← hg]; exact congrArg (·.get? p.1) (keepsChildGroups_children hguard.2),hrest⟩
    · cases h

end Acts
end Sessions
end Flowy
