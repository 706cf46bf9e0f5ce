import Flowy.Child.History

/-! Fail-fast groups: no child is launched once one has failed, provided a launch loop does not start
another child between the commit of a failure and the completion that reports it. -/
namespace Flowy

open Fencing
open scoped List

/-- A committed failure that stops a fail-fast group, unless its cancellation does. -/
def stalledGroup (g : ChildGroupRecord) : Bool :=
  g.plan.failurePolicy == .failFast && (g.children.any fun c => c.state == .failed) && !g.cancelRequested

def StartsNothing (g g' : ChildGroupRecord) : Prop :=
  List.Forall₂ (fun c c' => launchable c = true → c'.state ≠ .running) g.children g'.children

def FailsNothing (g g' : ChildGroupRecord) : Prop :=
  List.Forall₂ (fun c c' => c'.state = .failed → c.state = .failed) g.children g'.children

section Groups

variable {J W : Type} {clock : Time → Bool} {i : Nat} {e t : ExecutionEnvelope J ChildGroups W}
  {g g' : ChildGroupRecord} {a : EditScope}

theorem not_running_of_launchable {c : ChildRecord} (h : launchable c = true) : c.state ≠ .running := by
  intro hs
  simp [launchable,hs] at h

theorem StartsNothing.refl (g : ChildGroupRecord) : StartsNothing g g :=
  List.forall₂_same.mpr fun _ _ => not_running_of_launchable

theorem FailsNothing.refl (g : ChildGroupRecord) : FailsNothing g g :=
  List.forall₂_same.mpr fun _ _ => id

theorem StartsNothing.reread (h : StartsNothing g g') : StartsNothing g g'.reread := by
  rw [StartsNothing,ChildGroupRecord.reread,List.forall₂_map_right_iff]
  exact h

theorem FailsNothing.reread (h : FailsNothing g g') : FailsNothing g g'.reread := by
  rw [FailsNothing,ChildGroupRecord.reread,List.forall₂_map_right_iff]
  exact h

theorem stalledGroup_eq_false (hadv : GroupAdvance g g') (hf : FailsNothing g g')
    (h : stalledGroup g = false) : stalledGroup g' = false := by
  by_contra hstalled
  rw [Bool.not_eq_false] at hstalled
  simp only [stalledGroup,Bool.and_eq_true,Bool.not_eq_true',List.any_eq_true,beq_iff_eq] at hstalled
  obtain ⟨⟨hpolicy,c',hc',hfailed⟩,hcancel⟩ := hstalled
  obtain ⟨c,hc,hcc⟩ := forall₂_mem_right hf hc'
  have hcancel' : g.cancelRequested = false := by
    by_contra hg
    rw [Bool.not_eq_false] at hg
    rw [hadv.requested hg] at hcancel
    cases hcancel
  have hany : (g.children.any fun c => c.state == .failed) = true :=
    List.any_eq_true.mpr ⟨c,hc,beq_iff_eq.mpr (hcc hfailed)⟩
  rw [hadv.plan] at hpolicy
  simp [stalledGroup,hpolicy,hany,hcancel'] at h

variable [Sha256]

theorem GroupEdit.startsNothing (hd : (g.children.map fun c => c.spec.id).Nodup)
    (h : GroupEdit clock i e g a g') (ha : ∀ id, a ≠ .launch id) : StartsNothing g g' := by
  have hset : ∀ {c c' : ChildRecord}, c ∈ g.children → c'.spec.id = c.spec.id → c'.state ≠ .running →
      StartsNothing g (g.setChild c') := fun hc hid hn =>
    forall₂_setChild hd hc hid (fun _ _ _ => not_running_of_launchable) fun _ => hn
  cases h with
  | queue c hc hg hs => exact hset hc rfl (by simp [queueChild])
  | start c hc hg hs => exact absurd rfl (ha c.spec.id)
  | recover children hr h =>
    refine h.imp fun c c' hc hl => ?_
    rcases recoverChild_eq_ok hc with ⟨hn,rfl⟩ | ⟨-,-,rfl⟩
    · exact hn
    · simp
  | finish c hc result hs hi hr hv => exact hset hc rfl (not_launchable_of_result hr).2
  | join result hm hs => exact .refl g
  | cancel request now children hnow hcheck hm hnone h =>
    refine h.imp fun c c' hc hl => ?_
    rcases requestChildCancel_eq_ok hc with ⟨-,rfl⟩ | ⟨-,-,rfl⟩ | ⟨-,hn,-⟩
    · exact not_running_of_launchable hl
    · simp
    · rw [hl] at hn
      cases hn
  | credit claim c returned now hnow hcheck hnone hc hrev hret => exact .refl g
  | decide c c' hc hm h hv =>
    exact hset hc (congrArg ChildSpec.id h.advance.spec) (not_launchable_of_settled h.settles.2).2

theorem GroupEdit.failsNothing (hd : (g.children.map fun c => c.spec.id).Nodup)
    (h : GroupEdit clock i e g a g') (ha : ∀ id, a ≠ .child id) : FailsNothing g g' := by
  cases h with
  | start c hc hg hs =>
    exact forall₂_setChild hd hc rfl (fun _ _ _ => id) fun hf => by simp [startChild] at hf
  | recover children hr h =>
    refine h.imp fun c c' hc hf => ?_
    rcases recoverChild_eq_ok hc with ⟨-,rfl⟩ | ⟨-,-,rfl⟩
    · exact hf
    · cases hf
  | join result hm hs => exact .refl g
  | cancel request now children hnow hcheck hm hnone h =>
    refine h.imp fun c c' hc hf => ?_
    rcases requestChildCancel_eq_ok hc with ⟨-,rfl⟩ | ⟨-,-,rfl⟩ | ⟨-,-,rfl⟩
    · exact hf
    · cases hf
    · exact hf
  | queue c hc hg hs => exact absurd rfl (ha c.spec.id)
  | finish c hc result hs hi hr hv => exact absurd rfl (ha c.spec.id)
  | credit claim c returned now hnow hcheck hnone hc hrev hret => exact absurd rfl (ha claim.childID)
  | decide c c' hc hm h hv => exact absurd rfl (ha c.spec.id)

theorem returnChildBudget_children {expected : ChildGroupRecord} {claim : ChildBudgetReturn} {now : Time}
    (h : returnChildBudget i e expected claim now = .ok (g,some t)) :
    ∃ g0 g', e.children.get? expected.identity = some g0 ∧ t = e.putGroup expected.identity g' ∧
      g'.children = g0.children := by
  obtain ⟨-,-,-,group,child,returned,hg,-,-,-,-,rfl,-,rfl⟩ := returnChildBudget_some_iff.mp h
  exact ⟨group,_,(assertedChildGroup_eq_ok hg).1,rfl,rfl⟩

end Groups

section Loops

variable {J W : Type} {e e' : ExecutionEnvelope J ChildGroups W} {l : Launches} {k : Nat} {calls : List RunCall}

/-- A loop with nothing to receive either works on a group that is not stalled, or launches nothing
more. -/
def AdmitOk (e : ExecutionEnvelope J ChildGroups W) (launch : Launch) : Prop :=
  launch.ids = [] ∨ ∃ g, e.children.get? launch.identity = some g ∧
    launch.failurePolicy = g.plan.failurePolicy ∧ (launch.workers ≠ [] ∨
      (∃ id ids, launch.ids = id :: ids ∧ id ∉ launchableChildIDs g) ∨ stalledGroup g = false)

def CallFast (e : ExecutionEnvelope J ChildGroups W) : RunCall → Prop
  | .prepared _ | .returned _ _ => True
  | .launching launch => AdmitOk e launch
  | .holding launch p => launch.failurePolicy = p.group.plan.failurePolicy ∧ stalledGroup p.group = false

def FastCalls (e : ExecutionEnvelope J ChildGroups W) (calls : List RunCall) : Prop :=
  ∀ (k : Nat) c, calls[k]? = some c → CallFast e c

def CalmCommit (e e' : ExecutionEnvelope J ChildGroups W) : Prop :=
  ∀ identity g, e.children.get? identity = some g → ∃ g', e'.children.get? identity = some g' ∧
    LaunchQuiet g g' ∧ (stalledGroup g = false → stalledGroup g' = false)

theorem CallFast.calm {c : RunCall} (h : CallFast e c) (hq : CalmCommit e e')
    (hc : ∀ launch p, c ≠ .holding launch p) : CallFast e' c := by
  cases c with
  | prepared | returned => trivial
  | holding launch p => exact absurd rfl (hc launch p)
  | launching launch =>
    rcases h with hnil | ⟨g,hg,hpolicy,h⟩
    · exact .inl hnil
    · obtain ⟨g',hg',hquiet,hstalled⟩ := hq _ g hg
      refine .inr ⟨g',hg',by rw [hpolicy,hquiet.plan],?_⟩
      rcases h with hworkers | ⟨id,ids,hids,hgone⟩ | h
      · exact .inl hworkers
      · exact .inr (.inl ⟨id,ids,hids,fun hid => hgone (hquiet.sub id hid)⟩)
      · exact .inr (.inr (hstalled h))

theorem FastCalls.set (h : FastCalls e l.calls) (hq : CalmCommit e e') (hk : OnlyHolds l k) {c : RunCall}
    (hc : CallFast e' c) : FastCalls e' (l.calls.set k c) := by
  intro j d hd
  rcases getElem?_set_eq_some hd with ⟨-,rfl⟩ | ⟨hj,hd⟩
  · exact hc
  · refine (h j d hd).calm hq fun launch p heq => hj ?_
    subst heq
    exact hk j launch p hd

theorem FastCalls.move (h : FastCalls e calls) {c : RunCall} (hc : CallFast e c) :
    FastCalls e (calls.set k c) := by
  intro j d hd
  rcases getElem?_set_eq_some hd with ⟨-,rfl⟩ | ⟨-,hd⟩
  · exact hc
  · exact h j d hd

theorem FastCalls.keep {cache : Option (ExecutionEnvelope J ChildGroups W)} (h : FastCalls e l.calls)
    (hq : CalmCommit e e') (hl : LaunchesOk cache l) (hlock : l.lock = none) : FastCalls e' l.calls := by
  intro j d hd
  refine (h j d hd).calm hq fun launch p heq => ?_
  subst heq
  have := hl.mutex j launch p hd
  rw [hlock] at this
  cases this

theorem FastCalls.append (h : FastCalls e calls) (identity : Text) :
    FastCalls e (calls ++ [.prepared identity]) := by
  intro j d hd
  rw [List.getElem?_append] at hd
  split at hd
  · exact h j d hd
  · rw [List.mem_singleton.mp (List.mem_of_getElem? hd)]
    trivial

theorem CallFast.setWorkers {c : RunCall} (h : CallFast e c) {workers : List Worker}
    (hw : workers.length = c.workers.length) : CallFast e (c.setWorkers workers) := by
  cases c with
  | prepared | returned => trivial
  | holding launch p => exact h
  | launching launch =>
    rcases h with hnil | ⟨g,hg,hpolicy,h⟩
    · exact .inl hnil
    · refine .inr ⟨g,hg,hpolicy,h.imp (fun hworkers hnil => hworkers ?_) id⟩
      have hnil : workers = [] := hnil
      rw [hnil] at hw
      exact List.length_eq_zero_iff.mp hw.symm

theorem receiveCompletion_fast {launch : Launch} (h : AdmitOk e launch) (w : Nat) (ok : Bool) :
    CallFast e (receiveCompletion e launch w ok) := by
  unfold receiveCompletion
  dsimp only
  split
  · trivial
  · rename_i hgo
    simp only [Bool.or_eq_true,not_or,Bool.and_eq_true,beq_iff_eq,not_and,Bool.not_eq_true] at hgo
    rcases h with hnil | ⟨g,hg,hpolicy,h⟩
    · exact .inl hnil
    · refine .inr ⟨g,hg,hpolicy,.inr (.inr ?_)⟩
      by_contra hstalled
      rw [Bool.not_eq_false] at hstalled
      simp only [stalledGroup,Bool.and_eq_true,beq_iff_eq] at hstalled
      have hfree := hgo.2 (hpolicy.trans hstalled.1.1)
      rw [childGroupHasFailure,hg,Option.getD_some,hstalled.1.2] at hfree
      cases hfree

end Loops

section Commits

variable {J W : Type} [Sha256] {clock : Time → Bool} {i : Nat} {e t : ExecutionEnvelope J ChildGroups W}
  {g g' : ChildGroupRecord} {a : EditScope} {identity : Text}

def AdmitsNothing (e e' : ExecutionEnvelope J ChildGroups W) : Prop :=
  ∀ identity g, e.children.get? identity = some g → ∃ g', e'.children.get? identity = some g' ∧
    (stalledGroup g = true → StartsNothing g g')

theorem ChildOperation.admitsNothing (hs : SoundGroups e) (h : ChildOperation clock i e identity a t)
    (ha : ∀ id, a ≠ .launch id) : AdmitsNothing e t :=
  h.commit.rel hs (fun g _ => .refl g) fun _ _ hg hedit _ =>
    (hedit.startsNothing (hs _ _ hg).distinct ha).reread

theorem CalmCommit.put (hs : SoundGroups e) (hg : e.children.get? identity = some g)
    (hq : LaunchQuiet g g') (hadv : GroupAdvance g g') (hf : FailsNothing g g') :
    CalmCommit e (e.putGroup identity g') :=
  hs.rel_put (fun g => ⟨.refl g,id⟩) hg ⟨hq.reread,
    stalledGroup_eq_false (hadv.reread (hs _ _ hg).reread) hf.reread⟩

theorem ChildOperation.calm (hs : SoundGroups e) (h : ChildOperation clock i e identity .group t) :
    CalmCommit e t := by
  refine h.commit.rel hs (fun g => ⟨.refl g,id⟩) fun g g' hg hedit => ?_
  have hd := (hs _ _ hg).distinct
  exact ⟨(hedit.quiet hd (by simp)).1.reread,stalledGroup_eq_false
    ((hedit.advance hd).reread (hs _ _ hg).reread) (hedit.failsNothing hd (by simp)).reread⟩

omit [Sha256] in
theorem not_stalled_of_not_pending (h : g.children.any (pendingChild g) = false) :
    stalledGroup g = false := by
  rw [List.any_eq_false] at h
  by_contra hstalled
  rw [Bool.not_eq_false] at hstalled
  simp only [stalledGroup,Bool.and_eq_true,Bool.not_eq_true',List.any_eq_true,beq_iff_eq] at hstalled
  obtain ⟨⟨hpolicy,c,hc,hfailed⟩,hcancel⟩ := hstalled
  exact h c hc (by simp [pendingChild,hpolicy,hfailed,hcancel])

theorem recoverChildLaunches_not_stalled {r : RecoveredGroup J W}
    (h : recoverChildLaunches i e identity = .ok r) (hp : r.pending = false)
    (hg : e.children.get? identity = some g) : stalledGroup g = false := by
  simp only [recoverChildLaunches,bind_eq_ok] at h
  obtain ⟨groups,hgroups,children,-,h⟩ := h
  obtain ⟨rfl,-⟩ := executionChildGroups_eq_ok hgroups
  rw [hg,Option.getD_some] at h
  apply not_stalled_of_not_pending
  split at h
  · simp only [bind_eq_ok] at h
    obtain ⟨target,-,h⟩ := h
    cases h
    exact hp
  · cases h
    exact hp

end Commits

section Acts

variable {J W : Type} [Sha256] {clock : Time → Bool} {i k w : Nat} {e t : ExecutionEnvelope J ChildGroups W}
  {l : Launches} {c : RunCall} {x : Worker} {identity : Text}

/-- A launch loop begins a child only if it has no completion to receive or its group is not
stalled. -/
def awaitsFailures (a : ChildAction J W) (cache : Option (ExecutionEnvelope J ChildGroups W))
    (l : Launches) : Bool :=
  match a, cache with
  | .begin k, some e =>
    match l.calls[k]? with
    | some (.launching launch) =>
      launch.workers.isEmpty || !stalledGroup ((e.children.get? launch.identity).getD .zero)
    | _ => true
  | _, _ => true

def ChildFast (e : ExecutionEnvelope J ChildGroups W) : ChildAct J W → Prop
  | .move l' _ => FastCalls e l'.calls
  | .commit t la lf _ => AdmitsNothing e t ∧ FastCalls t la.calls ∧ FastCalls e lf.calls

variable (hs : SoundGroups e) (hl : LaunchesOk (some e) l) (hfast : FastCalls e l.calls)

include hs hl hfast

theorem prepareAct_fast (hlock : l.lock = none) (plan : ChildGroupPlan) (available : Counters) :
    ChildFast e (prepareAct e l plan available) := by
  unfold prepareAct
  cases hp : prepareChildren e plan available with
  | error err => exact hfast
  | ok r =>
    obtain ⟨g,target⟩ := r
    cases target with
    | none => exact hfast.append _
    | some target =>
      have hop : ChildOperation (fun _ => true) 0 e g.identity .group target :=
        .prepare plan available g target hp
      exact ⟨hop.admitsNothing hs (by simp),(hfast.keep (hop.calm hs) hl hlock).append _,hfast⟩

theorem recoverAct_fast (hlock : l.lock = none) : ChildFast e (recoverAct i k e l identity) := by
  have hh := hl.onlyHolds_of_free hlock k
  have hret : FastCalls e (l.set k (.returned identity [])).calls := hfast.move trivial
  unfold recoverAct
  cases hr : recoverChildLaunches i e identity with
  | error err => exact hret
  | ok r =>
    obtain ⟨-,-,hsame,hpend⟩ := recoverChildLaunches_eq_ok (fun _ => true) hr
    dsimp only
    cases hp : r.pending with
    | true =>
      rw [if_pos rfl]
      cases ht : r.target with
      | none => exact hret
      | some target =>
        have hop : ChildOperation (fun _ => true) i e identity .group target := .recover identity r target hr ht
        exact ⟨hop.admitsNothing hs (by simp),hfast.set (hop.calm hs) hh trivial,hret⟩
    | false =>
      obtain ⟨hnone,-⟩ := hpend hp
      have hgroup := hsame hnone
      rw [hnone,if_neg (by simp)]
      refine hfast.move ?_
      cases hg : e.children.get? identity with
      | none =>
        left
        simp [hgroup,hg,launchableChildIDs,ChildGroupRecord.zero]
      | some g =>
        rw [hg] at hgroup
        exact .inr ⟨g,hg,by rw [hgroup]; rfl,.inr (.inr (recoverChildLaunches_not_stalled hr hp hg))⟩

omit hl in
theorem launchAct_fast {launch : Launch} {p : PendingLaunch} (hh : OnlyHolds l k) (hp : HoldOk e launch p)
    (hpolicy : launch.failurePolicy = p.group.plan.failurePolicy) (hstalled : stalledGroup p.group = false) :
    ChildFast e (launchAct i k e l launch p) := by
  unfold launchAct
  dsimp only
  cases ht : persistChildGroups e (p.put launch.identity (startChild i p.child)).groups with
  | error err => exact hfast.move trivial
  | ok target =>
    have hd := (hs _ _ hp.group).distinct
    have hedit : GroupEdit (fun _ => true) i e p.group (.launch p.child.spec.id)
        (p.group.setChild (startChild i p.child)) := .start p.child hp.child hp.asked hp.queued
    have hquiet : LaunchQuiet p.group (p.group.setChild (startChild i p.child)) :=
      .start hd hp.child hp.asked (launchable_of_state (.inr hp.queued)) hp.synced
    rw [PendingLaunch.put,hp.groups] at ht
    obtain ⟨-,rfl⟩ := persistChildGroups_eq_ok.mp ht
    refine ⟨hs.rel_put (fun g _ => .refl g) hp.group fun h => ?_,hfast.set
      (.put hs hp.group hquiet (hedit.advance hd) (hedit.failsNothing hd (by simp))) hh ?_,hfast.move trivial⟩
    · rw [hstalled] at h
      cases h
    · refine .inr ⟨(p.group.setChild (startChild i p.child)).reread,?_,hpolicy,.inl (by simp)⟩
      exact (hs.get?_putGroup _ _ _).trans (if_pos rfl)

theorem beginAct_fast {limit : Int} {policy : ChildFailurePolicy} {id : Text} {ids : List Text}
    {workers : List Worker} (hk : l.calls[k]? = some (.launching ⟨identity,limit,policy,id :: ids,workers⟩))
    (hlock : l.lock = none) (hroom : (workers.length : Int) < limit)
    (hguard : awaitsFailures (.begin k : ChildAction J W) (some e) l = true) :
    ChildFast e (beginAct i k e l ⟨identity,limit,policy,ids,workers⟩ id) := by
  have hh := hl.onlyHolds_of_free hlock k
  unfold beginAct
  cases hb : beginChild e identity id with
  | error err => exact hfast.move trivial
  | ok p =>
    obtain ⟨-,hgroups,hg,hc,hid,hcancel,hlaunch⟩ := beginChild_eq_ok hb
    have hd := (hs _ _ hg).distinct
    have haccept : policy = p.group.plan.failurePolicy ∧ stalledGroup p.group = false := by
      simp only [awaitsFailures,hk,hg,Option.getD_some,Bool.or_eq_true,List.isEmpty_iff,
        Bool.not_eq_true'] at hguard
      rcases hfast k _ hk with hids | ⟨g,hg',hpolicy,h⟩
      · cases hids
      · rw [hg] at hg'
        cases hg'
        refine ⟨hpolicy,?_⟩
        rcases h with hworkers | ⟨id',ids',hids,hgone⟩ | h
        · exact hguard.resolve_left hworkers
        · cases hids
          exact absurd (beginChild_mem hb) hgone
        · exact h
    obtain ⟨hpolicy,hstalled⟩ := haccept
    dsimp only
    split
    · rename_i hplanned
      cases ht : persistChildGroups e (p.put identity (queueChild p.child)).groups with
      | error err => exact hfast.move trivial
      | ok target =>
        have hop : ChildOperation (fun _ => true) i e identity (.child id) target :=
          .queue identity id p target hb hplanned ht
        have hedit : GroupEdit (fun _ => true) i e p.group (.child p.child.spec.id)
            (p.group.setChild (queueChild p.child)) := .queue p.child hc hcancel hplanned
        have hf : FailsNothing p.group (p.group.setChild (queueChild p.child)) :=
          forall₂_setChild hd hc rfl (fun _ _ _ h => h) fun hf => by simp [queueChild] at hf
        have hadv := hedit.advance hd
        have hquiet := (hedit.quiet hd (by simp)).1
        rw [PendingLaunch.put,hgroups] at ht
        obtain ⟨-,rfl⟩ := persistChildGroups_eq_ok.mp ht
        exact ⟨hop.admitsNothing hs (by simp),hfast.set (.put hs hg hquiet hadv hf) hh
          ⟨hpolicy,stalledGroup_eq_false hadv hf hstalled⟩,hfast.move trivial⟩
    · rename_i hplanned
      have hok : LaunchOk e ⟨identity,limit,policy,id :: ids,workers⟩ := hl.ok e rfl k _ hk
      exact launchAct_fast hs hfast hh (hok.holdOk hb hroom hplanned) hpolicy hstalled

/-- A failure is committed while the worker that reports it is still to be received, and every other
loop of the group that is in step has workers of its own. -/
theorem finishWorkerAct_fast (hlock : l.lock = none) (hk : l.calls[k]? = some c)
    (hw : c.workers[w]? = some x) (result : ChildResult) :
    ChildFast e (finishWorkerAct i k w e l c x result) := by
  have hlen : ∀ phase, (c.workers.set w { x with phase := phase }).length = c.workers.length := by simp
  have hmove : ∀ phase, FastCalls e (l.setWorker k w c x phase).calls := fun phase =>
    hfast.move ((hfast k c hk).setWorkers (hlen phase))
  unfold finishWorkerAct
  cases hf : finishChild i e c.identity x.invocation result with
  | error err => exact hmove .failed
  | ok target =>
    have hop : ChildOperation (fun _ => true) i e _ _ target := .finish _ _ _ _ hf
    obtain ⟨-,g,child,hg,hc,-,hm,hr,-,-,rfl⟩ := finishChild_eq_ok hf
    have hrun := (childInvocationMatches_running hm).1
    have hd := (hs _ _ hg).distinct
    have hcount : 0 < runningChildren g := List.countP_pos_iff.mpr ⟨child,hc,by simp [hrun]⟩
    have hquiet := hop.quiet hs (by simp)
    refine ⟨hop.admitsNothing hs (by simp),?_,hmove .failed⟩
    generalize (if result.state = .unknown then WorkerPhase.failed else .succeeded) = phase
    intro j d hj
    have hfree : ∀ (j : Nat) launch p, l.calls[j]? ≠ some (.holding launch p) := fun j launch p hj => by
      have := hl.mutex j launch p hj
      rw [hlock] at this
      cases this
    -- a loop that still has a worker may go on, on whatever group it finds
    have hbusy : ∀ launch : Launch, ∀ workers, workers ≠ [] → AdmitOk e launch →
        AdmitOk (e.putGroup c.identity (g.setChild (settleChild child result)))
          { launch with workers := workers } := by
      intro launch workers hne h
      rcases h with hnil | ⟨g0,hg0,hpolicy,-⟩
      · exact .inl hnil
      · obtain ⟨g1,hg1,hq⟩ := hquiet _ g0 hg0
        exact .inr ⟨g1,hg1,hpolicy.trans (by rw [hq.plan]),.inl hne⟩
    rcases getElem?_set_eq_some hj with ⟨-,rfl⟩ | ⟨-,hj⟩
    · cases c with
      | prepared | returned => trivial
      | holding launch p => exact absurd hk (hfree k launch p)
      | launching launch =>
        refine hbusy launch _ (fun hnil => workers_ne_nil hw ?_) (hfast k _ hk)
        have hzero := hlen phase
        rw [hnil] at hzero
        exact List.length_eq_zero_iff.mp hzero.symm
    · cases d with
      | prepared | returned => trivial
      | holding launch p => exact absurd hj (hfree j launch p)
      | launching launch =>
        rcases hfast j _ hj with hnil | ⟨g0,hg0,hpolicy,h⟩
        · exact .inl hnil
        rcases h with hworkers | hgone | h
        · exact hbusy launch _ hworkers (hfast j _ hj)
        · obtain ⟨id,ids,hids,hgone⟩ := hgone
          obtain ⟨g1,hg1,hq⟩ := hquiet _ g0 hg0
          exact .inr ⟨g1,hg1,hpolicy.trans (by rw [hq.plan]),
            .inr (.inl ⟨id,ids,hids,fun hid => hgone (hq.sub id hid)⟩)⟩
        by_cases hsame : launch.identity = c.identity
        · -- a loop in step counts the running child among its own workers
          rcases hl.ok e rfl j _ hj with hnil | ⟨g1,hg1,-,⟨id,ids,hids,hgone⟩ | ⟨-,hle⟩⟩
          · exact .inl hnil
          · obtain ⟨g2,hg2,hq⟩ := hquiet _ g1 hg1
            rw [hg0] at hg1
            cases hg1
            exact .inr ⟨g2,hg2,hpolicy.trans (by rw [hq.plan]),
              .inr (.inl ⟨id,ids,hids,fun hid => hgone (hq.sub id hid)⟩)⟩
          · rw [hsame,hg] at hg1
            cases hg1
            refine hbusy launch _ (fun hnil => ?_) (hfast j _ hj)
            rw [hnil] at hle
            exact Nat.lt_irrefl 0 (hcount.trans_le hle)
        · refine .inr ⟨g0,?_,hpolicy,.inr (.inr h)⟩
          rw [hs.get?_putGroup,if_neg hsame]
          exact hg0

omit hl hfast in
theorem mutateAct_calm {mutation : ChildMutation} (hclock : mutation.clocked clock = true)
    (h : mutationTarget i e mutation = .ok (some t)) : CalmCommit e t := by
  cases mutation with
  | join expected merge =>
    obtain ⟨⟨result,-⟩,hr,rfl⟩ := map_eq_ok.mp h
    exact (.join expected merge result t hr : ChildOperation clock i e _ .group t).calm hs
  | cancel expected request now =>
    obtain ⟨⟨g,-⟩,hr,rfl⟩ := map_eq_ok.mp h
    exact (.cancel expected g request now t hclock hr : ChildOperation clock i e _ .group t).calm hs
  | credit expected claim now =>
    obtain ⟨⟨g,-⟩,hr,rfl⟩ := map_eq_ok.mp h
    have hop : ChildOperation clock i e _ (.child claim.childID) t := .credit expected g claim now t hclock hr
    obtain ⟨g0,g',hg0,rfl,hchildren⟩ := returnChildBudget_children hr
    have hf : FailsNothing g0 g' := by
      rw [FailsNothing,hchildren]
      exact FailsNothing.refl g0
    intro identity g1 hg1
    obtain ⟨g2,hg2,hquiet⟩ := hop.quiet hs (by simp) identity g1 hg1
    obtain ⟨g3,hg3,hadv⟩ := hop.advance hs identity g1 hg1
    obtain ⟨g4,hg4,hfails⟩ := hs.rel_put FailsNothing.refl hg0 hf.reread identity g1 hg1
    rw [hg2] at hg3 hg4
    cases hg3
    cases hg4
    exact ⟨g2,hg2,hquiet,stalledGroup_eq_false hadv hfails⟩

theorem childAct_fast {a : ChildAction J W} {act : ChildAct J W}
    (hguard : awaitsFailures a (some e) l = true) (h : childAct clock a i (some e) l = some act) :
    ChildFast e act := by
  cases a with
  | prepare plan available =>
    simp only [childAct,Option.ite_none_right_eq_some,Option.some.injEq] at h
    obtain ⟨⟨hlock,-⟩,rfl⟩ := h
    exact prepareAct_fast hs hl hfast hlock plan available
  | recover k =>
    simp only [childAct] at h
    split at h
    · simp only [Option.ite_none_right_eq_some,Option.some.injEq] at h
      obtain ⟨hlock,rfl⟩ := h
      exact recoverAct_fast hs hl hfast hlock
    · cases h
  | begin k =>
    simp only [childAct] at h
    split at h
    · rename_i identity limit policy id ids workers hk
      simp only [Option.ite_none_right_eq_some,Option.some.injEq] at h
      obtain ⟨⟨hlock,hroom⟩,rfl⟩ := h
      exact beginAct_fast hs hl hfast hk hlock hroom hguard
    · cases h
  | run k =>
    simp only [childAct] at h
    split at h
    · rename_i launch p hk
      cases h
      obtain ⟨hpolicy,hstalled⟩ := hfast k _ hk
      exact launchAct_fast hs hfast (hl.onlyHolds hk) (hl.ok e rfl k _ hk) hpolicy hstalled
    · cases h
  | stop k =>
    simp only [childAct] at h
    split at h
    · cases h
      exact hfast.move trivial
    · cases h
      exact hfast.move trivial
    · cases h
  | receive k w =>
    simp only [childAct] at h
    split at h
    · rename_i launch hk
      have hreceive : ∀ ok, FastCalls e (l.calls.set k (receiveCompletion e launch w ok)) := fun ok =>
        hfast.move (receiveCompletion_fast (hfast k _ hk) w ok)
      split at h
      · cases h
        exact hreceive true
      · cases h
        exact hreceive false
      · cases h
    · cases h
  | dispatch k w =>
    simp only [childAct] at h
    split at h
    · rename_i c hk
      split at h
      · rename_i invocation hw
        cases h
        exact hfast.move ((hfast k c hk).setWorkers (by simp))
      · cases h
    · cases h
  | skip k w err =>
    simp only [childAct] at h
    split at h
    · rename_i c hk
      split at h
      · rename_i invocation hw
        simp only [Option.ite_none_right_eq_some,Option.some.injEq] at h
        obtain ⟨hlock,rfl⟩ := h
        exact finishWorkerAct_fast hs hl hfast hlock hk hw _
      · cases h
    · cases h
  | finish k w result dispatchErr =>
    simp only [childAct] at h
    split at h
    · rename_i c hk
      split at h
      · rename_i invocation hw
        simp only [Option.ite_none_right_eq_some,Option.some.injEq] at h
        obtain ⟨hlock,rfl⟩ := h
        exact finishWorkerAct_fast hs hl hfast hlock hk hw _
      · cases h
    · cases h
  | mutate mutation =>
    simp only [childAct,Option.ite_none_right_eq_some,Option.some.injEq] at h
    obtain ⟨⟨hlock,-,hclock⟩,rfl⟩ := h
    cases hr : mutationTarget i e mutation with
    | error err => exact hfast
    | ok target =>
      cases target with
      | none => exact hfast
      | some target =>
        obtain ⟨identity,a,hop,ha⟩ := mutationTarget_operation hclock hr
        exact ⟨hop.admitsNothing hs ha,hfast.keep (mutateAct_calm hs hclock hr) hl hlock,hfast⟩
  | decide decision =>
    simp only [childAct,Option.ite_none_right_eq_some,Option.some.injEq] at h
    obtain ⟨⟨huse,-,hclock⟩,rfl⟩ := h
    have hnone : ∀ e' : ExecutionEnvelope J ChildGroups W, FastCalls e' l.calls := by
      intro e' j d hj
      simp [(hl.idle huse).2] at hj
    cases hr : decisionTarget i e decision with
    | error err => exact hfast
    | ok target =>
      cases target with
      | none => exact hfast
      | some target =>
        obtain ⟨identity,a,hop,ha⟩ := decisionTarget_operation hclock hr
        exact ⟨hop.admitsNothing hs ha,hnone target,hfast⟩
  | other target =>
    simp only [childAct] at h
    split at h
    · rename_i hguard
      obtain ⟨hlock,hkeep⟩ := hguard
      cases h
      have hsame := keepsChildGroups_children hkeep
      have hget : ∀ identity, target.children.get? identity = e.children.get? identity := by simp [hsame]
      exact ⟨fun identity g hg => ⟨g,(hget identity).trans hg,fun _ => .refl g⟩,
        hfast.keep (fun identity g hg => ⟨g,(hget identity).trans hg,.refl g,id⟩) hl hlock,hfast⟩
    · cases h

end Acts

section Runs

variable {J W : Type} [Sha256] {clock : Time → Bool}

structure FastSession (i : Nat) (cache : Option (ExecutionEnvelope J ChildGroups W)) (l : Launches) :
    Prop extends ChildSession i cache l where
  fast : ∀ e, cache = some e → FastCalls e l.calls

/-- The child protocol with every launch loop under the guard. -/
abbrev failFastProtocol (J W : Type) (clock : Time → Bool) :
    Protocol (ExecutionEnvelope J ChildGroups W) Launches (ChildAction J W) (Ticket Text) :=
  (childProtocol J W clock).restrict awaitsFailures

theorem failFastRule : Rule (failFastProtocol J W clock) SoundGroups FastSession
    (fun cache e' => ChildLink clock cache e' ∧ ∀ e, cache = some e → AdmitsNothing e e') := by
  have hbase := (childRule : Rule (childProtocol J W clock) _ _ _).restrict awaitsFailures
  have hnone : ∀ {e : ExecutionEnvelope J ChildGroups W} {l : Launches}, l.calls = [] → FastCalls e l.calls := by
    intro e l hl k c hk
    simp [hl] at hk
  refine ⟨fun i hi => ⟨hbase.fresh i hi,by simp⟩,?_,?_,?_,fun e hR => hbase.first e hR.1,
    fun e e' hK hR => hbase.next e e' hK hR.1⟩
  · intro i l e hK hJ
    exact ⟨hbase.load i l e hK hJ.toChildSession,fun _ _ => hnone (hJ.launches.unloaded rfl)⟩
  · intro a i c l l' ev hK hJ hact
    refine ⟨hbase.move a i c l l' ev hK hJ.toChildSession hact,?_⟩
    rintro e rfl
    obtain ⟨hguard,hact⟩ := Protocol.restrict_act.mp hact
    exact childAct_fast (hK e rfl) hJ.launches (hJ.fast e rfl) hguard hact
  · intro a i c l la lf t ev hK hJ hact
    obtain ⟨hR,hacked,hfailed⟩ := hbase.commit a i c l la lf t ev hK hJ.toChildSession hact
    obtain ⟨hguard,hact⟩ := Protocol.restrict_act.mp hact
    cases c with
    | none =>
      obtain ⟨target,heq,-⟩ := childAct_none hact
      cases heq
      exact ⟨⟨hR,by simp⟩,⟨hacked,fun _ _ => hnone (hJ.launches.unloaded rfl)⟩,⟨hfailed,by simp⟩⟩
    | some e =>
      obtain ⟨hadmits,hfast,hlost⟩ := childAct_fast (hK e rfl) hJ.launches (hJ.fast e rfl) hguard hact
      refine ⟨⟨hR,?_⟩,⟨hacked,?_⟩,⟨hfailed,?_⟩⟩
      · rintro _ ⟨⟩
        exact hadmits
      · rintro _ ⟨⟩
        exact hfast
      · rintro _ ⟨⟩
        exact hlost

/-- Loops that launch one child at a time meet the guard in every run: they begin a child only when
they have no completion to receive. -/
theorem sequential_awaitsFailures {s : State (ExecutionEnvelope J ChildGroups W) Launches (Ticket Text)}
    (h : Reachable (childProtocol J W clock) s) {i : Nat} {e : ExecutionEnvelope J ChildGroups W}
    {l : Launches} (hx : s.session i = some ⟨some e,l⟩)
    (hone : ∀ identity g, e.children.get? identity = some g → g.plan.maxConcurrency = 1)
    {a : ChildAction J W} {act : ChildAct J W} (hact : childAct clock a i (some e) l = some act) :
    awaitsFailures a (some e) l = true := by
  cases a with
  | begin k =>
    simp only [childAct] at hact
    split at hact
    · rename_i identity limit policy id ids workers hk
      simp only [Option.ite_none_right_eq_some] at hact
      obtain ⟨⟨-,hroom⟩,-⟩ := hact
      have hok : LaunchOk e ⟨identity,limit,policy,id :: ids,workers⟩ :=
        ((childRule.reachable h).session i _ hx).launches.ok e rfl k _ hk
      rcases hok with hnil | ⟨g,hg,hlimit,-⟩
      · cases hnil
      · have hlimit : limit = 1 := hlimit.trans (hone _ g hg)
        have hworkers : workers = [] := List.eq_nil_of_length_eq_zero (by omega)
        simp [awaitsFailures,hk,hworkers]
    · cases hact
  | prepare | recover | run | stop | dispatch | finish | receive | skip | decide | mutate | other =>
    rfl

def failedAt (log : List (ExecutionEnvelope J ChildGroups W)) (n : Nat) (identity : Text) : Bool :=
  log[n]?.any fun e => (e.children.get? identity).any stalledGroup

def admittedAt (log : List (ExecutionEnvelope J ChildGroups W)) (m : Nat) (identity : Text) : Bool :=
  log[m]?.any fun e => log[m + 1]?.any fun e' => (e.children.get? identity).any fun g =>
    (e'.children.get? identity).any fun g' => g.children.any fun c => g'.children.any fun c' =>
      c'.spec.id == c.spec.id && launchable c && c'.state == .running

/-- In a run whose launch loops begin a child of a stalled group only when they have no completion to
receive, a committed failure stops the group. -/
theorem fail_fast_stops_admission {s : State (ExecutionEnvelope J ChildGroups W) Launches (Ticket Text)}
    (h : Reachable (failFastProtocol J W clock) s) {n m : Nat} {identity : Text} (hle : n ≤ m)
    (hfailed : failedAt s.log n identity = true) : admittedAt s.log m identity = false := by
  rw [← Bool.not_eq_true]
  intro hadmitted
  simp only [admittedAt,failedAt,stalledGroup,Option.any_eq_true,List.any_eq_true,Bool.and_eq_true,
    beq_iff_eq] at hadmitted hfailed
  obtain ⟨e1,h1,e2,h2,g1,hg1,g2,hg2,c1,hc1,c2,hc2,⟨hid,hlaunch⟩,hrun⟩ := hadmitted
  obtain ⟨e,hn,g,hg,⟨hpolicy,c,hc,hstate⟩,-⟩ := hfailed
  have hholds := failFastRule.reachable h
  obtain ⟨hlink,hadmits⟩ := hholds.linked.next h1 h2
  have hadmits := hadmits e1 rfl
  obtain ⟨g1',hg1',hadv⟩ := childGroups_keep h.of_restrict hle hn h1 identity g hg
  rw [hg1] at hg1'
  cases hg1'
  obtain ⟨g2',hg2',hadv2⟩ := hlink.advance identity g1 hg1
  rw [hg2] at hg2'
  cases hg2'
  -- the failed child is still there, so the group is stalled or its cancellation was requested
  have hany : (g1.children.any fun c => c.state == .failed) = true := by
    obtain ⟨c',hc',hcc⟩ := forall₂_mem_left hadv.children hc
    have heq := hcc.frozen (by simp [settledChild,hstate])
    exact List.any_eq_true.mpr ⟨c',hc',by simp [heq,hstate]⟩
  have hstarts : StartsNothing g1 g2 := by
    cases hcancel : g1.cancelRequested with
    | false =>
      obtain ⟨g2',hg2',hstarts⟩ := hadmits identity g1 hg1
      rw [hg2] at hg2'
      cases hg2'
      exact hstarts (by simp [stalledGroup,hadv.plan,hpolicy,hany,hcancel])
    | true =>
      refine (hadv2.halted hcancel).imp fun x x' hx hl hs => ?_
      exact not_running_of_launchable hl ((hx (.inr hs)).symm.trans hs)
  obtain ⟨j,hj,rfl⟩ := List.mem_iff_getElem.mp hc1
  have hj' : j < g2.children.length := hadv2.children.length_eq ▸ hj
  have hsound := hholds.entry e2 (List.mem_of_getElem? h2) identity g2 hg2
  have heq : c2 = g2.children.get ⟨j,hj'⟩ := List.inj_on_of_nodup_map hsound.distinct hc2
    (List.get_mem _ _) (hid.trans (congrArg ChildSpec.id (hadv2.children.get hj hj').spec).symm)
  rw [heq] at hrun
  exact hstarts.get hj hj' hlaunch hrun

end Runs

section Example

attribute [local instance] Sha256.hex

def failFastPlan : ChildGroupPlan := { samplePlan with
  maxConcurrency := 2
  failurePolicy := .failFast
  children := samplePlan.children ++ [⟨ascii "c",some [],some ∅⟩] }

def failFastIdentity : Text := childExecutionIdentity (ascii "x") (ascii "n") 1 (ascii "g") []

def failFastScript (rest : List (ChildAction (GoMap Text Unit) (GoMap Text Unit))) :
    List (Command (ChildAction (GoMap Text Unit) (GoMap Text Unit))) :=
  [.acquire,.act 1 (.other sampleStart),.act 1 (.prepare failFastPlan ∅),.act 1 (.recover 0),
    .act 1 (.begin 0),.act 1 (.run 0),.act 1 (.dispatch 0 0)] ++ rest.map (.act 1)

/-- The first child fails and its loop launches the second before it receives the completion. -/
theorem fail_fast_admits_after_failure :
    ∃ s, Reachable (childProtocol (GoMap Text Unit) (GoMap Text Unit) fun _ => true) s ∧
      failedAt s.log 4 failFastIdentity = true ∧ admittedAt s.log 5 failFastIdentity = true := by
  have heval : ((childProtocol (GoMap Text Unit) (GoMap Text Unit) fun _ => true).script (failFastScript
      [.finish 0 0 ⟨.failed,[],ascii "no",[]⟩ none,.begin 0,.run 0])).any (fun s =>
        failedAt s.log 4 failFastIdentity && admittedAt s.log 5 failFastIdentity) = true := by
    decide +kernel
  obtain ⟨s,hs,hok⟩ := (Option.any_eq_true _ _).mp heval
  exact ⟨s,.of_script hs,Bool.and_eq_true_iff.mp hok⟩

/-- Two children run when the first one fails; the second still finishes, the third never starts. -/
theorem fail_fast_stops_admission_of_third :
    ∃ s, Reachable (failFastProtocol (GoMap Text Unit) (GoMap Text Unit) fun _ => true) s ∧
      s.log.length = 8 ∧ failedAt s.log 6 failFastIdentity = true ∧
      admittedAt s.log 6 failFastIdentity = false := by
  have heval : ((failFastProtocol (GoMap Text Unit) (GoMap Text Unit) fun _ => true).script (failFastScript
      [.begin 0,.run 0,.dispatch 0 1,.finish 0 0 ⟨.failed,[],ascii "no",[]⟩ none,
        .finish 0 1 ⟨.completed,[],[],[]⟩ none])).any (fun s =>
        decide (s.log.length = 8) && failedAt s.log 6 failFastIdentity) = true := by
    decide +kernel
  obtain ⟨s,hs,hok⟩ := (Option.any_eq_true _ _).mp heval
  obtain ⟨hlen,hfailed⟩ := Bool.and_eq_true_iff.mp hok
  have hr : Reachable (failFastProtocol (GoMap Text Unit) (GoMap Text Unit) fun _ => true) s := .of_script hs
  exact ⟨s,hr,of_decide_eq_true hlen,hfailed,fail_fast_stops_admission hr (Nat.le_refl 6) hfailed⟩

end Example
end Flowy
