import Flowy.Child.Loops

/-! What each action of the child protocol does to the log, to the launch loops and to the launches
in hand. -/
namespace Flowy

open Fencing
open scoped List

variable {J W : Type} [Sha256] {clock : Time → Bool} {i k : Nat}
  {e t : ExecutionEnvelope J ChildGroups W} {l : Launches}

def ChildIn (e : ExecutionEnvelope J ChildGroups W) (x : Text) (p : ChildRecord → Prop) : Prop :=
  ∃ identity g, e.children.get? identity = some g ∧ ∃ c ∈ g.children, c.executionID = x ∧ p c

def Launched (x : Text) (e : ExecutionEnvelope J ChildGroups W) : Prop :=
  ChildIn e x fun c => launchable c = false

def LaunchedBy (x : Text) (cache : Option (ExecutionEnvelope J ChildGroups W))
    (e' : ExecutionEnvelope J ChildGroups W) : Prop :=
  (∃ e, cache = some e ∧ ChildIn e x fun c => c.state = .queued) ∧ ChildIn e' x fun c => c.state = .running

theorem SoundGroups.child_unique (h : SoundGroups e) {identity identity' : Text} {g g' : ChildGroupRecord}
    {c c' : ChildRecord} (hg : e.children.get? identity = some g) (hg' : e.children.get? identity' = some g')
    (hc : c ∈ g.children) (hc' : c' ∈ g'.children) (hx : c.executionID = c'.executionID) :
    identity = identity' ∧ c = c' := by
  have hs := h identity g hg
  have hs' := h identity' g' hg'
  have htext : ∀ {g : ChildGroupRecord} {c : ChildRecord},
      validRuntimeText [g.parentID,g.node,g.plan.key] = true → validRuntimeText [c.spec.id] = true →
      validRuntimeText [g.parentID,g.node,g.plan.key,c.spec.id] = true := by
    intro g c h1 h2
    simp only [validRuntimeText,List.all_cons,List.all_nil,Bool.and_true,Bool.and_eq_true] at h1 h2 ⊢
    exact ⟨h1.1,h1.2.1,h1.2.2,h2⟩
  rw [(hs.children c hc).2,(hs'.children c' hc').2] at hx
  obtain ⟨h1,h2,h3,h4,h5⟩ := childExecutionIdentity_injective (htext hs.texts (hs.children c hc).1)
    (htext hs'.texts (hs'.children c' hc').1) hx
  have hid : identity = identity' := by
    rw [hs.address,hs'.address,ChildGroupRecord.identity,ChildGroupRecord.identity,h1,h2,h3,h4]
  subst hid
  rw [hg] at hg'
  cases hg'
  exact ⟨rfl,List.inj_on_of_nodup_map hs.distinct hc hc' h5⟩

structure MoveOk (i : Nat) (e : ExecutionEnvelope J ChildGroups W) (l l' : Launches)
    (ev : List (Ticket Text)) : Prop where
  ok : LaunchesOk (some e) l'
  held : (ev = [] ∧ heldTickets l' <+~ heldTickets l) ∨
    ∃ x, ev = [.use i x] ∧ x :: heldTickets l' <+~ heldTickets l

structure CommitOk (clock : Time → Bool) (i : Nat) (e : ExecutionEnvelope J ChildGroups W)
    (l : Launches) (t : ExecutionEnvelope J ChildGroups W) (la lf : Launches) (ev : List (Ticket Text)) :
    Prop where
  link : GroupsLink clock e { t with revision := e.revision + 1 }
  acked : LaunchesOk (some { t with revision := e.revision + 1 }) la
  failed : LaunchesOk (some e) lf
  lost : heldTickets lf <+~ heldTickets l
  held : (ev = [] ∧ heldTickets la <+~ heldTickets l) ∨
    ∃ x, ev = [.issue i x (e.revision + 1)] ∧ heldTickets la <+~ x :: heldTickets l ∧ ¬Launched x e ∧
      LaunchedBy x (some e) { t with revision := e.revision + 1 }

def ChildActOk (clock : Time → Bool) (i : Nat) (e : ExecutionEnvelope J ChildGroups W) (l : Launches) :
    ChildAct J W → Prop
  | .move l' ev => MoveOk i e l l' ev
  | .commit t la lf ev => CommitOk clock i e l t la lf ev

omit [Sha256] in
theorem LaunchesOk.append (h : LaunchesOk (some e) l) (hlock : l.lock = none) (identity : Text) :
    LaunchesOk (some e) ⟨l.calls ++ [.prepared identity],none,.calls⟩ := by
  have hget : ∀ {j : Nat} {c : RunCall}, (l.calls ++ [.prepared identity])[j]? = some c →
      l.calls[j]? = some c ∨ c = .prepared identity := by
    intro j c hj
    rw [List.getElem?_append] at hj
    split at hj
    · exact .inl hj
    · exact .inr (List.mem_singleton.mp (List.mem_of_getElem? hj))
  refine ⟨(fun h => by cases h),?_,?_,(fun h => by cases h)⟩
  · rintro _ ⟨⟩ j c hj
    rcases hget hj with hj | rfl
    · exact h.ok e rfl j c hj
    · trivial
  · intro j launch p hj
    rcases hget hj with hj | hj
    · rw [← hlock]
      exact h.mutex j launch p hj
    · cases hj

omit [Sha256] in
theorem heldTickets_append (l : Launches) (identity : Text) :
    heldTickets ⟨l.calls ++ [.prepared identity],none,.calls⟩ = heldTickets l := by
  simp [heldTickets,List.flatMap_append,spawnedTickets,RunCall.workers]

theorem CommitOk.of_quiet {identity : Text} {a : EditScope} {la lf : Launches} (hi : 0 < i)
    (hs : SoundGroups e) (h : ChildOperation clock i e identity a t) (ha : ∀ id, a ≠ .launch id)
    (hla : ∀ e' : ExecutionEnvelope J ChildGroups W, QuietCommit e e' → e'.children = t.children →
      LaunchesOk (some e') la)
    (hlf : LaunchesOk (some e) lf) (hheld : heldTickets la <+~ heldTickets l)
    (hlost : heldTickets lf <+~ heldTickets l) : CommitOk clock i e l t la lf [] := by
  have hq := h.quiet hs ha
  exact ⟨h.link hi hs ha,hla _ (hq.stamp _) rfl,hlf,hlost,.inl ⟨rfl,hheld⟩⟩

omit [Sha256] in
theorem LaunchesOk.returned (hl : LaunchesOk (some e) l) {c : RunCall} (identity : Text)
    (hk : l.calls[k]? = some c) (hh : OnlyHolds l k) :
    MoveOk i e l (l.set k (.returned identity c.workers)) [] :=
  ⟨hl.set (.refl e) hh trivial (by simp),.inl ⟨rfl,heldTickets_set hk (.refl _)⟩⟩

omit [Sha256] in
theorem reread_setChild {g : ChildGroupRecord} {c c' : ChildRecord} (hr : g.reread = g) (hc : c ∈ g.children)
    (he : c'.error = c.error) : (g.setChild c').reread = g.setChild c' := by
  have hc' : c'.reread = c' := by
    have h := congrArg ChildRecord.error (reread_of_group hr hc)
    simp only [ChildRecord.reread,← he] at h ⊢
    rw [h]
  simp only [ChildGroupRecord.reread,ChildGroupRecord.setChild,List.map_map]
  congr 1
  refine List.map_congr_left fun x hx => ?_
  simp only [Function.comp]
  split
  · exact hc'
  · exact reread_of_group hr hx

section Actions

variable (hi : 0 < i) (hs : SoundGroups e) (hl : LaunchesOk (some e) l)

include hi hs hl

theorem prepareAct_ok (hlock : l.lock = none) (plan : ChildGroupPlan) (available : Counters) :
    ChildActOk clock i e l (prepareAct e l plan available) := by
  have hkeep : LaunchesOk (some e) { l with use := .calls } := hl.keep (.refl e) hlock (by simp)
  unfold prepareAct
  cases hp : prepareChildren e plan available with
  | error err => exact ⟨hkeep,.inl ⟨rfl,.refl _⟩⟩
  | ok r =>
    obtain ⟨g,target⟩ := r
    cases target with
    | none => exact ⟨hl.append hlock _,.inl ⟨rfl,by rw [heldTickets_append]⟩⟩
    | some target =>
      refine CommitOk.of_quiet hi hs (.prepare plan available g target hp) (by simp) ?_ hkeep
        (by rw [heldTickets_append]) (.refl _)
      intro e' hq _
      exact (hl.keep hq hlock id).append hlock _

theorem recoverAct_ok {identity : Text} (hk : l.calls[k]? = some (.prepared identity))
    (hlock : l.lock = none) : ChildActOk clock i e l (recoverAct i k e l identity) := by
  have hh := hl.onlyHolds_of_free hlock k
  have hret := hl.returned (i := i) identity hk hh
  unfold recoverAct
  cases hr : recoverChildLaunches i e identity with
  | error err => exact hret
  | ok r =>
    obtain ⟨-,htarget,hsame,hpend⟩ := recoverChildLaunches_eq_ok clock hr
    dsimp only
    cases hp : r.pending with
    | true =>
      rw [if_pos rfl]
      cases ht : r.target with
      | none => exact hret
      | some target =>
        refine CommitOk.of_quiet hi hs (.recover identity r target hr ht) (by simp) (fun e' hq _ => ?_) hret.ok
          (heldTickets_set hk (.refl _)) (heldTickets_set hk (.refl _))
        exact hl.set hq hh trivial (by simp)
    | false =>
      obtain ⟨hnone,hrun⟩ := hpend hp
      have hgroup := hsame hnone
      rw [hnone,if_neg (by simp)]
      refine ⟨hl.set (.refl e) hh ?_ (by simp),.inl ⟨rfl,heldTickets_set hk (.refl _)⟩⟩
      -- nothing runs, so the new loop sees the launchable children as they are
      cases hg : e.children.get? identity with
      | none =>
        left
        simp [hgroup,hg,launchableChildIDs,ChildGroupRecord.zero]
      | some g =>
        rw [hg] at hgroup
        cases hgroup
        exact .inr ⟨_,hg,rfl,.inr ⟨rfl,by rw [hrun]; exact Nat.zero_le _⟩⟩

theorem launchAct_ok {c : RunCall} {launch : Launch} {p : PendingLaunch} (hk : l.calls[k]? = some c)
    (hworkers : c.workers = launch.workers) (hh : OnlyHolds l k) (hp : HoldOk e launch p) :
    ChildActOk clock i e l (launchAct i k e l launch p) := by
  have hret := hl.returned (i := i) launch.identity hk hh
  rw [hworkers] at hret
  unfold launchAct
  dsimp only
  cases ht : persistChildGroups e (p.put launch.identity (startChild i p.child)).groups with
  | error err => exact hret
  | ok target =>
    have hd := (hs _ _ hp.group).distinct
    have hlaunch : launchable p.child = true := launchable_of_state (.inr hp.queued)
    have hcommit : ChildOperation clock i e launch.identity (.launch p.child.spec.id) target :=
      .run launch.identity p target hp.groups hp.group hp.child hp.queued hp.asked ht
    rw [PendingLaunch.put,hp.groups] at ht
    have htarget : target = e.putGroup launch.identity (p.group.setChild (startChild i p.child)) :=
      (persistChildGroups_eq_ok.mp ht).2
    have hrun := runningChildren_setChild hd hp.child (show (startChild i p.child).spec.id = _ from rfl)
    simp only [hp.queued,startChild,reduceCtorEq,if_false,if_true] at hrun
    have hpend := pendingWorkers_le launch.workers
    have hroom := hp.room
    have hlimit := hp.limit
    have hle := hp.running
    have hadv : GroupAdvance p.group (p.group.setChild (startChild i p.child)) :=
      (.start p.child hp.child hp.asked hp.queued : GroupEdit clock i e _ _ _).advance hd
    have hb : (runningChildren (p.group.setChild (startChild i p.child)) : Int) ≤
        p.group.plan.maxConcurrency := by
      rw [← hlimit]
      simp only [startChild] at hrun ⊢
      omega
    have hquiet : QuietCommit e target := by
      rw [htarget]
      exact hs.quiet_put hp.group (.start hd hp.child hp.asked hlaunch hp.synced)
    have hget : target.children.get? launch.identity =
        some (p.group.setChild (startChild i p.child)).reread := by
      rw [htarget,hs.get?_putGroup,if_pos rfl]
    have hspawn : spawnedTickets (launch.workers ++ [⟨invocationOf (p.group.setChild (startChild i p.child))
        (startChild i p.child),.spawned⟩]) = spawnedTickets launch.workers ++ [p.child.executionID] := by
      simp [spawnedTickets,List.filter_append,invocationOf,startChild]
    refine ⟨hcommit.link_of_sound hi (htarget ▸ hs.advance_put hp.group hadv hb),
      hl.set (hquiet.stamp _) hh ?_ (by simp),hret.ok,?_,.inr ⟨p.child.executionID,rfl,?_,?_,?_,?_⟩⟩
    · refine .inr ⟨_,hget,hp.limit,.inr ⟨?_,?_⟩⟩
      · rw [launchableChildIDs_reread]
        exact (launchableChildIDs_start hd hp.child hp.asked hlaunch hp.synced).symm
      · rw [runningChildren_reread]
        simp only [pendingWorkers,List.countP_append] at hle ⊢
        simp only [startChild] at hrun ⊢
        simp only [List.countP_cons,List.countP_nil]
        simp
        omega
    · exact heldTickets_set hk (by rw [hworkers]; exact .refl _)
    · refine heldTickets_issue hk ?_
      rw [hworkers]
      change spawnedTickets (launch.workers ++ [_]) <+~ _
      rw [PendingLaunch.put,hspawn]
      exact (List.perm_append_singleton _ _).subperm
    · rintro ⟨identity',g',hg',c',hc',hx,hgone⟩
      obtain ⟨-,rfl⟩ := hs.child_unique hg' hp.group hc' hp.child hx
      rw [hlaunch] at hgone
      cases hgone
    · exact ⟨e,rfl,_,_,hp.group,p.child,hp.child,rfl,hp.queued⟩
    · obtain ⟨pre,post,hsplit,hset⟩ := setChild_split hd hp.child (show (startChild i p.child).spec.id = _ from rfl)
      refine ⟨_,_,hget,(startChild i p.child).reread,?_,rfl,rfl⟩
      rw [ChildGroupRecord.reread]
      exact List.mem_map_of_mem (by rw [hset]; simp)

/-- A loop that is refused its first child is never in step again; one that is not refused is. -/
theorem beginAct_ok {identity : Text} {limit : Int} {policy : ChildFailurePolicy} {id : Text}
    {ids : List Text} {workers : List Worker}
    (hk : l.calls[k]? = some (.launching ⟨identity,limit,policy,id :: ids,workers⟩))
    (hlock : l.lock = none) (hroom : (workers.length : Int) < limit) :
    ChildActOk clock i e l (beginAct i k e l ⟨identity,limit,policy,ids,workers⟩ id) := by
  have hh := hl.onlyHolds_of_free hlock k
  have hret := hl.returned (i := i) identity hk hh
  unfold beginAct
  cases hb : beginChild e identity id with
  | error err => exact hret
  | ok p =>
    obtain ⟨-,hgroups,hg,hc,hid,hcancel,hlaunch⟩ := beginChild_eq_ok hb
    have hd := (hs _ _ hg).distinct
    have hok : LaunchOk e ⟨identity,limit,policy,id :: ids,workers⟩ := hl.ok e rfl k _ hk
    obtain ⟨hlimit,hids,hrun⟩ := hok.begin hb
    dsimp only
    split
    · rename_i hplanned
      cases ht : persistChildGroups e (p.put identity (queueChild p.child)).groups with
      | error err => exact hret
      | ok target =>
        have hcommit : ChildOperation clock i e identity (.child id) target :=
          .queue identity id p target hb hplanned ht
        rw [PendingLaunch.put,hgroups] at ht
        have htarget : target = e.putGroup identity (p.group.setChild (queueChild p.child)) :=
          (persistChildGroups_eq_ok.mp ht).2
        have hreread : (p.group.setChild (queueChild p.child)).reread =
            p.group.setChild (queueChild p.child) :=
          reread_setChild (hs _ _ hg).reread hc rfl
        have hchildren : target.children = e.children.set identity (p.group.setChild (queueChild p.child)) := by
          rw [htarget]
          refine GoMap.mapValues_eq_self fun identity' g' hg' => ?_
          rw [GoMap.get?_set] at hg'
          split at hg'
          · cases hg'
            exact hreread
          · exact (hs _ _ hg').reread
        refine CommitOk.of_quiet hi hs hcommit (by simp) (fun e' hq he' => ?_) hret.ok
          (heldTickets_set hk (.refl _)) (heldTickets_set hk (.refl _))
        have hcount := runningChildren_setChild hd hc (show (queueChild p.child).spec.id = _ from rfl)
        simp only [hplanned,queueChild,reduceCtorEq,if_false,Nat.add_zero] at hcount
        obtain ⟨pre,post,-,hset⟩ := setChild_split hd hc (show (queueChild p.child).spec.id = _ from rfl)
        refine hl.hold hq hh ⟨?_,?_,?_,rfl,hcancel,hlimit,hroom,?_,?_⟩
        · rw [he',hchildren,PendingLaunch.put,hgroups]
        · rw [he',hchildren,GoMap.get?_set_self]
          rfl
        · change queueChild p.child ∈ (p.group.setChild (queueChild p.child)).children
          simp [hset]
        · change launchableChildIDs (p.group.setChild (queueChild p.child)) = p.child.spec.id :: ids
          rw [launchableChildIDs_setChild hd hc (show (queueChild p.child).spec.id = _ from rfl)
            (by rw [hlaunch]; rfl),hids,hid]
        · change runningChildren (p.group.setChild (queueChild p.child)) ≤ pendingWorkers workers
          simp only [queueChild]
          omega
    · rename_i hplanned
      exact launchAct_ok hi hs hl hk rfl hh (hok.holdOk hb hroom hplanned)

end Actions

section Workers

omit [Sha256]

variable {c : RunCall} {w : Nat} {x y : Worker} {workers : List Worker}

theorem pendingWorkers_set (hw : workers[w]? = some x) (y : Worker) :
    pendingWorkers (workers.set w y) + (if x.phase = .succeeded then 0 else 1) =
      pendingWorkers workers + if y.phase = .succeeded then 0 else 1 := by
  obtain ⟨pre,post,hsplit,hset⟩ := set_split hw
  rw [hset y,hsplit]
  simp only [pendingWorkers,List.countP_append,List.countP_cons,bne_iff_ne,ne_eq]
  by_cases hx : x.phase = .succeeded <;> by_cases hy : y.phase = .succeeded <;> simp [hx,hy] <;> omega

theorem spawnedTickets_eraseIdx (workers : List Worker) (w : Nat) :
    spawnedTickets (workers.eraseIdx w) <+~ spawnedTickets workers :=
  (((List.eraseIdx_sublist workers w).filter _).map _).subperm

theorem pendingWorkers_eraseIdx (hw : workers[w]? = some x) (hx : x.phase = .succeeded) :
    pendingWorkers (workers.eraseIdx w) = pendingWorkers workers := by
  obtain ⟨hlt,hget⟩ := List.getElem?_eq_some_iff.mp hw
  have hsplit : workers = workers.take w ++ x :: workers.drop (w + 1) := by
    rw [← hget,List.getElem_cons_drop,List.take_append_drop]
  conv_rhs => rw [hsplit]
  simp [pendingWorkers,List.eraseIdx_eq_take_drop_succ,List.countP_append,hx]

theorem spawnedTickets_set (hw : workers[w]? = some x) (hy : y.phase ≠ .spawned) :
    (x.phase = .spawned → x.invocation.executionID :: spawnedTickets (workers.set w y) <+~
      spawnedTickets workers) ∧ spawnedTickets (workers.set w y) <+~ spawnedTickets workers := by
  obtain ⟨pre,post,hsplit,hset⟩ := set_split hw
  have hyf : (y.phase == .spawned) = false := by simpa using hy
  rw [hset y,hsplit]
  simp only [spawnedTickets,List.filter_append,List.filter_cons,hyf,Bool.false_eq_true,if_false]
  refine ⟨fun hx => ?_,?_⟩
  · simp only [hx,beq_self_eq_true,if_true,List.map_append,List.map_cons]
    exact List.perm_middle.symm.subperm
  · refine (List.Sublist.map _ ((List.Sublist.refl _).append ?_)).subperm
    split
    · exact List.sublist_cons_self _ _
    · exact .refl _

theorem workers_ne_nil (hw : c.workers[w]? = some x) : c.workers ≠ [] := by
  intro hnil
  simp [hnil] at hw

theorem LaunchesOk.setWorker (h : LaunchesOk (some e) l) (hk : l.calls[k]? = some c)
    (hw : c.workers[w]? = some x) {phase : WorkerPhase} (hp : phase ≠ .succeeded) :
    LaunchesOk (some e) (l.setWorker k w c x phase) := by
  have hcount := pendingWorkers_set hw { x with phase := phase }
  rw [if_neg hp] at hcount
  have hle : pendingWorkers c.workers ≤ pendingWorkers (c.workers.set w { x with phase := phase }) := by
    split at hcount <;> omega
  have hok := h.ok e rfl k c hk
  refine h.setCall hk ?_ ?_
  · cases c with
    | prepared | returned => trivial
    | launching launch =>
      rcases hok with hnil | ⟨g,hg,hlimit,hgone | ⟨hids,hrun⟩⟩
      · exact .inl hnil
      · exact .inr ⟨g,hg,hlimit,.inl hgone⟩
      · exact .inr ⟨g,hg,hlimit,.inr ⟨hids,hrun.trans hle⟩⟩
    | holding launch p =>
      have hok : HoldOk e launch p := hok
      exact { hok with room := by simpa [RunCall.workers] using hok.room, running := hok.running.trans hle }
  · intro launch p heq
    cases c with
    | prepared | returned | launching => cases heq
    | holding launch0 p0 =>
      cases heq
      exact ⟨launch0,rfl⟩

theorem heldTickets_setWorker (hk : l.calls[k]? = some c) (hw : c.workers[w]? = some x)
    {phase : WorkerPhase} (hp : phase ≠ .spawned) :
    (x.phase = .spawned → x.invocation.executionID :: heldTickets (l.setWorker k w c x phase) <+~
      heldTickets l) ∧ heldTickets (l.setWorker k w c x phase) <+~ heldTickets l := by
  have hset := setWorkers_workers (workers_ne_nil hw) (c.workers.set w { x with phase := phase })
  have hsp := spawnedTickets_set (y := { x with phase := phase }) hw hp
  exact ⟨fun hx => heldTickets_use hk (by rw [hset]; exact hsp.1 hx),
    heldTickets_set hk (by rw [hset]; exact hsp.2)⟩

end Workers

section Rest

variable {c : RunCall} {w : Nat} {x : Worker}

omit [Sha256] in
theorem stopAct_ok (hl : LaunchesOk (some e) l) {identity : Text} (hk : l.calls[k]? = some c) :
    MoveOk i e l { l with calls := l.calls.set k (.returned identity c.workers) } [] :=
  ⟨hl.setCall hk trivial (by simp),.inl ⟨rfl,heldTickets_set hk (.refl _)⟩⟩

omit [Sha256] in
theorem receiveAct_ok (hl : LaunchesOk (some e) l) {launch : Launch} {ok : Bool}
    (hk : l.calls[k]? = some (.launching launch)) (hw : launch.workers[w]? = some x)
    (hx : ok = true → x.phase = .succeeded) :
    MoveOk i e l { l with calls := l.calls.set k (receiveCompletion e launch w ok) } [] := by
  have hheld : spawnedTickets (receiveCompletion e launch w ok).workers <+~ spawnedTickets launch.workers := by
    unfold receiveCompletion
    dsimp only
    split <;> exact spawnedTickets_eraseIdx _ _
  refine ⟨hl.setCall hk ?_ ?_,.inl ⟨rfl,heldTickets_set hk hheld⟩⟩
  · unfold receiveCompletion
    dsimp only
    split
    · trivial
    · rename_i hok
      simp only [Bool.or_eq_true,not_or,Bool.not_eq_true',Bool.not_eq_false] at hok
      have hpend := pendingWorkers_eraseIdx hw (hx hok.1)
      rcases hl.ok e rfl k _ hk with hnil | ⟨g,hg,hlimit,hgone | ⟨hids,hrun⟩⟩
      · exact .inl hnil
      · exact .inr ⟨g,hg,hlimit,.inl hgone⟩
      · exact .inr ⟨g,hg,hlimit,.inr ⟨hids,hpend ▸ hrun⟩⟩
  · intro launch' p heq
    unfold receiveCompletion at heq
    dsimp only at heq
    split at heq <;> cases heq

theorem LaunchOk.finish (hs : SoundGroups e) {launch : Launch} {g : ChildGroupRecord} {child : ChildRecord}
    {result : ChildResult} {e' : ExecutionEnvelope J ChildGroups W} (h : LaunchOk e launch)
    (hg : e.children.get? launch.identity = some g) (hc : child ∈ g.children)
    (hrun : child.state = .running) (hr : validChildResultState result.state = true)
    (he' : e'.children = (e.putGroup launch.identity (g.setChild (settleChild child result))).children)
    {workers : List Worker} (hw : pendingWorkers launch.workers ≤ pendingWorkers workers + 1) :
    LaunchOk e' { launch with workers := workers } := by
  have hd := (hs _ _ hg).distinct
  obtain ⟨hl,hn⟩ := not_launchable_of_result (c := child) hr
  have hids : launchableChildIDs (g.setChild (settleChild child result)) = launchableChildIDs g := by
    refine launchableChildIDs_setChild hd hc rfl ?_
    rw [hl]
    simp [launchable,hrun]
  have hcount := runningChildren_setChild hd hc (show (settleChild child result).spec.id = _ from rfl)
  rw [if_pos hrun,if_neg hn] at hcount
  have hget : e'.children.get? launch.identity =
      some (g.setChild (settleChild child result)).reread := by
    rw [he',hs.get?_putGroup,if_pos rfl]
  have hsame : launchableChildIDs (g.setChild (settleChild child result)).reread = launchableChildIDs g := by
    rw [launchableChildIDs_reread,hids]
  rcases h with hnil | ⟨g0,hg0,hlimit,h⟩
  · exact .inl hnil
  · rw [hg] at hg0
    cases hg0
    refine .inr ⟨_,hget,hlimit,?_⟩
    rcases h with ⟨id,ids,heq,hgone⟩ | ⟨heq,hle⟩
    · exact .inl ⟨id,ids,heq,by rwa [hsame]⟩
    · refine .inr ⟨by rw [hsame]; exact heq,?_⟩
      rw [runningChildren_reread]
      simp only
      omega

theorem finishWorkerAct_ok (hi : 0 < i) (hs : SoundGroups e) (hl : LaunchesOk (some e) l)
    (hlock : l.lock = none) (hk : l.calls[k]? = some c) (hw : c.workers[w]? = some x)
    (hx : x.phase ≠ .succeeded) (result : ChildResult) :
    ChildActOk clock i e l (finishWorkerAct i k w e l c x result) := by
  have hfail : LaunchesOk (some e) (l.setWorker k w c x .failed) := hl.setWorker hk hw (by simp)
  have hheld : heldTickets (l.setWorker k w c x .failed) <+~ heldTickets l :=
    (heldTickets_setWorker hk hw (by simp)).2
  unfold finishWorkerAct
  cases hf : finishChild i e c.identity x.invocation result with
  | error err => exact ⟨hfail,.inl ⟨rfl,hheld⟩⟩
  | ok target =>
    have hcommit : ChildOperation clock i e _ _ target := .finish _ _ _ _ hf
    obtain ⟨-,g,child,hg,hc,-,hm,hr,-,-,htarget⟩ := finishChild_eq_ok hf
    have hrun := (childInvocationMatches_running hm).1
    refine CommitOk.of_quiet hi hs hcommit (by simp) (fun e' hq he' => ?_) hfail
      (heldTickets_setWorker hk hw (by split <;> simp)).2 hheld
    -- no call holds the mutex, so every other loop only has to see a quiet commit
    have hnone : ∀ launch p, l.calls[k]? ≠ some (.holding launch p) := by
      intro launch p hk'
      have := hl.mutex k launch p hk'
      rw [hlock] at this
      cases this
    have hkeep : LaunchesOk (some e') l := hl.keep hq hlock id
    generalize hphase : (if result.state = .unknown then WorkerPhase.failed else .succeeded) = phase
    have hpend : pendingWorkers c.workers ≤ pendingWorkers (c.workers.set w { x with phase := phase }) + 1 := by
      have := pendingWorkers_set hw { x with phase := phase }
      rw [if_neg hx] at this
      omega
    refine hkeep.setCall hk ?_ ?_
    · cases c with
      | prepared | returned => trivial
      | launching launch =>
        exact LaunchOk.finish hs (hl.ok e rfl k _ hk) hg hc hrun hr (htarget ▸ he') hpend
      | holding launch p => exact absurd hk (hnone launch p)
    · intro launch p heq
      cases c with
      | prepared | returned | launching => cases heq
      | holding launch0 p0 =>
        cases heq
        exact ⟨launch0,rfl⟩

theorem resultAct_ok (hi : 0 < i) (hs : SoundGroups e) (hl : LaunchesOk (some e) l) (hlock : l.lock = none)
    {use : SessionUse} (huse : use ≠ .unused) {r : Result (Option (ExecutionEnvelope J ChildGroups W))}
    (h : ∀ target, r = .ok (some target) → ∃ identity a, ChildOperation clock i e identity a target ∧
      ∀ id, a ≠ .launch id) : ChildActOk clock i e l (resultAct r { l with use := use }) := by
  have hkeep : LaunchesOk (some e) { l with use := use } := hl.keep (.refl e) hlock fun h => absurd h huse
  cases r with
  | error err => exact ⟨hkeep,.inl ⟨rfl,.refl _⟩⟩
  | ok target =>
    cases target with
    | none => exact ⟨hkeep,.inl ⟨rfl,.refl _⟩⟩
    | some target =>
      obtain ⟨identity,a,hcommit,ha⟩ := h target rfl
      exact CommitOk.of_quiet hi hs hcommit ha (fun e' hq _ => hl.keep hq hlock fun h => absurd h huse) hkeep
        (.refl _) (.refl _)

theorem mutationTarget_operation {mutation : ChildMutation} (hclock : mutation.clocked clock = true)
    (h : mutationTarget i e mutation = .ok (some t)) :
    ∃ identity a, ChildOperation clock i e identity a t ∧ ∀ id, a ≠ .launch id := by
  cases mutation with
  | join expected merge =>
    obtain ⟨⟨result,-⟩,hr,rfl⟩ := map_eq_ok.mp h
    exact ⟨_,_,.join expected merge result t hr,by simp⟩
  | cancel expected request now =>
    obtain ⟨⟨g,-⟩,hr,rfl⟩ := map_eq_ok.mp h
    exact ⟨_,_,.cancel expected g request now t hclock hr,by simp⟩
  | credit expected claim now =>
    obtain ⟨⟨g,-⟩,hr,rfl⟩ := map_eq_ok.mp h
    exact ⟨_,_,.credit expected g claim now t hclock hr,by simp⟩

theorem decisionTarget_operation {decision : ChildDecision} (hclock : decision.clocked clock = true)
    (h : decisionTarget i e decision = .ok (some t)) :
    ∃ identity a, ChildOperation clock i e identity a t ∧ ∀ id, a ≠ .launch id := by
  cases decision with
  | confirm decision now =>
    obtain ⟨t,hr,⟨⟩⟩ := map_eq_ok.mp h
    exact ⟨_,_,.confirm decision now t hclock hr,by simp⟩
  | wait resolution now =>
    obtain ⟨t,hr,⟨⟩⟩ := map_eq_ok.mp h
    exact ⟨_,_,.wait resolution now t hclock hr,by simp⟩
  | outcome resolution now => exact ⟨_,_,.outcome resolution now t hclock h,by simp⟩

theorem otherAct_ok (hs : SoundGroups e) (hl : LaunchesOk (some e) l) (hlock : l.lock = none)
    (hkeep : keepsChildGroups e t = true) : CommitOk clock i e l t l l [] := by
  have hsame := keepsChildGroups_children hkeep
  have hget : ∀ identity, t.children.get? identity = e.children.get? identity := by simp [hsame]
  have hquiet : QuietCommit e { t with revision := e.revision + 1 } := fun identity g hg =>
    ⟨g,(hget identity).trans hg,.refl g⟩
  refine ⟨⟨.keep t hkeep rfl,?_,fun identity g hg => ⟨g,(hget identity).trans hg,.refl g⟩⟩,
    hl.keep hquiet hlock id,hl,.refl _,.inl ⟨rfl,.refl _⟩⟩
  intro identity g hg
  exact hs identity g ((hget identity).symm.trans hg)

theorem childAct_ok (hi : 0 < i) (hs : SoundGroups e) (hl : LaunchesOk (some e) l)
    {a : ChildAction J W} {act : ChildAct J W} (h : childAct clock a i (some e) l = some act) :
    ChildActOk clock i e l act := by
  cases a with
  | prepare plan available =>
    simp only [childAct,Option.ite_none_right_eq_some,Option.some.injEq] at h
    obtain ⟨⟨hlock,-⟩,rfl⟩ := h
    exact prepareAct_ok hi hs hl hlock plan available
  | recover k =>
    simp only [childAct] at h
    split at h
    · rename_i identity hk
      simp only [Option.ite_none_right_eq_some,Option.some.injEq] at h
      obtain ⟨hlock,rfl⟩ := h
      exact recoverAct_ok hi hs hl hk hlock
    · cases h
  | begin k =>
    simp only [childAct] at h
    split at h
    · rename_i identity limit policy id ids workers hk
      simp only [Option.ite_none_right_eq_some,Option.some.injEq] at h
      obtain ⟨⟨hlock,hroom⟩,rfl⟩ := h
      exact beginAct_ok hi hs hl hk hlock hroom
    · cases h
  | run k =>
    simp only [childAct] at h
    split at h
    · rename_i launch p hk
      cases h
      exact launchAct_ok hi hs hl hk rfl (hl.onlyHolds hk) (hl.ok e rfl k _ hk)
    · cases h
  | stop k =>
    simp only [childAct] at h
    split at h
    · rename_i identity hk
      cases h
      exact stopAct_ok hl hk
    · rename_i launch hk
      cases h
      exact stopAct_ok hl hk
    · cases h
  | receive k w =>
    simp only [childAct] at h
    split at h
    · rename_i launch hk
      split at h
      · rename_i invocation hw
        cases h
        exact receiveAct_ok hl hk hw fun _ => rfl
      · rename_i invocation hw
        cases h
        exact receiveAct_ok hl hk hw (by simp)
      · cases h
    · cases h
  | dispatch k w =>
    simp only [childAct] at h
    split at h
    · rename_i c hk
      split at h
      · rename_i invocation hw
        cases h
        exact ⟨hl.setWorker hk hw (by simp),
          .inr ⟨_,rfl,(heldTickets_setWorker hk hw (by simp)).1 rfl⟩⟩
      · cases h
    · cases h
  | skip k w err =>
    simp only [childAct] at h
    split at h
    · rename_i c hk
      split at h
      · rename_i invocation hw
        simp only [Option.ite_none_right_eq_some,Option.some.injEq] at h
        obtain ⟨hlock,rfl⟩ := h
        exact finishWorkerAct_ok hi hs hl hlock hk hw (by simp) _
      · cases h
    · cases h
  | finish k w result dispatchErr =>
    simp only [childAct] at h
    split at h
    · rename_i c hk
      split at h
      · rename_i invocation hw
        simp only [Option.ite_none_right_eq_some,Option.some.injEq] at h
        obtain ⟨hlock,rfl⟩ := h
        exact finishWorkerAct_ok hi hs hl hlock hk hw (by simp) _
      · cases h
    · cases h
  | mutate mutation =>
    simp only [childAct,Option.ite_none_right_eq_some,Option.some.injEq] at h
    obtain ⟨⟨hlock,-,hclock⟩,rfl⟩ := h
    exact resultAct_ok hi hs hl hlock (by simp) fun target ht => mutationTarget_operation hclock ht
  | decide decision =>
    simp only [childAct,Option.ite_none_right_eq_some,Option.some.injEq] at h
    obtain ⟨⟨huse,-,hclock⟩,rfl⟩ := h
    exact resultAct_ok hi hs hl (hl.idle huse).1 (by simp) fun target ht =>
      decisionTarget_operation hclock ht
  | other target =>
    simp only [childAct] at h
    split at h
    · rename_i hguard
      obtain ⟨hlock,hkeep⟩ := hguard
      cases h
      exact otherAct_ok hs hl hlock hkeep
    · cases h

end Rest
end Flowy
