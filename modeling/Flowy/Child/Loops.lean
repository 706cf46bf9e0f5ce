import Flowy.Child.Invariant

/-! The launch loops of a session against the envelope it has cached, action by action. -/
namespace Flowy

open Fencing
open scoped List

variable {J W : Type}

/-- Workers whose child may still be running: all that did not report success. -/
def pendingWorkers (workers : List Worker) : Nat := workers.countP fun w => w.phase != .succeeded

theorem pendingWorkers_le (workers : List Worker) : pendingWorkers workers ≤ workers.length :=
  List.countP_le_length

/-- The next launch of a loop: there is none, it will be refused, or the loop sees exactly the
launchable children, and only its own workers run any. -/
def LaunchOk (e : ExecutionEnvelope J ChildGroups W) (launch : Launch) : Prop :=
  launch.ids = [] ∨ ∃ g, e.children.get? launch.identity = some g ∧
    launch.maxConcurrency = g.plan.maxConcurrency ∧
    ((∃ id ids, launch.ids = id :: ids ∧ id ∉ launchableChildIDs g) ∨
      (launch.ids = launchableChildIDs g ∧ runningChildren g ≤ pendingWorkers launch.workers))

structure HoldOk (e : ExecutionEnvelope J ChildGroups W) (launch : Launch) (p : PendingLaunch) : Prop where
  groups : p.groups = e.children
  group : e.children.get? launch.identity = some p.group
  child : p.child ∈ p.group.children
  queued : p.child.state = .queued
  asked : p.group.cancelRequested = false
  limit : launch.maxConcurrency = p.group.plan.maxConcurrency
  room : (launch.workers.length : Int) < launch.maxConcurrency
  synced : launchableChildIDs p.group = p.child.spec.id :: launch.ids
  running : runningChildren p.group ≤ pendingWorkers launch.workers

def RunCallOk (e : ExecutionEnvelope J ChildGroups W) : RunCall → Prop
  | .prepared _ | .returned _ _ => True
  | .launching launch => LaunchOk e launch
  | .holding launch p => HoldOk e launch p

structure LaunchesOk (cache : Option (ExecutionEnvelope J ChildGroups W)) (l : Launches) : Prop where
  unloaded : cache = none → l.calls = []
  ok : ∀ e, cache = some e → ∀ (k : Nat) c, l.calls[k]? = some c → RunCallOk e c
  mutex : ∀ (k : Nat) launch p, l.calls[k]? = some (.holding launch p) → l.lock = some k
  idle : l.use = .unused → l.lock = none ∧ l.calls = []

theorem getElem?_set_eq_some {α : Type} {xs : List α} {k j : Nat} {x y : α}
    (h : (xs.set k x)[j]? = some y) : (j = k ∧ y = x) ∨ (j ≠ k ∧ xs[j]? = some y) := by
  rw [List.getElem?_set] at h
  split at h
  · rename_i hkj
    split at h
    · cases h
      exact .inl ⟨hkj.symm,rfl⟩
    · cases h
  · rename_i hkj
    exact .inr ⟨Ne.symm hkj,h⟩

section Loops

variable {e e' : ExecutionEnvelope J ChildGroups W} {l : Launches} {k : Nat}

theorem QuietCommit.refl (e : ExecutionEnvelope J ChildGroups W) : QuietCommit e e :=
  fun _ g hg => ⟨g,hg,.refl g⟩

theorem LaunchOk.quiet {launch : Launch} (h : LaunchOk e launch) (hq : QuietCommit e e') :
    LaunchOk e' launch := by
  rcases h with hnil | ⟨g,hg,hlimit,hcase⟩
  · exact .inl hnil
  obtain ⟨g',hg',hquiet⟩ := hq _ g hg
  have hlimit' : launch.maxConcurrency = g'.plan.maxConcurrency := by rw [hlimit,hquiet.plan]
  rcases hcase with ⟨id,ids,hids,hgone⟩ | ⟨hids,hrun⟩
  · exact .inr ⟨g',hg',hlimit',.inl ⟨id,ids,hids,fun h => hgone (hquiet.sub id h)⟩⟩
  rcases hquiet.head with ⟨hsame,hle⟩ | hhead
  · exact .inr ⟨g',hg',hlimit',.inr ⟨by rw [hids,hsame],hle.trans hrun⟩⟩
  · -- the loop has lost its turn: the first launchable child is gone
    cases hl : launchableChildIDs g with
    | nil => exact .inl (hids.trans hl)
    | cons id rest => exact .inr ⟨g',hg',hlimit',.inl ⟨id,rest,by rw [hids,hl],hhead id rest hl⟩⟩

section Begin

variable [Sha256] {identity id : Text} {ids : List Text} {limit : Int} {policy : ChildFailurePolicy}
  {workers : List Worker} {p : PendingLaunch}

theorem beginChild_mem (h : beginChild e identity id = .ok p) : id ∈ launchableChildIDs p.group := by
  obtain ⟨-,-,-,hc,hid,hcancel,hlaunch⟩ := beginChild_eq_ok h
  rw [launchableChildIDs,if_neg (by simp [hcancel]),← hid]
  exact List.mem_map_of_mem (List.mem_filter.mpr ⟨hc,hlaunch⟩)

theorem LaunchOk.begin (h : LaunchOk e ⟨identity,limit,policy,id :: ids,workers⟩)
    (hb : beginChild e identity id = .ok p) : limit = p.group.plan.maxConcurrency ∧
      launchableChildIDs p.group = id :: ids ∧ runningChildren p.group ≤ pendingWorkers workers := by
  obtain ⟨-,-,hg,-⟩ := beginChild_eq_ok hb
  rcases h with hnil | ⟨g,hg',hlimit,⟨id',ids',hids,hgone⟩ | ⟨hids,hrun⟩⟩
  · cases hnil
  · rw [hg] at hg'
    cases hg'
    cases hids
    exact absurd (beginChild_mem hb) hgone
  · rw [hg] at hg'
    cases hg'
    exact ⟨hlimit,hids.symm,hrun⟩

theorem LaunchOk.holdOk (h : LaunchOk e ⟨identity,limit,policy,id :: ids,workers⟩)
    (hb : beginChild e identity id = .ok p) (hroom : (workers.length : Int) < limit)
    (hplanned : p.child.state ≠ .planned) : HoldOk e ⟨identity,limit,policy,ids,workers⟩ p := by
  obtain ⟨-,hgroups,hg,hc,hid,hcancel,hlaunch⟩ := beginChild_eq_ok hb
  obtain ⟨hlimit,hids,hrun⟩ := h.begin hb
  have hqueued : p.child.state = .queued := by
    simp only [launchable,Bool.or_eq_true,beq_iff_eq] at hlaunch
    exact hlaunch.resolve_left hplanned
  exact ⟨hgroups,hg,hc,hqueued,hcancel,hlimit,hroom,by rw [hids,hid],hrun⟩

end Begin

def OnlyHolds (l : Launches) (k : Nat) : Prop :=
  ∀ (k' : Nat) launch p, l.calls[k']? = some (.holding launch p) → k' = k

theorem LaunchesOk.onlyHolds_of_free {cache : Option (ExecutionEnvelope J ChildGroups W)}
    (h : LaunchesOk cache l) (hlock : l.lock = none) (k : Nat) : OnlyHolds l k := by
  intro k' launch p hk'
  have := h.mutex k' launch p hk'
  rw [hlock] at this
  cases this

theorem LaunchesOk.onlyHolds {cache : Option (ExecutionEnvelope J ChildGroups W)} (h : LaunchesOk cache l)
    {launch : Launch} {p : PendingLaunch} (hk : l.calls[k]? = some (.holding launch p)) : OnlyHolds l k := by
  intro k' launch' p' hk'
  have h1 := h.mutex k launch p hk
  rw [h.mutex k' launch' p' hk'] at h1
  exact Option.some.inj h1

theorem RunCallOk.quiet {c : RunCall} (h : RunCallOk e c) (hq : QuietCommit e e')
    (hc : ∀ launch p, c ≠ .holding launch p) : RunCallOk e' c := by
  cases c with
  | prepared | returned => trivial
  | launching launch => exact LaunchOk.quiet h hq
  | holding launch p => exact absurd rfl (hc launch p)

theorem LaunchesOk.set (h : LaunchesOk (some e) l) (hq : QuietCommit e e') (hk : OnlyHolds l k)
    {c : RunCall} (hc : RunCallOk e' c) (hn : ∀ launch p, c ≠ .holding launch p) :
    LaunchesOk (some e') (l.set k c) := by
  refine ⟨(fun h => by cases h),?_,?_,(fun h => by cases h)⟩
  · rintro _ ⟨⟩ j d hd
    rcases getElem?_set_eq_some hd with ⟨-,rfl⟩ | ⟨hj,hd⟩
    · exact hc
    · refine (h.ok e rfl j d hd).quiet hq fun launch p heq => ?_
      subst heq
      exact hj (hk j launch p hd)
  · intro j launch p hj
    rcases getElem?_set_eq_some hj with ⟨-,heq⟩ | ⟨hne,hj⟩
    · exact absurd heq.symm (hn launch p)
    · exact absurd (hk j launch p hj) hne

theorem LaunchesOk.hold (h : LaunchesOk (some e) l) (hq : QuietCommit e e') (hk : OnlyHolds l k)
    {launch : Launch} {p : PendingLaunch} (hc : HoldOk e' launch p) :
    LaunchesOk (some e') (l.hold k (.holding launch p)) := by
  refine ⟨(fun h => by cases h),?_,?_,(fun h => by cases h)⟩
  · rintro _ ⟨⟩ j d hd
    rcases getElem?_set_eq_some hd with ⟨-,rfl⟩ | ⟨hj,hd⟩
    · exact hc
    · refine (h.ok e rfl j d hd).quiet hq fun launch p heq => ?_
      subst heq
      exact hj (hk j launch p hd)
  · intro j launch' p' hj
    rcases getElem?_set_eq_some hj with ⟨rfl,-⟩ | ⟨hne,hj⟩
    · rfl
    · exact absurd (hk j launch' p' hj) hne

theorem LaunchesOk.keep (h : LaunchesOk (some e) l) (hq : QuietCommit e e') (hlock : l.lock = none)
    {use : SessionUse} (huse : use = .unused → l.use = .unused) :
    LaunchesOk (some e') { l with use := use } := by
  refine ⟨(fun h => by cases h),?_,h.mutex,fun hu => h.idle (huse hu)⟩
  rintro _ ⟨⟩ j d hd
  refine (h.ok e rfl j d hd).quiet hq fun launch p heq => ?_
  subst heq
  have := h.mutex j launch p hd
  rw [hlock] at this
  cases this

theorem LaunchesOk.setCall (h : LaunchesOk (some e) l) {c c' : RunCall} (hk : l.calls[k]? = some c)
    (hc : RunCallOk e c') (hhold : ∀ launch p, c' = .holding launch p → ∃ launch0, c = .holding launch0 p) :
    LaunchesOk (some e) { l with calls := l.calls.set k c' } := by
  refine ⟨(fun h => by cases h),?_,?_,fun hu => ⟨(h.idle hu).1,by simp [(h.idle hu).2]⟩⟩
  · rintro _ ⟨⟩ j d hd
    rcases getElem?_set_eq_some hd with ⟨-,rfl⟩ | ⟨-,hd⟩
    · exact hc
    · exact h.ok e rfl j d hd
  · intro j launch p hj
    rcases getElem?_set_eq_some hj with ⟨rfl,heq⟩ | ⟨-,hj⟩
    · obtain ⟨launch0,hc0⟩ := hhold launch p heq.symm
      exact h.mutex j launch0 p (hc0 ▸ hk)
    · exact h.mutex j launch p hj

end Loops

section Tickets

def spawnedTickets (workers : List Worker) : List Text :=
  (workers.filter fun w => w.phase == .spawned).map fun w => w.invocation.executionID

/-- Launches that are acknowledged but whose dispatcher was not invoked yet. -/
def heldTickets (l : Launches) : List Text := l.calls.flatMap fun c => spawnedTickets c.workers

variable {l : Launches} {k : Nat} {c c' : RunCall} {x : Text}

theorem set_split {α : Type} {xs : List α} {x : α} (h : xs[k]? = some x) :
    ∃ pre post, xs = pre ++ x :: post ∧ ∀ y, xs.set k y = pre ++ y :: post := by
  obtain ⟨hk,hx⟩ := List.getElem?_eq_some_iff.mp h
  refine ⟨xs.take k,xs.drop (k + 1),?_,fun y => ?_⟩
  · rw [← hx,List.getElem_cons_drop,List.take_append_drop]
  · rw [List.set_eq_take_append_cons_drop,if_pos hk]

section FlatMap

variable {α β : Type} {xs : List α} {y y' : α} {f : α → List β} {z : β}

theorem flatMap_set (hk : xs[k]? = some y) (h : f y' <+~ f y) :
    (xs.set k y').flatMap f <+~ xs.flatMap f := by
  obtain ⟨pre,post,hsplit,hset⟩ := set_split hk
  rw [hset,hsplit,List.flatMap_append,List.flatMap_append,List.flatMap_cons,List.flatMap_cons]
  exact (List.Subperm.refl _).append (h.append (.refl _))

theorem flatMap_set_cons (hk : xs[k]? = some y) (h : f y' <+~ z :: f y) :
    (xs.set k y').flatMap f <+~ z :: xs.flatMap f := by
  obtain ⟨pre,post,hsplit,hset⟩ := set_split hk
  rw [hset,hsplit,List.flatMap_append,List.flatMap_append,List.flatMap_cons,List.flatMap_cons]
  exact ((List.Subperm.refl _).append (h.append (.refl _))).trans List.perm_middle.subperm

theorem cons_flatMap_set (hk : xs[k]? = some y) (h : z :: f y' <+~ f y) :
    z :: (xs.set k y').flatMap f <+~ xs.flatMap f := by
  obtain ⟨pre,post,hsplit,hset⟩ := set_split hk
  rw [hset,hsplit,List.flatMap_append,List.flatMap_append,List.flatMap_cons,List.flatMap_cons]
  exact List.perm_middle.symm.subperm.trans ((List.Subperm.refl _).append (h.append (.refl _)))

end FlatMap

theorem heldTickets_set (hk : l.calls[k]? = some c) (h : spawnedTickets c'.workers <+~ spawnedTickets c.workers) :
    (l.calls.set k c').flatMap (fun c => spawnedTickets c.workers) <+~ heldTickets l :=
  flatMap_set hk h

theorem heldTickets_issue (hk : l.calls[k]? = some c)
    (h : spawnedTickets c'.workers <+~ x :: spawnedTickets c.workers) :
    (l.calls.set k c').flatMap (fun c => spawnedTickets c.workers) <+~ x :: heldTickets l :=
  flatMap_set_cons hk h

theorem heldTickets_use (hk : l.calls[k]? = some c)
    (h : x :: spawnedTickets c'.workers <+~ spawnedTickets c.workers) :
    x :: (l.calls.set k c').flatMap (fun c => spawnedTickets c.workers) <+~ heldTickets l :=
  cons_flatMap_set hk h

theorem setWorkers_workers (hw : c.workers ≠ []) (workers : List Worker) :
    (c.setWorkers workers).workers = workers := by
  cases c with
  | prepared identity => exact absurd rfl hw
  | launching | holding | returned => rfl

end Tickets
end Flowy
