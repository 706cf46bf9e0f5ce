import Flowy.Child.Join

/-! Sessions that join: any number of `JoinChildren` calls run beside the other child calls of a
session, and a merge takes as long as it likes. A merge result is committed once, over a settled group
that no commit changed after it was read. -/
namespace Flowy

open Fencing
open scoped List

/-- One `JoinChildren` call; `merging` is inside the callback, `merged` waits for the mutex. -/
inductive JoinCall
  | merging (read : JoinRead)
  | merged (read : JoinRead) (result : Bytes)
  | returned

def JoinCall.read? : JoinCall → Option JoinRead
  | .merging read | .merged read _ => some read
  | .returned => none

structure Joins where
  launches : Launches
  joins : List JoinCall

def Joins.initial : Joins := ⟨.initial,[]⟩

def Joins.called (l : Joins) : Joins := { l with launches := { l.launches with use := .calls } }

def Joins.set (l : Joins) (k : Nat) (c : JoinCall) : Joins := { l with joins := l.joins.set k c }

/-- `leave` is a context that ends between the two sections; the answer of the merge is the host's. -/
inductive JoinAction (J W : Type)
  | child (action : ChildAction J W)
  | enter (expected : ChildGroupRecord)
  | merge (k : Nat) (answer : Result Bytes)
  | leave (k : Nat)
  | publish (k : Nat)

/-- The callback is called with the children of `read` and answers; a call returns the result it has
committed, or the one it found. -/
inductive JoinEvent
  | merged (session : Nat) (read : JoinRead) (answer : Result Bytes)
  | published (session : Nat) (expected : ChildGroupRecord) (result : Bytes)
  | replayed (session : Nat) (expected : ChildGroupRecord) (result : Bytes)

def ChildAction.joins {J W : Type} : ChildAction J W → Bool
  | .mutate (.join _ _) => true
  | _ => false

section Acts

variable [Sha256] {J W : Type}

abbrev JoinAct (J W : Type) := Act (ExecutionEnvelope J ChildGroups W) Joins JoinEvent

def liftChild (joins : List JoinCall) : ChildAct J W → JoinAct J W
  | .move l _ => .move ⟨l,joins⟩ []
  | .commit target acked failed _ => .commit target ⟨acked,joins⟩ ⟨failed,joins⟩ []

def enterAct (i : Nat) (e : ExecutionEnvelope J ChildGroups W) (l : Joins) (expected : ChildGroupRecord) :
    JoinAct J W :=
  match openJoin e expected with
  | .error _ => .move l.called []
  | .ok (.inl result) => .move l.called [.replayed i expected result]
  | .ok (.inr read) => .move { l.called with joins := l.joins ++ [.merging read] } []

def mergeAct (i k : Nat) (l : Joins) (read : JoinRead) (answer : Result Bytes) : JoinAct J W :=
  match answer with
  | .error _ => .move (l.set k .returned) [.merged i read answer]
  | .ok result => .move (l.set k (.merged read result)) [.merged i read answer]

def publishAct (i k : Nat) (e : ExecutionEnvelope J ChildGroups W) (l : Joins) (read : JoinRead)
    (result : Bytes) : JoinAct J W :=
  match publishJoin e read result with
  | .error _ => .move (l.set k .returned) []
  | .ok target => .commit target (l.set k .returned) (l.set k .returned)
      [.published i read.expected result]

/-- The joins of a session go through the sections above; every other action is one of `childAct`. -/
def joinAct (clock : Time → Bool) (a : JoinAction J W) (i : Nat)
    (cache : Option (ExecutionEnvelope J ChildGroups W)) (l : Joins) : Option (JoinAct J W) :=
  match a, cache with
  | .child action, cache =>
    if action.joins then none else (childAct clock action i cache l.launches).map (liftChild l.joins)
  | .enter expected, some e =>
    if l.launches.lock = none ∧ l.launches.use ≠ .resolution then some (enterAct i e l expected) else none
  | .merge k answer, some _ =>
    match l.joins[k]? with
    | some (.merging read) => some (mergeAct i k l read answer)
    | _ => none
  | .leave k, some _ =>
    match l.joins[k]? with
    | some (.merging _) | some (.merged _ _) => some (.move (l.set k .returned) [])
    | _ => none
  | .publish k, some e =>
    match l.joins[k]? with
    | some (.merged read result) =>
      if l.launches.lock = none then some (publishAct i k e l read result) else none
    | _ => none
  | _, none => none

omit [Sha256] in
theorem revision_stamped (J W : Type) : ∀ (n : Nat) (e : ExecutionEnvelope J ChildGroups W),
    { e with revision := n }.revision = n :=
  fun _ _ => rfl

def joinProtocol (J W : Type) (clock : Time → Bool) :
    Protocol (ExecutionEnvelope J ChildGroups W) Joins (JoinAction J W) JoinEvent where
  revision := fun e => e.revision
  stamp := fun n e => { e with revision := n }
  revision_stamp := revision_stamped J W
  fresh := .initial
  act := joinAct clock

inductive JoinMove (clock : Time → Bool) (i : Nat) (cache : Option (ExecutionEnvelope J ChildGroups W))
    (l : Joins) : JoinAct J W → Prop
  | child (action : ChildAction J W) (act : ChildAct J W) (ha : action.joins = false)
      (h : childAct clock action i cache l.launches = some act) :
      JoinMove clock i cache l (liftChild l.joins act)
  | refused (e : ExecutionEnvelope J ChildGroups W) (he : cache = some e) (hlock : l.launches.lock = none) :
      JoinMove clock i cache l (.move l.called [])
  | replays (e : ExecutionEnvelope J ChildGroups W) (expected : ChildGroupRecord) (result : Bytes)
      (he : cache = some e) (hlock : l.launches.lock = none) (h : openJoin e expected = .ok (.inl result)) :
      JoinMove clock i cache l (.move l.called [.replayed i expected result])
  | reads (e : ExecutionEnvelope J ChildGroups W) (read : JoinRead) (he : cache = some e)
      (hlock : l.launches.lock = none) (h : openJoin e read.expected = .ok (.inr read)) :
      JoinMove clock i cache l (.move { l.called with joins := l.joins ++ [.merging read] } [])
  | answers (k : Nat) (read : JoinRead) (result : Bytes) (hk : l.joins[k]? = some (.merging read)) :
      JoinMove clock i cache l (.move (l.set k (.merged read result)) [.merged i read (.ok result)])
  | returns (k : Nat) (events : List JoinEvent)
      (hev : events = [] ∨ ∃ read err, events = [.merged i read (.error err)]) :
      JoinMove clock i cache l (.move (l.set k .returned) events)
  | publishes (e target : ExecutionEnvelope J ChildGroups W) (k : Nat) (read : JoinRead) (result : Bytes)
      (he : cache = some e) (hlock : l.launches.lock = none) (hk : l.joins[k]? = some (.merged read result))
      (h : publishJoin e read result = .ok target) :
      JoinMove clock i cache l (.commit target (l.set k .returned) (l.set k .returned)
        [.published i read.expected result])

theorem joinAct_move {clock : Time → Bool} {a : JoinAction J W} {i : Nat}
    {cache : Option (ExecutionEnvelope J ChildGroups W)} {l : Joins} {act : JoinAct J W}
    (h : joinAct clock a i cache l = some act) : JoinMove clock i cache l act := by
  cases a with
  | child action =>
    simp only [joinAct] at h
    split at h
    · cases h
    · rename_i ha
      obtain ⟨act,hact,rfl⟩ := Option.map_eq_some_iff.mp h
      exact .child action act (by simpa using ha) hact
  | enter expected =>
    cases cache with
    | none => cases h
    | some e =>
      simp only [joinAct,Option.ite_none_right_eq_some,Option.some.injEq] at h
      obtain ⟨⟨hlock,-⟩,rfl⟩ := h
      unfold enterAct
      split
      · exact .refused e rfl hlock
      · rename_i result hopen
        exact .replays e expected result rfl hlock hopen
      · rename_i read hopen
        exact .reads e read rfl hlock ((openJoin_reads hopen).1 ▸ hopen)
  | merge k answer =>
    cases cache with
    | none => cases h
    | some e =>
      simp only [joinAct] at h
      split at h
      · rename_i read hk
        cases h
        unfold mergeAct
        split
        · exact .returns k _ (.inr ⟨read,_,rfl⟩)
        · exact .answers k read _ hk
      · cases h
  | leave k =>
    cases cache with
    | none => cases h
    | some e =>
      simp only [joinAct] at h
      split at h
      · cases h
        exact .returns k [] (.inl rfl)
      · cases h
        exact .returns k [] (.inl rfl)
      · cases h
  | publish k =>
    cases cache with
    | none => cases h
    | some e =>
      simp only [joinAct] at h
      split at h
      · rename_i read result hk
        simp only [Option.ite_none_right_eq_some,Option.some.injEq] at h
        obtain ⟨hlock,rfl⟩ := h
        unfold publishAct
        split
        · exact .returns k [] (.inl rfl)
        · rename_i target hp
          exact .publishes e target k read result rfl hlock hk hp
      · cases h

end Acts

section Runs

variable {J W : Type} [Sha256] {clock : Time → Bool} {i : Nat} {e t : ExecutionEnvelope J ChildGroups W}

structure ReadOk (e : ExecutionEnvelope J ChildGroups W) (read : JoinRead) : Prop where
  le : read.revision ≤ e.revision
  current : read.revision = e.revision → openJoin e read.expected = .ok (.inr read)

structure JoinSession (i : Nat) (cache : Option (ExecutionEnvelope J ChildGroups W)) (l : Joins) : Prop where
  child : ChildSession i cache l.launches
  unloaded : cache = none → l.joins = []
  reads : ∀ e, cache = some e → ∀ c ∈ l.joins, ∀ read, c.read? = some read → ReadOk e read

theorem ReadOk.newer {e' : ExecutionEnvelope J ChildGroups W} {read : JoinRead} (h : ReadOk e read)
    (hlt : e.revision < e'.revision) : ReadOk e' read := by
  have := h.le
  exact ⟨by omega,fun heq => by omega⟩

theorem JoinSession.set {cache : Option (ExecutionEnvelope J ChildGroups W)} {l : Joins} {k : Nat}
    {c : JoinCall} (h : JoinSession i cache l)
    (hc : ∀ read, c.read? = some read → ∃ c' ∈ l.joins, c'.read? = some read) : JoinSession i cache (l.set k c) := by
  refine ⟨h.child,fun hnone => ?_,fun e he c' hc' read hread => ?_⟩
  · simp [Joins.set,h.unloaded hnone]
  · rcases List.mem_or_eq_of_mem_set hc' with hc' | rfl
    · exact h.reads e he c' hc' read hread
    · obtain ⟨c0,hc0,hread0⟩ := hc read hread
      exact h.reads e he c0 hc0 read hread0

theorem JoinSession.called {l : Joins} (h : JoinSession i (some e) l) (hlock : l.launches.lock = none) :
    JoinSession i (some e) l.called :=
  ⟨⟨h.child.positive,h.child.launches.keep (.refl e) hlock (by simp)⟩,h.unloaded,h.reads⟩

theorem JoinSession.advance {cache : Option (ExecutionEnvelope J ChildGroups W)} {l : Joins} {la : Launches}
    {e' : ExecutionEnvelope J ChildGroups W} (h : JoinSession i cache l)
    (hnew : ∀ e, cache = some e → e.revision < e'.revision) (hla : ChildSession i (some e') la) :
    JoinSession i (some e') ⟨la,l.joins⟩ := by
  refine ⟨hla,(fun h => by cases h),?_⟩
  rintro _ ⟨⟩ c hc read hread
  cases cache with
  | none =>
    rw [h.unloaded rfl] at hc
    cases hc
  | some e => exact (h.reads e rfl c hc read hread).newer (hnew e rfl)

theorem JoinSession.current {l : Joins} (hJ : JoinSession i (some e) l) {k : Nat} {read : JoinRead}
    {result : Bytes} (hk : l.joins[k]? = some (.merged read result)) (h : publishJoin e read result = .ok t) :
    openJoin e read.expected = .ok (.inr read) :=
  (hJ.reads e rfl _ (List.mem_of_getElem? hk) read rfl).current (publishJoin_eq_ok h).symm

theorem publish_ok (hs : SoundGroups e) {l : Joins} (hJ : JoinSession i (some e) l)
    (hlock : l.launches.lock = none) {k : Nat} {read : JoinRead} {result : Bytes}
    (hk : l.joins[k]? = some (.merged read result)) (h : publishJoin e read result = .ok t) :
    CommitOk clock i e l.launches t l.launches l.launches [] :=
  .of_quiet hJ.child.positive hs (publishJoin_operation (hJ.current hk h) h) (by simp)
    (fun _ hq _ => hJ.child.launches.keep hq hlock id) hJ.child.launches (.refl _) (.refl _)

theorem joinRule : Rule (joinProtocol J W clock) SoundGroups JoinSession (ChildLink clock) where
  fresh i hi := ⟨(childRule : Rule (childProtocol J W clock) _ _ _).fresh i hi,fun _ => rfl,
    (fun _ h => by cases h)⟩
  load i l e hK hJ := by
    refine ⟨(childRule : Rule (childProtocol J W clock) _ _ _).load i _ e hK hJ.child,(fun h => by cases h),
      fun _ _ c hc => ?_⟩
    rw [hJ.unloaded rfl] at hc
    cases hc
  move a i c l l' ev hK hJ ha := by
    generalize hact : Act.move l' ev = act at ha
    cases joinAct_move ha with
    | child action act hjoin h =>
      cases act with
      | commit => cases hact
      | move l0 ev0 =>
        cases hact
        exact ⟨childRule.move action i c _ _ _ hK hJ.child h,hJ.unloaded,hJ.reads⟩
    | refused e he hlock =>
      cases hact
      subst he
      exact hJ.called hlock
    | replays e expected result he hlock h =>
      cases hact
      subst he
      exact hJ.called hlock
    | reads e read he hlock h =>
      cases hact
      subst he
      refine ⟨(hJ.called hlock).child,(fun h => by cases h),?_⟩
      rintro _ ⟨⟩ c hc read' hread'
      rcases List.mem_append.mp hc with hc | hc
      · exact hJ.reads e rfl c hc read' hread'
      · cases List.mem_singleton.mp hc
        cases hread'
        exact ⟨(openJoin_reads h).2.revision.le,fun _ => h⟩
    | answers k read result hk =>
      cases hact
      exact hJ.set fun read' hread' => ⟨_,List.mem_of_getElem? hk,hread'⟩
    | returns k events hev =>
      cases hact
      exact hJ.set fun read' hread' => by cases hread'
    | publishes => cases hact
  commit a i c l la lf t ev hK hJ ha := by
    generalize hact : Act.commit t la lf ev = act at ha
    cases joinAct_move ha with
    | child action act hjoin h =>
      cases act with
      | move => cases hact
      | commit t0 la0 lf0 ev0 =>
        cases hact
        obtain ⟨hR,hacked,hfailed⟩ := childRule.commit action i c _ _ _ _ _ hK hJ.child h
        refine ⟨hR,hJ.advance (fun e he => ?_) hacked,hfailed,hJ.unloaded,hJ.reads⟩
        subst he
        exact Nat.lt_succ_self _
    | publishes e target k read result he hlock hk h =>
      cases hact
      subst he
      have hcommit : CommitOk clock i e l.launches t l.launches l.launches [] :=
        publish_ok (hK e rfl) hJ hlock hk h
      have hset := hJ.set (k := k) (c := .returned) fun read' hread' => by cases hread'
      exact ⟨hcommit.link,hset.advance (fun e' he' => by cases he'; exact Nat.lt_succ_self _)
        ⟨hJ.child.positive,hcommit.acked⟩,hset⟩
    | refused | replays | reads | answers | returns => cases hact
  first e hR := childRule.first e hR
  next e e' hK hR := childRule.next e e' hK hR

theorem joinEvidence : Evidence (joinProtocol J W clock) fun i l v =>
    ∃ read result, JoinCall.merged read result ∈ l.joins ∧ v = .merged i read (.ok result) where
  fresh i v := by
    rintro ⟨read,result,hmem,-⟩
    cases hmem
  move a i c l l' ev v ha hv := by
    obtain ⟨read,result,hmem,rfl⟩ := hv
    generalize hact : Act.move l' ev = act at ha
    cases joinAct_move ha with
    | child action act hjoin h =>
      cases act with
      | commit => cases hact
      | move => cases hact; exact .inl ⟨read,result,hmem,rfl⟩
    | refused | replays => cases hact; exact .inl ⟨read,result,hmem,rfl⟩
    | reads e read' he hlock h =>
      cases hact
      rcases List.mem_append.mp hmem with hmem | hmem
      · exact .inl ⟨read,result,hmem,rfl⟩
      · cases List.mem_singleton.mp hmem
    | answers k read' result' hk =>
      cases hact
      rcases List.mem_or_eq_of_mem_set hmem with hmem | heq
      · exact .inl ⟨read,result,hmem,rfl⟩
      · cases heq
        exact .inr List.mem_cons_self
    | returns k events hev =>
      cases hact
      rcases List.mem_or_eq_of_mem_set hmem with hmem | heq
      · exact .inl ⟨read,result,hmem,rfl⟩
      · cases heq
    | publishes => cases hact
  commit a i c l la lf t ev v ha := by
    generalize hact : Act.commit t la lf ev = act at ha
    cases joinAct_move ha with
    | child action act hjoin h =>
      cases act with
      | move => cases hact
      | commit => cases hact; exact ⟨.inl,id⟩
    | publishes e target k read' result' he hlock hk h =>
      cases hact
      have hold : ∀ {v : JoinEvent}, (∃ read result, JoinCall.merged read result ∈ (l.set k .returned).joins ∧
          v = .merged i read (.ok result)) → ∃ read result, JoinCall.merged read result ∈ l.joins ∧
            v = .merged i read (.ok result) := by
        rintro v ⟨read,result,hmem,rfl⟩
        rcases List.mem_or_eq_of_mem_set hmem with hmem | heq
        · exact ⟨read,result,hmem,rfl⟩
        · cases heq
      exact ⟨fun hv => .inl (hold hv),hold⟩
    | refused | replays | reads | answers | returns => cases hact

end Runs

section Children

variable {J W : Type} [Sha256] {clock : Time → Bool} {i k : Nat} {e t : ExecutionEnvelope J ChildGroups W}
  {l la lf : Launches} {ev : List (Ticket Text)}

theorem launchAct_mergesNothing (hs : SoundGroups e) {launch : Launch} {p : PendingLaunch}
    (hp : HoldOk e launch p) (h : launchAct i k e l launch p = .commit t la lf ev) : MergesNothing e t := by
  unfold launchAct at h
  dsimp only at h
  split at h
  · cases h
  · rename_i target ht
    cases h
    have hop : ChildOperation (fun _ => true) i e launch.identity (.launch p.child.spec.id) t :=
      .run launch.identity p t hp.groups hp.group hp.child hp.queued hp.asked ht
    exact hop.mergesNothing hs (by simp)

theorem finishWorkerAct_mergesNothing (hs : SoundGroups e) {w : Nat} {c : RunCall} {worker : Worker}
    {result : ChildResult} (h : finishWorkerAct i k w e l c worker result = .commit t la lf ev) :
    MergesNothing e t := by
  unfold finishWorkerAct at h
  split at h
  · cases h
  · rename_i target ht
    cases h
    have hop : ChildOperation (fun _ => true) i e c.identity (.child worker.invocation.childID) t :=
      .finish _ _ _ _ ht
    exact hop.mergesNothing hs (by simp)

omit [Sha256] in
theorem resultAct_target {r : Result (Option (ExecutionEnvelope J ChildGroups W))} {l0 : Launches}
    (h : resultAct r l0 = .commit t la lf ev) : r = .ok (some t) := by
  unfold resultAct proposeAct at h
  split at h
  · cases h
  · split at h
    · cases h
    · cases h
      rfl

theorem childAct_mergesNothing (hs : SoundGroups e) (hl : LaunchesOk (some e) l) {a : ChildAction J W}
    (ha : a.joins = false) (h : childAct clock a i (some e) l = some (.commit t la lf ev)) :
    MergesNothing e t := by
  cases a with
  | prepare plan available =>
    simp only [childAct,Option.ite_none_right_eq_some,Option.some.injEq] at h
    obtain ⟨-,h⟩ := h
    unfold prepareAct proposeAct at h
    split at h
    · cases h
    · rename_i g target hp
      split at h
      · cases h
      · cases h
        exact prepareChildren_mergesNothing hs hp
  | recover k =>
    simp only [childAct] at h
    split at h
    · rename_i identity hk
      simp only [Option.ite_none_right_eq_some,Option.some.injEq] at h
      obtain ⟨-,h⟩ := h
      unfold recoverAct proposeAct at h
      split at h
      · cases h
      · rename_i r hr
        dsimp only at h
        split at h
        · cases h
        · rename_i target ht
          cases h
          exact recoverChildLaunches_mergesNothing hs hr ht
    · cases h
  | begin k =>
    simp only [childAct] at h
    split at h
    · rename_i identity limit policy id ids workers hk
      simp only [Option.ite_none_right_eq_some,Option.some.injEq] at h
      obtain ⟨⟨hlock,hroom⟩,h⟩ := h
      unfold beginAct at h
      split at h
      · cases h
      · rename_i p hb
        split at h
        · rename_i hplanned
          dsimp only at h
          split at h
          · cases h
          · rename_i target ht
            cases h
            have hop : ChildOperation clock i e identity (.child id) t := .queue identity id p t hb hplanned ht
            exact hop.mergesNothing hs (by simp)
        · rename_i hplanned
          exact launchAct_mergesNothing hs ((hl.ok e rfl k _ hk).holdOk hb hroom hplanned) h
    · cases h
  | run k =>
    simp only [childAct] at h
    split at h
    · rename_i launch p hk
      exact launchAct_mergesNothing hs (hl.ok e rfl k _ hk) (Option.some.inj h)
    · cases h
  | stop k =>
    simp only [childAct] at h
    split at h <;> cases h
  | receive k w =>
    simp only [childAct] at h
    split at h
    · split at h <;> cases h
    · cases h
  | dispatch k w =>
    simp only [childAct] at h
    split at h
    · split at h <;> cases h
    · cases h
  | skip k w err =>
    simp only [childAct] at h
    split at h
    · split at h
      · simp only [Option.ite_none_right_eq_some,Option.some.injEq] at h
        exact finishWorkerAct_mergesNothing hs h.2
      · cases h
    · cases h
  | finish k w result dispatchErr =>
    simp only [childAct] at h
    split at h
    · split at h
      · simp only [Option.ite_none_right_eq_some,Option.some.injEq] at h
        exact finishWorkerAct_mergesNothing hs h.2
      · cases h
    · cases h
  | mutate mutation =>
    simp only [childAct,Option.ite_none_right_eq_some,Option.some.injEq] at h
    obtain ⟨⟨-,-,hclock⟩,h⟩ := h
    have ht := resultAct_target h
    cases mutation with
    | join => cases ha
    | cancel expected request now =>
      obtain ⟨⟨g,-⟩,hr,rfl⟩ := map_eq_ok.mp ht
      exact requestChildCancellation_mergesNothing hs hr
    | credit expected claim now =>
      obtain ⟨⟨g,-⟩,hr,rfl⟩ := map_eq_ok.mp ht
      have hop : ChildOperation clock i e _ (.child claim.childID) t := .credit expected g claim now t hclock hr
      exact hop.mergesNothing hs (by simp)
  | decide decision =>
    simp only [childAct,Option.ite_none_right_eq_some,Option.some.injEq] at h
    obtain ⟨⟨-,-,hclock⟩,h⟩ := h
    have ht := resultAct_target h
    cases decision with
    | confirm decision now =>
      obtain ⟨t,hr,⟨⟩⟩ := map_eq_ok.mp ht
      have hop : ChildOperation clock i e _ (.child decision.childID) t := .confirm decision now t hclock hr
      exact hop.mergesNothing hs (by simp)
    | wait resolution now =>
      obtain ⟨t,hr,⟨⟩⟩ := map_eq_ok.mp ht
      have hop : ChildOperation clock i e _ (.child resolution.childID) t := .wait resolution now t hclock hr
      exact hop.mergesNothing hs (by simp)
    | outcome resolution now =>
      have hop : ChildOperation clock i e _ (.child resolution.childID) t := .outcome resolution now t hclock ht
      exact hop.mergesNothing hs (by simp)
  | other target =>
    simp only [childAct,Option.ite_none_right_eq_some,Option.some.injEq] at h
    obtain ⟨⟨-,hkeep⟩,h⟩ := h
    cases h
    intro identity g' hg' hne
    exact ⟨g',(keepsChildGroups_children hkeep ▸ hg' :),hne⟩

end Children

section Once

variable {J W : Type} [Sha256] {clock : Time → Bool} {e e' : ExecutionEnvelope J ChildGroups W}
  {identity : Text} {g : ChildGroupRecord} {read : JoinRead} {result : Bytes}

def ChildGroupRecord.merge (g : ChildGroupRecord) (result : Bytes) : ChildGroupRecord :=
  { g with mergedIDs := g.children.map fun c => c.spec.id, mergedResult := result }

/-- `e'` follows `e` by the merge of one group: the call read this very envelope, found the group it was
asked for, and every child of it was settled. -/
structure MergeCommit (e e' : ExecutionEnvelope J ChildGroups W) (identity : Text) (g : ChildGroupRecord)
    (read : JoinRead) (result : Bytes) : Prop where
  address : read.expected.identity = identity
  revision : read.revision = e.revision
  group : e.children.get? identity = some g
  seen : read.group = g
  asserted : childGroupEncoding g = childGroupEncoding read.expected
  fresh : g.mergedIDs = []
  settled : ∀ c ∈ g.children, settledChild c = true
  ascending : (g.children.map fun c => c.spec.id).Pairwise fun a b => a < b
  published : e'.children.get? identity = some (g.merge result)

theorem FollowsPlan.ascending (h : FollowsPlan g) :
    (g.children.map fun c => c.spec.id).Pairwise fun a b => a < b := by
  obtain ⟨base,hbase,hids⟩ := h.planned_ids
  rw [hids,List.pairwise_map]
  exact (planChildGroup_inOrder hbase).ascending

theorem AdmittedGroups.follows (h : AdmittedGroups e) (hg : e.children.get? identity = some g) : FollowsPlan g :=
  (admittedChildGroup_iff.mp (h.admitted identity g hg)).2.1

theorem FollowsPlan.nonempty (h : FollowsPlan g) : g.children ≠ [] := by
  obtain ⟨base,hbase,hids⟩ := h.planned_ids
  obtain ⟨-,specs,hspecs⟩ := planChildGroup_eq_ok hbase
  intro hnil
  rw [hnil,hspecs.children,List.map_nil,List.map_map] at hids
  exact hspecs.nonempty (List.map_eq_nil_iff.mp hids.symm)

omit [Sha256] in
theorem JoinOk.unmerged (h : JoinOk g) (hm : g.unmerged = true) : g.mergedIDs = [] := by
  by_contra hne
  rw [ChildGroupRecord.unmerged,h.ids hne] at hm
  simp at hm

theorem publishJoin_commit (hs : SoundGroups e) (hok : JoinsOk e)
    (hread : openJoin e read.expected = .ok (.inr read)) (h : publishJoin e read result = .ok e') :
    MergeCommit e e' read.expected.identity read.group read result := by
  obtain ⟨-,hr⟩ := openJoin_reads hread
  refine ⟨rfl,hr.revision,hr.group,rfl,hr.asserted,(hok _ _ hr.group).unmerged hr.unmerged,hr.settled,
    (hr.admitted.follows hr.group).ascending,?_⟩
  rw [publishJoin_target hr h,hs.get?_putGroup,if_pos rfl]
  have hsame := congrArg ChildGroupRecord.children (hs _ _ hr.group).reread
  simp only [ChildGroupRecord.reread] at hsame
  simp only [ChildGroupRecord.reread,ChildGroupRecord.merge,hsame]

variable {s : State (ExecutionEnvelope J ChildGroups W) Joins JoinEvent}

theorem joins_ok (h : Reachable (joinProtocol J W clock) s) : ∀ e ∈ s.log, JoinsOk e := by
  have hall := joinRule.reachable h
  refine hall.linked.forall ?_ ?_
  · intro e _ hR identity g hg
    rw [createsNoGroups_children hR.2] at hg
    cases hg
  · exact fun e he e' _ hok hR => hR.step.joinsOk (hall.entry e he) hok

theorem merge_explained (h : Reachable (joinProtocol J W clock) s) :
    Linked (fun c e' => ∀ e, c = some e → ∀ identity g', e'.children.get? identity = some g' →
      g'.mergedIDs ≠ [] → (∃ g, e.children.get? identity = some g ∧ g.mergedIDs ≠ []) ∨
        ∃ i g read result, .merged i read (.ok result) ∈ s.trace ∧
          MergeCommit e e' identity g read result) s.log := by
  refine h.linked_trace (R := fun tr c e' => ∀ e, c = some e → ∀ identity g',
    e'.children.get? identity = some g' → g'.mergedIDs ≠ [] →
      (∃ g, e.children.get? identity = some g ∧ g.mergedIDs ≠ []) ∨
        ∃ i g read result, JoinEvent.merged i read (.ok result) ∈ tr ∧
          MergeCommit e e' identity g read result) ?_ ?_
  · intro tr ev c e' hR e he identity g' hg' hne
    refine (hR e he identity g' hg' hne).imp id ?_
    rintro ⟨i,g,read,result,hmem,hcommit⟩
    exact ⟨i,g,read,result,List.mem_append_left _ hmem,hcommit⟩
  · intro s a i c l la lf t ev hr hs hact hok e he identity g' hg' hne
    subst he
    have hall := joinRule.reachable hr
    have hmem := hr.sound.cached i _ e hs rfl
    have hK := hall.entry e hmem
    have hJ := hall.session i _ hs
    change t.children.get? identity = some g' at hg'
    generalize hprop : Act.commit t la lf ev = act at hact
    cases joinAct_move hact with
    | child action act hjoin h =>
      cases act with
      | move => cases hprop
      | commit =>
        cases hprop
        exact .inl (childAct_mergesNothing hK hJ.child.launches hjoin h identity g' hg' hne)
    | publishes e0 target k read result he hlock hk h =>
      cases hprop
      cases he
      have hread := hJ.current hk h
      have hcommit := publishJoin_commit hK (joins_ok hr e hmem) hread h
      by_cases heq : identity = read.expected.identity
      · subst heq
        have hv := joinEvidence.reachable hr i _ (.merged i read (.ok result)) hs
          ⟨read,result,List.mem_of_getElem? hk,rfl⟩
        exact .inr ⟨i,_,read,result,hv,{ hcommit with }⟩
      · rw [publishJoin_target (openJoin_reads hread).2 h,hK.get?_putGroup,if_neg heq] at hg'
        exact .inl ⟨g',hg',hne⟩
    | refused | replays | reads | answers | returns => cases hprop

theorem join_kept (h : Reachable (joinProtocol J W clock) s) {k n : Nat} (hle : k ≤ n) (hk : s.log[k]? = some e)
    (hn : s.log[n]? = some e') (hg : e.children.get? identity = some g) (hne : g.mergedIDs ≠ []) :
    ∃ g', e'.children.get? identity = some g' ∧ SameJoin g g' := by
  have hall := joinRule.reachable h
  rcases Nat.lt_or_ge k n with hlt | hge
  · refine (hall.linked.trans (T := fun e e' => (SoundGroups e ∧ JoinsOk e) → (SoundGroups e' ∧ JoinsOk e') ∧
      ∀ identity g, e.children.get? identity = some g → g.mergedIDs ≠ [] →
        ∃ g', e'.children.get? identity = some g' ∧ SameJoin g g') ?_ ?_ hk hn hlt
      ⟨hall.entry e (List.mem_of_getElem? hk),joins_ok h e (List.mem_of_getElem? hk)⟩).2 identity g hg hne
    · rintro e e' hR ⟨hs,hok⟩
      exact ⟨⟨hR.sound,hR.step.joinsOk hs hok⟩,fun identity g hg hne => hR.step.sameJoin hs hok hg hne⟩
    · intro e e' e'' h1 h2 hK
      obtain ⟨hK',hkeep⟩ := h1 hK
      obtain ⟨hK'',hkeep'⟩ := h2 hK'
      refine ⟨hK'',fun identity g hg hne => ?_⟩
      obtain ⟨g',hg',hsame⟩ := hkeep identity g hg hne
      obtain ⟨g'',hg'',hsame'⟩ := hkeep' identity g' hg' (hsame.ids ▸ hne)
      exact ⟨g'',hg'',hsame.trans hsame'⟩
  · obtain rfl : k = n := by omega
    rw [hk] at hn
    cases hn
    exact ⟨g,hg,.refl g⟩

theorem merge_committed (h : Reachable (joinProtocol J W clock) s) {n : Nat} {g' : ChildGroupRecord}
    (hn : s.log[n]? = some e') (hg' : e'.children.get? identity = some g') (hne : g'.mergedIDs ≠ []) :
    ∃ k e e1 i g read result, k < n ∧ s.log[k]? = some e ∧ s.log[k+1]? = some e1 ∧
      .merged i read (.ok result) ∈ s.trace ∧ MergeCommit e e1 identity g read result ∧
      SameJoin (g.merge result) g' := by
  have hall := joinRule.reachable h
  induction n generalizing e' g' with
  | zero =>
    obtain ⟨post,hlog⟩ : ∃ post, s.log = [] ++ e' :: post := by
      cases hs : s.log with
      | nil => simp [hs] at hn
      | cons e post =>
        simp only [hs,List.getElem?_cons_zero,Option.some.injEq] at hn
        exact ⟨post,by rw [hn]; rfl⟩
    have hempty := hall.linked [] e' post hlog
    rw [createsNoGroups_children hempty.2] at hg'
    cases hg'
  | succ n ih =>
    have hlen := (List.getElem?_eq_some_iff.mp hn).1
    have hprev : s.log[n]? = some s.log[n] := List.getElem?_eq_getElem (by omega)
    rcases (merge_explained h).next hprev hn _ rfl identity g' hg' hne with ⟨g0,hg0,hne0⟩ |
      ⟨i,g,read,result,hev,hcommit⟩
    · obtain ⟨k,e,e1,i,g,read,result,hk,he,he1,hev,hcommit,hsame⟩ := ih hprev hg0 hne0
      obtain ⟨g1,hg1,hsame1⟩ := join_kept h (Nat.le_succ n) hprev hn hg0 hne0
      rw [hg'] at hg1
      cases hg1
      exact ⟨k,e,e1,i,g,read,result,by omega,he,he1,hev,hcommit,hsame.trans hsame1⟩
    · have hsame : g' = g.merge result := Option.some.inj (hg'.symm.trans hcommit.published)
      exact ⟨n,_,e',i,g,read,result,Nat.lt_succ_self n,hprev,hn,hev,hcommit,hsame ▸ .refl _⟩

theorem join_kept_mem (h : Reachable (joinProtocol J W clock) s) (he : e ∈ s.log) (he' : e' ∈ s.log)
    {g' : ChildGroupRecord} (hg : e.children.get? identity = some g) (hne : g.mergedIDs ≠ [])
    (hg' : e'.children.get? identity = some g') (hne' : g'.mergedIDs ≠ []) :
    g'.mergedResult = g.mergedResult := by
  obtain ⟨k,hk⟩ := List.getElem?_of_mem he
  obtain ⟨n,hn⟩ := List.getElem?_of_mem he'
  rcases Nat.le_total k n with hle | hle
  · obtain ⟨g1,hg1,hsame⟩ := join_kept h hle hk hn hg hne
    rw [hg'] at hg1
    cases hg1
    exact hsame.result
  · obtain ⟨g1,hg1,hsame⟩ := join_kept h hle hn hk hg' hne'
    rw [hg] at hg1
    cases hg1
    exact hsame.result.symm

theorem publish_fresh (h : Reachable (joinProtocol J W clock) s) {i k : Nat} {l : Joins}
    {t : ExecutionEnvelope J ChildGroups W} (hs : s.session i = some ⟨some e',l⟩)
    (hk : l.joins[k]? = some (.merged read result)) (hp : publishJoin e' read result = .ok t)
    (hok : Accepts (joinProtocol J W clock) s i (some e')) (he : e ∈ s.log)
    (hg : e.children.get? read.expected.identity = some g) : g.mergedIDs = [] := by
  by_contra hne
  have hall := joinRule.reachable h
  have hlast := h.sound.cache_eq_last hs hok
  have hmem := List.mem_of_getLast? hlast.symm
  rw [List.getLast?_eq_getElem?] at hlast
  obtain ⟨n,hn⟩ := List.getElem?_of_mem he
  have hlen := (List.getElem?_eq_some_iff.mp hn).1
  obtain ⟨g',hg',hsame⟩ := join_kept h (show n ≤ s.log.length - 1 by omega) hn hlast.symm hg hne
  have hcommit := publishJoin_commit (hall.entry e' hmem) (joins_ok h e' hmem)
    ((hall.session i _ hs).current hk hp) hp
  rw [hcommit.group] at hg'
  cases hg'
  exact hne (hsame.ids.symm.trans hcommit.fresh)

theorem replay_merged {expected : ChildGroupRecord} (h : openJoin e expected = .ok (.inl result)) :
    ∃ g, e.children.get? expected.identity = some g ∧ g.mergedIDs ≠ [] ∧ g.mergedResult = result := by
  obtain ⟨hadm,g,hg,hm,hresult⟩ := openJoin_replays h
  refine ⟨g,hg,fun hnil => (hadm.follows hg).nonempty ?_,hresult⟩
  have hlen : g.mergedIDs.length = g.children.length := by simpa [ChildGroupRecord.unmerged] using hm
  exact List.length_eq_zero_iff.mp (by rw [← hlen,hnil,List.length_nil])

/-- One merge over a stable settled group. `later` is about every step taken once a group is merged: no
call publishes another result for it, and a call that returns without its merge returns the same bytes. -/
structure MergedOnce (clock : Time → Bool) (s : State (ExecutionEnvelope J ChildGroups W) Joins JoinEvent) :
    Prop where
  committed : ∀ (n : Nat) e' identity g', s.log[n]? = some e' → e'.children.get? identity = some g' →
    g'.mergedIDs ≠ [] → ∃ k e e1 i g read result, k < n ∧ s.log[k]? = some e ∧ s.log[k+1]? = some e1 ∧
      .merged i read (.ok result) ∈ s.trace ∧ MergeCommit e e1 identity g read result ∧
      SameJoin (g.merge result) g'
  kept : ∀ (k n : Nat) e e' identity g, k ≤ n → s.log[k]? = some e → s.log[n]? = some e' →
    e.children.get? identity = some g → g.mergedIDs ≠ [] →
    ∃ g', e'.children.get? identity = some g' ∧ SameJoin g g'
  later : ∀ e ∈ s.log, ∀ identity g, e.children.get? identity = some g → g.mergedIDs ≠ [] →
    ∀ t ev, Step (joinProtocol J W clock) s t → t.trace = s.trace ++ ev → ∀ i expected result,
      expected.identity = identity → .published i expected result ∉ ev ∧
        (.replayed i expected result ∈ ev → result = g.mergedResult)

theorem children_merged_once (h : Reachable (joinProtocol J W clock) s) : MergedOnce clock s := by
  refine ⟨fun n e' identity g' hn hg' hne => merge_committed h hn hg' hne,
    fun k n e e' identity g hle hk hn hg hne => join_kept h hle hk hn hg hne,?_⟩
  intro e he identity g hg hne t ev hst htrace i expected result hid
  subst hid
  cases hst with
  | acquire | drop | load | lost | fail =>
    have hev : ev = [] := List.self_eq_append_right.mp htrace
    simp [hev]
  | move a j c l l' ev' hs ha =>
    obtain rfl : ev' = ev := List.append_cancel_left htrace
    generalize hact : Act.move l' ev' = act at ha
    cases joinAct_move ha with
    | child action act hjoin hc =>
      cases act with
      | commit => cases hact
      | move => cases hact; simp
    | refused | reads => cases hact; simp
    | answers => cases hact; simp
    | returns k events hev =>
      cases hact
      rcases hev with rfl | ⟨read,err,rfl⟩ <;> simp
    | replays e0 expected' result' he0 hlock hopen =>
      cases hact
      subst he0
      refine ⟨by simp,fun hmem => ?_⟩
      cases List.mem_singleton.mp hmem
      obtain ⟨g0,hg0,hne0,hresult⟩ := replay_merged hopen
      rw [← hresult]
      exact join_kept_mem h he (h.sound.cached _ _ e0 hs rfl) hg hne hg0 hne0
    | publishes => cases hact
  | ack a j c l la lf e1 ev' hs ha hok =>
    obtain rfl : ev' = ev := List.append_cancel_left htrace
    generalize hact : Act.commit e1 la lf ev' = act at ha
    cases joinAct_move ha with
    | child action act hjoin hc =>
      cases act with
      | move => cases hact
      | commit => cases hact; simp
    | publishes e0 target k read result' he0 hlock hk hp =>
      cases hact
      subst he0
      refine ⟨fun hmem => ?_,by simp⟩
      cases List.mem_singleton.mp hmem
      exact hne (publish_fresh h hs hk hp hok he hg)
    | refused | replays | reads | answers | returns => cases hact

end Once

section Example

attribute [local instance] Sha256.hex

def settledScript : List (Command (JoinAction (GoMap Text Unit) (GoMap Text Unit))) :=
  .acquire :: ([.other sampleStart,.prepare samplePlan ∅,.recover 0,.begin 0,.run 0,.dispatch 0 0,
    .finish 0 0 ⟨.completed,[],[],[]⟩ none,.receive 0 0,.begin 0,.run 0,.dispatch 0 0,
    .finish 0 0 ⟨.failed,[],ascii "e",[]⟩ none].map fun a => .act 1 (.child a))

def sampleGroup (s : State SampleEnvelope Joins JoinEvent) : Option ChildGroupRecord :=
  s.log.getLast?.bind fun e => e.children.get? (childExecutionIdentity (ascii "x") (ascii "n") 1 (ascii "g") [])

def joinScript : List (Command (JoinAction (GoMap Text Unit) (GoMap Text Unit))) :=
  let run := (joinProtocol (GoMap Text Unit) (GoMap Text Unit) fun _ => true).script
  let settled := ((run settledScript).bind sampleGroup).getD .zero
  settledScript ++ ([.enter settled,.merge 0 (.ok [7]),.publish 0,.enter (settled.merge [7])].map fun a =>
    .act 1 a)

theorem joinScript_result :
    ((joinProtocol (GoMap Text Unit) (GoMap Text Unit) fun _ => true).script joinScript).map (fun s =>
      ((sampleGroup s).map fun g => (g.mergedIDs,g.mergedResult),s.trace.length)) =
      some (some ([ascii "a",ascii "b"],[7]),3) := by
  decide +kernel

theorem children_merged_once_in_turn : ∃ s : State SampleEnvelope Joins JoinEvent,
    (sampleGroup s).map (fun g => (g.mergedIDs,g.mergedResult)) = some ([ascii "a",ascii "b"],[7]) ∧
      s.trace.length = 3 ∧ MergedOnce (fun _ => true) s := by
  obtain ⟨s,hs,hres⟩ := Option.map_eq_some_iff.mp joinScript_result
  obtain ⟨hgroup,htrace⟩ := Prod.ext_iff.mp hres
  exact ⟨s,hgroup,htrace,children_merged_once (.of_script hs)⟩

end Example
end Flowy
