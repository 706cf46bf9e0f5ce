import Flowy.Child.Cancellation

/-! Cancellation over whole runs: a request is permanent, it stops every launch, and a dispatcher that
was running when it was committed still delivers its outcome once. -/
namespace Flowy

open Fencing

variable {J W : Type}

section Entries

variable [Sha256] {clock : Time → Bool} {i : Nat} {e e' t : ExecutionEnvelope J ChildGroups W}

theorem PlannedGroup.cancelOk {g : ChildGroupRecord} {specs : List ChildSpec} (h : PlannedGroup g specs) :
    CancelOk g := by
  have hchild : ∀ c ∈ g.children, c.state = .planned ∧ c.revision = 0 ∧ c.cancelRequested = false := by
    intro c hc
    rw [h.children] at hc
    obtain ⟨s,-,rfl⟩ := List.mem_map.mp hc
    exact ⟨rfl,rfl,rfl⟩
  refine ⟨by rw [h.unasked.1,h.unasked.2]; rfl,fun hg => ?_,fun _ c hc => (hchild c hc).2.2,
    fun c hc hs => ?_,fun c hc => ⟨fun _ => (hchild c hc).2.1,fun hs => ?_⟩⟩
  · rw [h.unasked.1] at hg
    cases hg
  all_goals
    rw [(hchild c hc).1] at hs
    cases hs

theorem CancelsOk.put (hs : SoundGroups e) (h : CancelsOk e) {identity : Text} {g : ChildGroupRecord}
    (hg : CancelOk g) : CancelsOk (e.putGroup identity g) := by
  intro identity' g' hg'
  rw [hs.get?_putGroup] at hg'
  split at hg'
  · cases hg'
    exact hg.reread
  · exact h identity' g' hg'

theorem ChildStep.cancelsOk (hs : SoundGroups e) (h : CancelsOk e) (hstep : ChildStep clock e e') :
    CancelsOk e' := by
  cases hstep with
  | commit i identity a t hi hop he =>
    subst he
    cases hop.commit with
    | edit identity g g' a hg hedit hm => exact h.put hs (hedit.cancelOk (h _ g hg))
    | plan g plan available hnone hbound hplan hledger hm =>
      obtain ⟨-,specs,hspecs⟩ := planChildGroup_eq_ok hplan
      exact h.put hs hspecs.cancelOk
  | keep t hkeep he =>
    subst he
    intro identity g hg
    refine h identity g ?_
    rw [← keepsChildGroups_children hkeep]
    exact hg

structure ReadableGroups (e : ExecutionEnvelope J ChildGroups W) : Prop where
  admitted : AdmittedGroups e
  marshalled : marshalledGroups e.children = true

omit [Sha256] in
theorem marshals_reread_group (g : ChildGroupRecord) : g.reread.marshals = g.marshals := by
  simp only [ChildGroupRecord.marshals,ChildGroupRecord.reread,List.all_map]
  rfl

omit [Sha256] in
theorem marshalledGroups_reread {groups : ChildGroups} (h : marshalledGroups groups = true) :
    marshalledGroups (groups.mapValues ChildGroupRecord.reread) = true := by
  rw [marshalledGroups,GoMap.all_iff] at h ⊢
  intro identity g hg
  rw [GoMap.get?_mapValues] at hg
  obtain ⟨g0,hg0,rfl⟩ := Option.map_eq_some_iff.mp hg
  rw [marshals_reread_group]
  exact h identity g0 hg0

theorem createsNoGroups_readable (h : createsNoGroups e = true) : ReadableGroups e := by
  simp only [createsNoGroups,Bool.and_eq_true,decide_eq_true_eq] at h
  obtain ⟨hchildren,hrefs⟩ := h
  have hnone : ∀ identity g, e.children.get? identity ≠ some g := by
    intro identity g hg
    rw [hchildren] at hg
    cases hg
  refine ⟨⟨?_,fun identity g hg => (hnone identity g hg).elim,fun key identity href => ?_,
    fun identity g hg => (hnone identity g hg).elim,?_⟩,?_⟩
  · rw [hchildren]
    exact List.nodup_nil
  · rw [hrefs] at href
    cases href
  · rw [hchildren]
    rfl
  · rw [hchildren]
    rfl

theorem AdmittedGroups.carry (h : AdmittedGroups e) (hc : t.children = e.children)
    (hid : t.executionID = e.executionID) (ha : e.activation ≤ t.activation) {n : Nat} (hn : e.revision ≤ n)
    (hrefs : ∀ key identity, t.progress.childGroupReferences.get? key = some identity →
      ∃ group, t.children.get? identity = some group ∧ key = group.plan.key ∧ group.activation = t.activation)
    (hcur : ∀ identity g, t.children.get? identity = some g → g.unmerged = true →
      currentChildGroup t g = true) : AdmittedGroups { t with revision := n } := by
  refine ⟨?_,fun identity g hg => ?_,hrefs,hcur,?_⟩
  · rw [hc]
    exact h.decisions
  · rw [hc] at hg
    exact h.later hg hid ha hn
  · rw [hc]
    exact h.ledger

theorem resolvedChildGroups_merged (h : AdmittedGroups e) (hr : (resolvedChildGroups e).isOk = true)
    {identity : Text} {g : ChildGroupRecord} (hg : e.children.get? identity = some g) :
    g.unmerged = false := by
  rw [isOk_iff] at hr
  simp only [resolvedChildGroups,bind_eq_ok,require_eq_ok,GoMap.all_iff] at hr
  obtain ⟨groups,hgroups,hall⟩ := hr
  obtain ⟨rfl,-⟩ := executionChildGroups_eq_ok hgroups
  have hopen := hall identity g hg
  cases hun : g.unmerged with
  | false => rfl
  | true =>
    have hcur := h.current identity g hg hun
    simp only [currentChildGroup,Bool.and_eq_true,beq_iff_eq] at hcur
    simp [hun,hcur.1.2] at hopen

theorem keepsChildGroups_admitted (h : AdmittedGroups e) (hkeep : keepsChildGroups e t = true) :
    AdmittedGroups { t with revision := e.revision + 1 } := by
  simp only [keepsChildGroups,Bool.and_eq_true,decide_eq_true_eq,beq_iff_eq] at hkeep
  obtain ⟨⟨hc,hid⟩,hscope⟩ := hkeep
  split at hscope
  · rename_i hsame
    obtain ⟨ha,hr⟩ := hsame
    refine h.carry hc hid ha.ge (Nat.le_succ _) (fun key identity href => ?_) fun identity g hg hun => ?_
    · rw [hr] at href
      rw [hc,ha]
      exact h.references key identity href
    · rw [hc] at hg
      rw [Bool.or_eq_true,beq_iff_eq] at hscope
      rcases hscope with hp | hres
      · have hcur := h.current identity g hg hun
        simp only [currentChildGroup,boundChildGroupIdentity] at hcur ⊢
        rw [hid,ha,hr,hp]
        exact hcur
      · rw [resolvedChildGroups_merged h hres hg] at hun
        cases hun
  · split at hscope
    · rename_i hnext
      obtain ⟨ha,hr⟩ := hnext
      refine h.carry hc hid (by omega) (Nat.le_succ _) (fun key identity href => ?_) fun identity g hg hun => ?_
      · rw [hr] at href
        cases href
      · rw [hc] at hg
        rw [resolvedChildGroups_merged h hscope hg] at hun
        cases hun
    · -- a migration has read its target before it commits it
      rw [Bool.and_eq_true,beq_iff_eq] at hscope
      obtain ⟨hrev,hread⟩ := hscope
      cases hgroups : executionChildGroups t with
      | error err =>
        rw [hgroups] at hread
        cases hread
      | ok groups =>
        obtain ⟨-,hadm⟩ := executionChildGroups_eq_ok hgroups
        exact hadm.carry rfl rfl (Nat.le_refl _) (by omega) hadm.references hadm.current

theorem ChildStep.readable (hclock : ∀ t, clock t = true → t.isZero = false) (hrev : 0 < e.revision)
    (h : ReadableGroups e) (hstep : ChildStep clock e e') : ReadableGroups e' := by
  cases hstep with
  | commit i identity a t hi hop he =>
    subst he
    refine ⟨hop.commit.admitted hi hrev hclock h.admitted,?_⟩
    cases hop.commit with
    | edit identity g g' a hg hedit hm => exact marshalledGroups_reread hm
    | plan g plan available hnone hbound hplan hledger hm => exact marshalledGroups_reread hm
  | keep t hkeep he =>
    subst he
    refine ⟨keepsChildGroups_admitted h.admitted hkeep,?_⟩
    change marshalledGroups t.children = true
    rw [keepsChildGroups_children hkeep]
    exact h.marshalled

theorem cancellation_invariant {s : State (ExecutionEnvelope J ChildGroups W) Launches (Ticket Text)}
    (h : Reachable (childProtocol J W clock) s) :
    (∀ e ∈ s.log, CancelsOk e ∧ ((∀ t, clock t = true → t.isZero = false) → ReadableGroups e)) ∧
      ∀ i x, s.session i = some x → LiveOk i x.cache x.loc := by
  have hempty : ∀ {i} {cache : Option (ExecutionEnvelope J ChildGroups W)} {l : Launches},
      liveWorkers l = [] → LiveOk i cache l := by
    intro i cache l hl
    refine ⟨fun _ => hl,fun e _ p hp => ?_,?_⟩
    · rw [hl] at hp
      cases hp
    · rw [hl]
      exact List.nodup_nil
  refine childRule.strengthen (fun i _ => hempty rfl) ?_ ?_ ?_ h
  · intro i l e _ _ _ hJ
    exact hempty (hJ.unloaded rfl)
  · intro a i c l l' ev hK hJ hlive hact
    cases c with
    | none =>
      obtain ⟨target,hcommit,-⟩ := childAct_none hact
      cases hcommit
    | some e => exact childAct_live (hK e rfl).1 (hK e rfl).2.1 hlive hJ.launches hact
  · intro a i c l la lf t ev hK hJ hlive hpos hact
    cases c with
    | none =>
      obtain ⟨target,hcommit,hnew⟩ := childAct_none hact
      cases hcommit
      have hnone : ∀ identity g, t.children.get? identity ≠ some g := by
        intro identity g hg
        rw [createsNoGroups_children hnew] at hg
        cases hg
      exact ⟨⟨fun identity g hg => (hnone identity g hg).elim,fun _ => createsNoGroups_readable hnew⟩,
        hempty (hlive.unloaded rfl),hlive⟩
    | some e =>
      obtain ⟨hs,hok,hread⟩ := hK e rfl
      have hstep := (childAct_ok hJ.positive hs hJ.launches hact).link.step
      obtain ⟨hacked,hfailed⟩ := childAct_live hs hok hlive hJ.launches hact
      exact ⟨⟨hstep.cancelsOk hs hok,fun hclock => hstep.readable hclock (hpos e rfl) (hread hclock)⟩,
        hacked,hfailed⟩

end Entries

def validChildOutcome (asked : Bool) (result : ChildResult) : Bool :=
  validRuntimeText [result.waitID] &&
  match result.state with
  | .completed => result.error == [] && result.waitID == []
  | .failed => result.error != [] && result.waitID == []
  | .waiting => result.waitID != [] && result.error == []
  | .unknown => result.waitID == []
  | .canceled => asked
  | .unset | .planned | .queued | .running => false

section Outcomes

variable [Sha256] {clock : Time → Bool} {i : Nat} {e : ExecutionEnvelope J ChildGroups W}
  {g : ChildGroupRecord} {c : ChildRecord} {result : ChildResult}

omit [Sha256] in
theorem validChildOutcome_state {asked : Bool} (h : validChildOutcome asked result = true) :
    validChildResultState result.state = true := by
  cases hs : result.state with
  | completed | failed | waiting | unknown | canceled => rfl
  | unset | planned | queued | running => simp [validChildOutcome,hs] at h

omit [Sha256] in
theorem validateChildRecordState_settleChild (hv : validateChildRecordState c = true)
    (hs : c.state = .running) (hr : validChildOutcome c.cancelRequested result = true) :
    validateChildRecordState (settleChild c result) = true := by
  have hopen : settledChild c = false := by simp [settledChild,hs]
  obtain ⟨hw,ho,hconfirm,hconfirmed⟩ := undecided_of_open hv hopen
  obtain ⟨-,hstate⟩ := (validateChildRecordState_of_undecided hw ho hconfirm).mp hv
  have hpos : 1 < c.revision ∧ 0 < c.incarnation := by
    simp only [validateChildStateMachine,hs,Bool.and_eq_true,decide_eq_true_eq] at hstate
    exact hstate.2.1
  refine (validateChildRecordState_of_undecided (c := settleChild c result) hw ho hconfirm).mpr ?_
  rw [validChildOutcome,Bool.and_eq_true] at hr
  obtain ⟨htext,hshape⟩ := hr
  refine ⟨htext,?_⟩
  have hnewer : 2 < c.revision + 1 := by omega
  cases hcase : result.state with
  | completed | failed | waiting | unknown | canceled =>
    simp_all [validateChildStateMachine,settleChild]
  | unset | planned | queued | running =>
    rw [hcase] at hshape
    cases hshape

omit [Sha256] in
theorem marshals_settleChild (hg : g.marshals = true) (hc : c ∈ g.children) :
    (g.setChild (settleChild c result)).marshals = true := by
  simp only [ChildGroupRecord.marshals,Bool.and_eq_true,List.all_eq_true] at hg ⊢
  refine ⟨⟨fun x hx => ?_,hg.1.2⟩,hg.2⟩
  rcases mem_setChild hx with rfl | hx
  · exact hg.1.1 c hc
  · exact hg.1.1 x hx

omit [Sha256] in
theorem child?_of_mem (hd : (g.children.map fun c => c.spec.id).Nodup) (hc : c ∈ g.children) :
    g.child? c.spec.id = some c := by
  cases hfound : g.child? c.spec.id with
  | none =>
    have hno := List.find?_eq_none.mp hfound c hc
    simp at hno
  | some c' => rw [List.inj_on_of_nodup_map hd (child?_mem hfound) hc (child?_id hfound)]

theorem finishChild_accepts (hs : SoundGroups e) (hread : ReadableGroups e) {identity : Text}
    {inv : ChildInvocation} (hg : e.children.get? identity = some g) (hc : c ∈ g.children)
    (hid : c.spec.id = inv.childID) (hm : childInvocationMatches c inv i = true)
    (hr : validChildOutcome c.cancelRequested result = true) :
    finishChild i e identity inv result =
      .ok (e.putGroup identity (g.setChild (settleChild c result))) := by
  have hgroups : executionChildGroups e = .ok e.children :=
    executionChildGroups_iff.mpr ⟨rfl,hread.admitted⟩
  have hvalid := ((admittedChildGroup_iff.mp (hread.admitted.admitted identity g hg)).2.2.children c hc).valid
  have hfound : g.child? inv.childID = some c := by
    rw [← hid]
    exact child?_of_mem (hs _ g hg).distinct hc
  have hmarshals : marshalledGroups (e.children.set identity (g.setChild (settleChild c result))) = true := by
    rw [marshalledGroups,GoMap.all_iff]
    intro identity' g' hg'
    rw [GoMap.get?_set] at hg'
    split at hg'
    · cases hg'
      exact marshals_settleChild ((GoMap.all_iff _ _).mp hread.marshalled identity g hg) hc
    · exact (GoMap.all_iff _ _).mp hread.marshalled identity' g' hg'
  simp only [finishChild,bind_eq_ok]
  refine ⟨_,hgroups,?_⟩
  rw [hg,Option.getD_some,hfound]
  simp only [bind_eq_ok,require_eq_ok,exists_const]
  exact ⟨hm,validChildOutcome_state hr,validateChildRecordState_settleChild hvalid (matches_facts hm).1 hr,
    persistChildGroups_eq_ok.mpr ⟨hmarshals,rfl⟩⟩

theorem get?_settleChild (hs : SoundGroups e) {identity : Text} (hg : e.children.get? identity = some g)
    (hc : c ∈ g.children) : ∃ g', (e.putGroup identity (g.setChild (settleChild c result))).children.get?
      identity = some g' ∧ (settleChild c result).reread ∈ g'.children := by
  have hid : (settleChild c result).spec.id = c.spec.id := rfl
  obtain ⟨pre,post,-,hset⟩ := setChild_split (hs _ g hg).distinct hc hid
  refine ⟨_,by rw [hs.get?_putGroup,if_pos rfl],List.mem_map_of_mem ?_⟩
  rw [hset]
  exact List.mem_append_right _ List.mem_cons_self

/-- The outcome of a child that is not running is refused, whoever brings it. -/
theorem finishChild_refuses (hs : SoundGroups e) {identity : Text} (hg : e.children.get? identity = some g)
    (hc : c ∈ g.children) (hr : c.state ≠ .running) {inv : ChildInvocation} (hid : inv.childID = c.spec.id)
    {t : ExecutionEnvelope J ChildGroups W} : finishChild i e identity inv result ≠ .ok t := by
  intro h
  obtain ⟨-,g',c',hg',hc',hid',hm,-⟩ := finishChild_eq_ok h
  rw [hg] at hg'
  cases hg'
  have hsame := List.inj_on_of_nodup_map (hs _ g hg).distinct hc' hc (hid'.trans hid)
  exact hr (hsame ▸ (matches_facts hm).1)

end Outcomes

section Runs

variable [Sha256] {clock : Time → Bool}

/-- A child of a group whose cancellation is requested, and what has become of it since. -/
structure HaltedChild (c c' : ChildRecord) : Prop where
  launchable : launchable c' = false
  running : c'.state = .running → c.state = .running
  asked : settledChild c = false → c'.cancelRequested = true
  frozen : settledChild c = true → c' = c

/-- The child of a worker that has not brought its outcome yet: it takes every valid outcome, and
once it has taken one it takes no other. -/
structure TakesOneOutcome (i : Nat) (e : ExecutionEnvelope J ChildGroups W) (identity : Text)
    (inv : ChildInvocation) (c : ChildRecord) : Prop where
  running : c.state = .running
  takes : ∀ result, validChildOutcome c.cancelRequested result = true → ∃ t g' c',
    finishChild i e identity inv result = .ok t ∧ t.children.get? identity = some g' ∧
      c' ∈ g'.children ∧ c' = (settleChild c result).reread
  once : ∀ result t, finishChild i e identity inv result = .ok t → ∀ n j result' t',
    finishChild j { t with revision := n } identity inv result' ≠ .ok t'

structure CancellationSafe (clock : Time → Bool)
    (s : State (ExecutionEnvelope J ChildGroups W) Launches (Ticket Text)) : Prop where
  permanent : ∀ (k n : Nat) e e', k ≤ n → s.log[k]? = some e → s.log[n]? = some e' →
    ∀ identity g, e.children.get? identity = some g → g.cancelRequested = true →
      ∃ g' r, e'.children.get? identity = some g' ∧ g'.cancelRequested = true ∧
        g.cancelRequest = some r ∧ g'.cancelRequest = some r ∧
        List.Forall₂ HaltedChild g.children g'.children
  canceled : ∀ e ∈ s.log, ∀ identity g, e.children.get? identity = some g → ∀ c ∈ g.children,
    c.state = .canceled → c.cancelRequested = true ∧ g.cancelRequest.isSome = true
  /-- Cancellation does not lose the outcome of a child that was running when it was requested. -/
  accepted : (∀ t, clock t = true → t.isZero = false) → ∀ i x e, s.session i = some x → x.cache = some e →
    ∀ p ∈ liveWorkers x.loc, ∃ g c, e.children.get? p.1 = some g ∧ c ∈ g.children ∧
      c.spec.id = p.2.childID ∧ TakesOneOutcome i e p.1 p.2 c
  /-- After a confirmation, a resolution or a takeover the outcome comes too late. -/
  rejected : ∀ (k n : Nat) e e', k ≤ n → s.log[k]? = some e → s.log[n]? = some e' →
    ∀ identity g, e.children.get? identity = some g → ∀ c ∈ g.children, launchable c = false →
      c.state ≠ .running → ∀ i inv result t, inv.childID = c.spec.id →
        finishChild i e' identity inv result ≠ .ok t

theorem Live.takes {i : Nat} {e : ExecutionEnvelope J ChildGroups W} {p : Text × ChildInvocation}
    (hi : 0 < i) (hs : SoundGroups e) (hread : ReadableGroups e) (h : Live i e p) :
    ∃ g c, e.children.get? p.1 = some g ∧ c ∈ g.children ∧ c.spec.id = p.2.childID ∧
      TakesOneOutcome i e p.1 p.2 c := by
  obtain ⟨g,c,hg,hc,hid,hm⟩ := h
  refine ⟨g,c,hg,hc,hid,(matches_facts hm).1,fun result hr => ?_,fun result t ht n j result' t' => ?_⟩
  · obtain ⟨g',hg',hc'⟩ := get?_settleChild hs hg hc
    exact ⟨_,g',_,finishChild_accepts hs hread hg hc hid hm hr,hg',hc',rfl⟩
  · have hop : ChildOperation (fun _ => true) i e p.1 (.child p.2.childID) t := .finish p.1 p.2 result t ht
    have hlink := hop.link hi hs fun id h => by cases h
    obtain ⟨-,g0,c0,hg0,hc0,hid0,-,hstate,-,-,rfl⟩ := finishChild_eq_ok ht
    obtain ⟨g',hg',hc'⟩ := get?_settleChild hs hg0 hc0
    have hsound : SoundGroups { e.putGroup p.1 (g0.setChild (settleChild c0 result)) with revision := n } :=
      hlink.sound
    exact finishChild_refuses hsound hg' hc'
      (not_launchable_of_result (c := c0) hstate).2 hid0.symm

omit [Sha256] in
theorem CancelOk.halted {g g' : ChildGroupRecord} (h : CancelOk g) (hadv : GroupAdvance g g')
    (hasked : g.cancelRequested = true) : List.Forall₂ HaltedChild g.children g'.children := by
  refine ((List.forall₂_and_left _ _).mpr ⟨h.asked hasked,hadv.children⟩).imp fun c c' hc => ?_
  obtain ⟨⟨hl,hs⟩,hcc⟩ := hc
  refine ⟨?_,fun hrun => (hcc.running hrun).resolve_right (by simp [hl]),fun hopen => hcc.asked ?_,hcc.frozen⟩
  · cases hl' : launchable c' with
    | false => rfl
    | true =>
      rw [hcc.launchable hl'] at hl
      cases hl
  · rwa [hopen,Bool.false_eq_true,false_or] at hs

theorem child_cancellation_safe {s : State (ExecutionEnvelope J ChildGroups W) Launches (Ticket Text)}
    (h : Reachable (childProtocol J W clock) s) : CancellationSafe clock s := by
  obtain ⟨hentries,hsessions⟩ := cancellation_invariant h
  have hsound := (childRule.reachable h).entry
  refine ⟨fun k n e e' hle hk hn identity g hg hasked => ?_,fun e he identity g hg c hc hs => ?_,
    fun hclock i x e hx hcache p hp => ?_,
    fun k n e e' hle hk hn identity g hg c hc hl hs i inv result t hid => ?_⟩
  · obtain ⟨g',hg',hadv⟩ := childGroups_keep h hle hk hn identity g hg
    have hok := (hentries e (List.mem_of_getElem? hk)).1 identity g hg
    obtain ⟨r,hr⟩ := Option.isSome_iff_exists.mp (hok.requested ▸ hasked)
    exact ⟨g',r,hg',hadv.requested hasked,hr,hadv.request r hr,hok.halted hadv hasked⟩
  · have hask := (hentries e he).1 identity g hg
    have hc' := hask.canceled c hc hs
    refine ⟨hc',?_⟩
    rw [← hask.requested]
    by_contra hno
    rw [hask.unasked (Bool.eq_false_of_not_eq_true hno) c hc] at hc'
    cases hc'
  · have he := h.sound.cached i x e hx hcache
    exact ((hsessions i x hx).live e hcache p hp).takes (h.sound.issued i x hx).1 (hsound e he) ((hentries e he).2 hclock)
  · obtain ⟨g',hg',hadv⟩ := childGroups_keep h hle hk hn identity g hg
    obtain ⟨c',hc',hcc⟩ := forall₂_mem_left hadv.children hc
    refine finishChild_refuses (hsound e' (List.mem_of_getElem? hn)) hg' hc' (fun hrun => ?_) ?_
    · rcases hcc.running hrun with hrun | hl'
      · exact hs hrun
      · rw [hl] at hl'
        cases hl'
    · rw [hcc.spec]
      exact hid

end Runs

section Example

attribute [local instance] Sha256.hex

abbrev SampleState := State SampleEnvelope Launches (Ticket Text)

def launchedGroup (s : SampleState) : Option ChildGroupRecord :=
  s.log.getLast?.bind fun e => e.children.get? (childExecutionIdentity (ascii "x") (ascii "n") 1 (ascii "g") [])

def raceProtocol := childProtocol (GoMap Text Unit) (GoMap Text Unit) fun t => !t.isZero

def raceScript : List (Command (ChildAction (GoMap Text Unit) (GoMap Text Unit))) :=
  let started := [.acquire,.act 1 (.other sampleStart),.act 1 (.prepare samplePlan ∅),.act 1 (.recover 0),
    .act 1 (.begin 0),.act 1 (.run 0),.act 1 (.dispatch 0 0)]
  let group := ((raceProtocol.script started).bind launchedGroup).getD .zero
  started ++ [.act 1 (.mutate (.cancel group ⟨ascii "c",ascii "r"⟩ ⟨1⟩))]

theorem raceScript_result : (raceProtocol.script raceScript).map (fun s =>
    ((launchedGroup s).map fun g => g.children.map fun c => (c.state,c.cancelRequested),
      (s.session 1).map fun x => (liveWorkers x.loc).length)) =
    some (some [(.running,true),(.canceled,true)],some 1) := by
  decide +kernel

theorem canceled_race_safe : ∃ s : SampleState,
    (launchedGroup s).map (fun g => g.children.map fun c => (c.state,c.cancelRequested)) =
      some [(.running,true),(.canceled,true)] ∧
    (s.session 1).map (fun x => (liveWorkers x.loc).length) = some 1 ∧
    CancellationSafe (fun t => !t.isZero) s := by
  obtain ⟨s,hs,hres⟩ := Option.map_eq_some_iff.mp raceScript_result
  obtain ⟨hgroup,hlive⟩ := Prod.ext_iff.mp hres
  exact ⟨s,hgroup,hlive,child_cancellation_safe (.of_script hs)⟩

end Example
end Flowy
