import Mathlib.Data.List.Nodup
import Flowy.Activity.Invariant

/-! At most one dispatch for each attempt. An acknowledged running attempt is the only way to the
host callback, and the log admits one such commit for each attempt number. -/
namespace Flowy

open Fencing

inductive CallPhase
  | before
  | ready (identity : Text) (attempt : Nat)
  | after
deriving DecidableEq

def Call.phase : Call → CallPhase
  | .idle | .holding _ _ => .before
  | .committed identity n => .ready identity n
  | .dispatching _ _ | .reconciling _ | .done => .after

/-- Steps without an event: no call gets nearer to a dispatch. -/
def Quiet (l l' : Calls) : Prop :=
  ∀ k, (l'.call k).phase = (l.call k).phase ∨ (l'.call k).phase = .after

theorem Quiet.refl (l : Calls) : Quiet l l := fun _ => .inl rfl

theorem Quiet.set {l : Calls} {k : Nat} {c : Call} (h : c.phase = .after) : Quiet l (l.set k c) := by
  intro k'
  by_cases hk : k' = k
  · subst hk
    exact .inr (by simp [Calls.set,h])
  · exact .inl (by simp [Calls.set,Function.update_of_ne hk])

structure Advances (l l' : Calls) (k : Nat) (p p' : CallPhase) : Prop where
  from_phase : (l.call k).phase = p
  to_phase : (l'.call k).phase = p'
  others : ∀ k', k' ≠ k → (l'.call k').phase = (l.call k').phase

variable {C W : Type}

def attemptCount (e : Option (ExecutionEnvelope Journal C W)) (id : Text) : Nat :=
  (e.bind fun e => e.journal.get? id).elim 0 fun r => r.attempts.length

def ActTraced (i : Nat) (e : ExecutionEnvelope Journal C W) (l : Calls) :
    Act (ExecutionEnvelope Journal C W) Calls ActivityEvent → Prop
  | .move l' ev => (Quiet l l' ∧ ev = []) ∨
      ∃ k id n, ev = [.dispatch i k id n] ∧ Advances l l' k (.ready id n) .after
  | .commit _ la lf ev => Quiet l lf ∧ ((Quiet l la ∧ ev = []) ∨
      ∃ k id n, ev = [.intent i k id n (e.revision + 1)] ∧ Advances l la k .before (.ready id n) ∧
        attemptCount (some e) id + 1 = n)

section Acts

variable [Sha256] {i k : Nat} {e : ExecutionEnvelope Journal C W} {l : Calls}

theorem persistAct_quiet {journal : Journal} {record : ActivityRecord} {acked failed : Calls}
    (ha : Quiet l acked) (hf : Quiet l failed) :
    ActTraced i e l (persistAct e journal record acked failed []) := by
  unfold persistAct
  split
  · exact .inl ⟨hf,rfl⟩
  · exact ⟨hf,.inl ⟨ha,rfl⟩⟩

theorem startAct_traced {journal : Journal} {record : ActivityRecord} (started : Time)
    (hk : (l.call k).phase = .before) (hr : e.journal.get? record.identity = some record) :
    ActTraced i e l (startAct i k e l journal record started) := by
  unfold startAct persistAct
  split
  · exact .inl ⟨.set rfl,rfl⟩
  · refine ⟨.set rfl,.inr ⟨k,record.identity,_,rfl,⟨hk,by simp [Calls.set,Call.phase],?_⟩,?_⟩⟩
    · intro k' hk'
      simp [Calls.set,Function.update_of_ne hk']
    · simp [attemptCount,hr]

theorem callAct_traced (request : ActivityRequest) (now started : Time) (hk : l.call k = .idle) :
    ActTraced i e l (callAct i k e l request now started) := by
  obtain ⟨hfound,-⟩ := callActivity_found i e request now
  unfold callAct
  split
  · exact .inl ⟨.set rfl,rfl⟩
  · split
    · exact .inl ⟨.set rfl,rfl⟩
    · refine persistAct_quiet ?_ (.set rfl)
      intro k'
      by_cases hk' : k' = k
      · subst hk'
        exact .inl (by simp [Calls.hold,Call.phase,hk])
      · exact .inl (by simp [Calls.hold,Function.update_of_ne hk'])
    · rename_i journal record hc
      rw [hc] at hfound
      exact startAct_traced started (by simp [hk,Call.phase]) hfound.2.1
    · refine persistAct_quiet (.set ?_) (.set rfl)
      split <;> rfl
    · exact .inl ⟨.set rfl,rfl⟩

theorem finishAct_traced (identity : Text) (callback : Callback) (origin : ActivityOrigin) (now : Time)
    (sample : Option Nat) : ActTraced i e l (finishAct k e l identity callback origin now sample) := by
  unfold finishAct
  split
  · exact .inl ⟨.set rfl,rfl⟩
  · exact .inl ⟨.set rfl,rfl⟩
  · exact persistAct_quiet (.set rfl) (.set rfl)

theorem activityAct_traced {a : ActivityAction C W}
    {x : Act (ExecutionEnvelope Journal C W) Calls ActivityEvent} (h : CallsOk i (some e) l)
    (hx : activityAct a i (some e) l = some x) : ActTraced i e l x := by
  cases a with
  | other t =>
    simp only [activityAct] at hx
    split at hx
    · cases hx
      exact ⟨.refl l,.inl ⟨.refl l,rfl⟩⟩
    · cases hx
  | call k request now started =>
    simp only [activityAct] at hx
    split at hx
    · rename_i hk
      split at hx
      · cases hx
        exact callAct_traced request now started hk
      · cases hx
    · cases hx
  | run k started =>
    simp only [activityAct] at hx
    split at hx
    · rename_i journal record hk
      cases hx
      have hok := h.ok e rfl k
      rw [hk] at hok
      obtain ⟨hj,hr,-,hnil,-⟩ := hok
      refine startAct_traced started (by simp [hk,Call.phase]) ?_
      rw [← hj,hr,Option.map_some,reread_of_nil hnil]
    · cases hx
  | dispatch k =>
    simp only [activityAct] at hx
    split at hx
    · rename_i identity n hk
      cases hx
      refine .inr ⟨k,identity,n,rfl,by simp [hk,Call.phase],by simp [Call.phase],?_⟩
      intro k' hk'
      simp [Function.update_of_ne hk']
    · cases hx
  | finish k callback now sample =>
    simp only [activityAct] at hx
    split at hx
    · split at hx
      · cases hx
        exact finishAct_traced _ _ _ _ _
      · cases hx
    · cases hx
  | reconcile k payload now =>
    simp only [activityAct] at hx
    split at hx
    · split at hx
      · cases hx
        exact finishAct_traced _ _ _ _ _
      · cases hx
    · cases hx
      refine .inl ⟨fun k' => ?_,rfl⟩
      by_cases hk' : k' = k
      · subst hk'
        exact .inr (by simp [Call.phase])
      · exact .inl (by simp [Function.update_of_ne hk'])
    · cases hx
  | resolve resolution now sample =>
    simp only [activityAct] at hx
    split at hx
    · split at hx
      · cases hx
        exact .inl ⟨fun _ => .inl rfl,rfl⟩
      · cases hx
        exact ⟨fun _ => .inl rfl,.inl ⟨fun _ => .inl rfl,rfl⟩⟩
    · cases hx

end Acts

def ActivityEvent.session : ActivityEvent → Nat
  | .intent i _ _ _ _ | .dispatch i _ _ _ => i

def ActivityEvent.owner : ActivityEvent → Nat × Nat
  | .intent i k _ _ _ | .dispatch i k _ _ => (i,k)

/-- The acknowledged running attempts: revision, then session and call. -/
def runningIntents (trace : List ActivityEvent) : List (Nat × (Nat × Nat)) :=
  trace.filterMap fun
    | .intent i k _ _ revision => some (revision,(i,k))
    | .dispatch _ _ _ _ => none

/-- The dispatches: session and call, then identity and attempt. -/
def dispatches (trace : List ActivityEvent) : List ((Nat × Nat) × (Text × Nat)) :=
  trace.filterMap fun
    | .dispatch i k identity n => some ((i,k),(identity,n))
    | .intent _ _ _ _ _ => none

theorem mem_dispatches {trace : List ActivityEvent} {i k n : Nat} {id : Text} :
    ((i,k),(id,n)) ∈ dispatches trace ↔ .dispatch i k id n ∈ trace := by
  simp only [dispatches,List.mem_filterMap]
  constructor
  · rintro ⟨ev,hev,h⟩
    cases ev with
    | intent => cases h
    | dispatch =>
      cases h
      exact hev
  · intro h
    exact ⟨_,h,rfl⟩

theorem mem_runningIntents {trace : List ActivityEvent} {i k rev : Nat} :
    (rev,(i,k)) ∈ runningIntents trace ↔ ∃ id n, .intent i k id n rev ∈ trace := by
  simp only [runningIntents,List.mem_filterMap]
  constructor
  · rintro ⟨ev,hev,h⟩
    cases ev with
    | dispatch => cases h
    | intent i k id n _ =>
      cases h
      exact ⟨id,n,hev⟩
  · rintro ⟨id,n,h⟩
    exact ⟨_,h,rfl⟩

def PhaseOk (trace : List ActivityEvent) (i k : Nat) : CallPhase → Prop
  | .before => ∀ ev ∈ trace, ev.owner ≠ (i,k)
  | .ready id n => (∃ rev, .intent i k id n rev ∈ trace) ∧ ∀ id' n', .dispatch i k id' n' ∉ trace
  | .after => True

theorem PhaseOk.quiet {trace : List ActivityEvent} {i k : Nat} {p p' : CallPhase}
    (h : PhaseOk trace i k p) (hp : p' = p ∨ p' = .after) : PhaseOk trace i k p' := by
  rcases hp with rfl | rfl
  · exact h
  · trivial

theorem PhaseOk.snoc {trace : List ActivityEvent} {i k : Nat} {p : CallPhase} {ev : ActivityEvent}
    (h : PhaseOk trace i k p) (hev : ev.owner ≠ (i,k)) : PhaseOk (trace ++ [ev]) i k p := by
  cases p with
  | before =>
    intro ev' hev'
    rcases List.mem_append.mp hev' with h' | h'
    · exact h ev' h'
    · rwa [List.mem_singleton.mp h']
  | ready id n =>
    obtain ⟨⟨rev,hrev⟩,hno⟩ := h
    refine ⟨⟨rev,List.mem_append_left _ hrev⟩,fun id' n' hmem => ?_⟩
    rcases List.mem_append.mp hmem with h' | h'
    · exact hno id' n' h'
    · rw [← List.mem_singleton.mp h'] at hev
      exact hev rfl
  | after => trivial

def IntentOk (log : List (ExecutionEnvelope Journal C W)) (i : Nat) (id : Text) (n rev : Nat) : Prop :=
  ∃ pre e post r, log = pre ++ e :: post ∧ pre.length + 1 = rev ∧ e.journal.get? id = some r ∧
    RunningUnder i n r ∧ attemptCount pre.getLast? id + 1 = n

theorem IntentOk.append {log : List (ExecutionEnvelope Journal C W)} {i n rev : Nat} {id : Text}
    (h : IntentOk log i id n rev) (e : ExecutionEnvelope Journal C W) :
    IntentOk (log ++ [e]) i id n rev := by
  obtain ⟨pre,e',post,r,rfl,hr⟩ := h
  exact ⟨pre,e',post ++ [e],r,by simp,hr⟩

structure Traced (s : State (ExecutionEnvelope Journal C W) Calls ActivityEvent) : Prop where
  issued : ∀ ev ∈ s.trace, ev.session ≤ s.fence
  intents : ∀ i k id n rev, .intent i k id n rev ∈ s.trace → IntentOk s.log i id n rev
  revisions : ((runningIntents s.trace).map Prod.fst).Nodup
  matched : ∀ pre i k id n post, s.trace = pre ++ .dispatch i k id n :: post →
    ∃ rev, .intent i k id n rev ∈ pre
  once : ((dispatches s.trace).map Prod.fst).Nodup
  phases : ∀ i x k, s.session i = some x → PhaseOk s.trace i k (x.loc.call k).phase

section Preservation

variable {s t : State (ExecutionEnvelope Journal C W) Calls ActivityEvent}

theorem Traced.intents_log (h : Traced s) (hlog : t.log = s.log ∨ ∃ e, t.log = s.log ++ [e])
    {i k n rev : Nat} {id : Text} (hev : .intent i k id n rev ∈ s.trace) :
    IntentOk t.log i id n rev := by
  rcases hlog with hlog | ⟨e,hlog⟩
  · rw [hlog]
    exact h.intents i k id n rev hev
  · rw [hlog]
    exact (h.intents i k id n rev hev).append e

theorem Traced.of_quiet (h : Traced s) (htr : t.trace = s.trace)
    (hlog : t.log = s.log ∨ ∃ e, t.log = s.log ++ [e]) (hf : s.fence ≤ t.fence)
    (hph : ∀ i x k, t.session i = some x → PhaseOk s.trace i k (x.loc.call k).phase) : Traced t := by
  refine ⟨?_,?_,?_,?_,?_,?_⟩
  · rw [htr]
    exact fun ev hev => (h.issued ev hev).trans hf
  · rw [htr]
    exact fun i k id n rev hev => h.intents_log hlog hev
  · rw [htr]
    exact h.revisions
  · rw [htr]
    exact h.matched
  · rw [htr]
    exact h.once
  · rw [htr]
    exact hph

theorem Traced.of_dispatch (h : Traced s) {i k n : Nat} {id : Text} {x : Session _ Calls}
    (hi : i ≤ s.fence) (hx : s.session i = some x) (hr : (x.loc.call k).phase = .ready id n)
    (htr : t.trace = s.trace ++ [.dispatch i k id n]) (hlog : t.log = s.log) (hf : t.fence = s.fence)
    (hph : ∀ i x k, t.session i = some x → PhaseOk t.trace i k (x.loc.call k).phase) : Traced t := by
  have hready := h.phases i x k hx
  rw [hr] at hready
  obtain ⟨⟨rev,hrev⟩,hno⟩ := hready
  refine ⟨?_,?_,?_,?_,?_,hph⟩
  · intro ev hev
    rw [htr] at hev
    rw [hf]
    rcases List.mem_append.mp hev with hev | hev
    · exact h.issued ev hev
    · rw [List.mem_singleton.mp hev]
      exact hi
  · intro i' k' id' n' rev' hev
    rw [htr] at hev
    rcases List.mem_append.mp hev with hev | hev
    · exact h.intents_log (.inl hlog) hev
    · cases List.mem_singleton.mp hev
  · rw [htr]
    simpa [runningIntents] using h.revisions
  · intro pre i' k' id' n' post heq
    rw [htr] at heq
    rcases List.eq_nil_or_concat post with rfl | ⟨post,ev,rfl⟩
    · obtain ⟨rfl,h1⟩ := List.append_inj' heq rfl
      cases h1
      exact ⟨rev,hrev⟩
    · rw [List.concat_eq_append,← List.cons_append,← List.append_assoc] at heq
      exact h.matched pre i' k' id' n' post (List.append_inj' heq rfl).1
  · rw [htr]
    simp only [dispatches,List.filterMap_append,List.map_append]
    refine List.nodup_append.mpr ⟨h.once,by simp,?_⟩
    rintro o ho o' ho' rfl
    simp only [List.filterMap_cons,List.filterMap_nil,List.map_cons,List.map_nil,
      List.mem_singleton] at ho'
    subst ho'
    obtain ⟨⟨⟨i',k'⟩,id',n'⟩,hmem,heq⟩ := List.mem_map.mp ho
    cases heq
    exact hno id' n' (mem_dispatches.mp hmem)

theorem Traced.of_intent (h : Traced s) {i k n : Nat} {id : Text} {e : ExecutionEnvelope Journal C W}
    {r : ActivityRecord} (hi : i ≤ s.fence)
    (htr : t.trace = s.trace ++ [.intent i k id n (s.log.length + 1)]) (hlog : t.log = s.log ++ [e])
    (hf : t.fence = s.fence) (hr : e.journal.get? id = some r) (hrun : RunningUnder i n r)
    (hn : attemptCount s.log.getLast? id + 1 = n)
    (hph : ∀ i x k, t.session i = some x → PhaseOk t.trace i k (x.loc.call k).phase) : Traced t := by
  have hnew : IntentOk t.log i id n (s.log.length + 1) :=
    ⟨s.log,e,[],r,hlog,rfl,hr,hrun,hn⟩
  refine ⟨?_,?_,?_,?_,?_,hph⟩
  · intro ev hev
    rw [htr] at hev
    rw [hf]
    rcases List.mem_append.mp hev with hev | hev
    · exact h.issued ev hev
    · rw [List.mem_singleton.mp hev]
      exact hi
  · intro i' k' id' n' rev' hev
    rw [htr] at hev
    rcases List.mem_append.mp hev with hev | hev
    · exact h.intents_log (.inr ⟨e,hlog⟩) hev
    · cases List.mem_singleton.mp hev
      exact hnew
  · rw [htr]
    simp only [runningIntents,List.filterMap_append,List.map_append]
    refine List.nodup_append.mpr ⟨h.revisions,by simp,?_⟩
    -- every earlier intent names an entry of the log as it was
    rintro rev hrev rev' hrev' rfl
    simp only [List.filterMap_cons,List.filterMap_nil,List.map_cons,List.map_nil,
      List.mem_singleton] at hrev'
    obtain ⟨⟨_,i',k'⟩,hpair,heq⟩ := List.mem_map.mp hrev
    cases heq
    obtain ⟨id',n',hmem⟩ := mem_runningIntents.mp hpair
    obtain ⟨pre,e',post,r',hsplit,hlen,-⟩ := h.intents i' k' id' n' _ hmem
    have hle : pre.length < s.log.length := by simp [hsplit]
    omega
  · intro pre i' k' id' n' post heq
    rw [htr] at heq
    rcases List.eq_nil_or_concat post with rfl | ⟨post,ev,rfl⟩
    · obtain ⟨-,h1⟩ := List.append_inj' heq rfl
      cases h1
    · rw [List.concat_eq_append,← List.cons_append,← List.append_assoc] at heq
      exact h.matched pre i' k' id' n' post (List.append_inj' heq rfl).1
  · rw [htr]
    simpa [dispatches] using h.once

theorem Traced.phases_set (h : Traced s) {i : Nat} {y : Session (ExecutionEnvelope Journal C W) Calls}
    {ev : List ActivityEvent} (hev : ev = [] ∨ ∃ k v, ev = [v] ∧ v.owner = (i,k))
    (hy : ∀ k, PhaseOk (s.trace ++ ev) i k (y.loc.call k).phase) :
    ∀ j x k, (s.setSession i y).session j = some x → PhaseOk (s.trace ++ ev) j k (x.loc.call k).phase := by
  intro j x k hx
  rcases setSession_eq_some _ _ _ hx with ⟨rfl,rfl⟩ | ⟨hj,hs⟩
  · exact hy k
  · rcases hev with rfl | ⟨k',v,rfl,hv⟩
    · rw [List.append_nil]
      exact h.phases j x k hs
    · refine (h.phases j x k hs).snoc ?_
      rw [hv]
      intro heq
      exact hj (Prod.ext_iff.mp heq).1.symm

theorem Traced.phases_quiet (h : Traced s) {i : Nat}
    {x y : Session (ExecutionEnvelope Journal C W) Calls} (hx : s.session i = some x)
    (hq : Quiet x.loc y.loc) :
    ∀ j x k, (s.setSession i y).session j = some x → PhaseOk s.trace j k (x.loc.call k).phase := by
  have hset := h.phases_set (.inl rfl) (i := i) (y := y) fun k => by
    rw [List.append_nil]
    exact (h.phases i x k hx).quiet (hq k)
  simpa using hset

theorem ActTraced.move_traced (h : Traced s) {i : Nat} {e : ExecutionEnvelope Journal C W}
    {l l' : Calls} {ev : List ActivityEvent} (hi : i ≤ s.fence) (hs : s.session i = some ⟨some e,l⟩)
    (ha : ActTraced i e l (.move l' ev)) :
    Traced { s.setSession i ⟨some e,l'⟩ with trace := s.trace ++ ev } := by
  rcases ha with ⟨hq,rfl⟩ | ⟨k,id,n,rfl,hadv⟩
  · exact h.of_quiet (List.append_nil _) (.inl rfl) le_rfl (h.phases_quiet hs hq)
  · refine h.of_dispatch hi hs hadv.from_phase rfl rfl rfl ?_
    refine h.phases_set (.inr ⟨k,_,rfl,rfl⟩) fun k' => ?_
    by_cases hk : k' = k
    · subst hk
      rw [hadv.to_phase]
      trivial
    · rw [hadv.others k' hk]
      refine (h.phases i _ k' hs).snoc fun heq => ?_
      exact hk (Prod.ext_iff.mp heq).2.symm

variable [Sha256]

theorem ActTraced.ack_traced (h : Traced s) {i : Nat} {e t : ExecutionEnvelope Journal C W}
    {l la lf : Calls} {ev : List ActivityEvent} (hi : i ≤ s.fence)
    (hs : s.session i = some ⟨some e,l⟩) (hlast : s.log.getLast? = some e)
    (hrev : e.revision = s.log.length) (ha : ActTraced i e l (.commit t la lf ev))
    {e' : ExecutionEnvelope Journal C W} (hok : CallsOk i (some e') la) :
    Traced { s.setSession i ⟨some e',la⟩ with log := s.log ++ [e'], trace := s.trace ++ ev } := by
  rcases ha.2 with ⟨hq,rfl⟩ | ⟨k,id,n,rfl,hadv,hn⟩
  · exact h.of_quiet (List.append_nil _) (.inr ⟨e',rfl⟩) le_rfl (h.phases_quiet hs hq)
  · obtain ⟨r,hr,hrun⟩ : ∃ r, e'.journal.get? id = some r ∧ RunningUnder i n r := by
      have hk := hok.ok e' rfl k
      have hto := hadv.to_phase
      cases hc : la.call k with
      | committed id' n' =>
        rw [hc] at hk hto
        cases hto
        exact hk
      | idle | holding | dispatching | reconciling | done =>
        rw [hc] at hto
        cases hto
    refine h.of_intent (k := k) hi (by rw [hrev]) rfl rfl hr hrun (by rw [hlast]; exact hn) ?_
    refine h.phases_set (.inr ⟨k,_,rfl,rfl⟩) fun k' => ?_
    by_cases hk : k' = k
    · subst hk
      have hbefore := h.phases i _ k' hs
      rw [hadv.from_phase] at hbefore
      rw [hadv.to_phase]
      refine ⟨⟨e.revision + 1,by simp⟩,fun id' n' hmem => ?_⟩
      rcases List.mem_append.mp hmem with hmem | hmem
      · exact hbefore _ hmem rfl
      · cases List.mem_singleton.mp hmem
    · rw [hadv.others k' hk]
      refine (h.phases i _ k' hs).snoc fun heq => ?_
      exact hk (Prod.ext_iff.mp heq).2.symm

theorem activityAct_failed_quiet {a : ActivityAction C W} {i : Nat}
    {c : Option (ExecutionEnvelope Journal C W)} {l la lf : Calls}
    {e : ExecutionEnvelope Journal C W} {ev : List ActivityEvent} (hok : CallsOk i c l)
    (ha : activityAct a i c l = some (.commit e la lf ev)) : Quiet l lf := by
  cases c with
  | none =>
    obtain ⟨e',he,-⟩ := activityAct_none ha
    cases he
    exact .refl l
  | some e' => exact (activityAct_traced hok ha).1

theorem Traced.step (hr : Reachable (activityProtocol C W) s) (h : Traced s)
    (hst : Step (activityProtocol C W) s t) : Traced t := by
  have hsound := hr.sound
  have hholds := activityRule.reachable hr
  cases hst with
  | acquire =>
    refine h.of_quiet rfl (.inl rfl) (Nat.le_succ _) fun j x k hx => ?_
    rcases setSession_eq_some _ _ _ hx with ⟨rfl,rfl⟩ | ⟨-,hs⟩
    · -- the new incarnation has no events yet
      intro ev hev heq
      have hle := h.issued ev hev
      have : ev.session = s.fence + 1 := by cases ev <;> cases heq <;> rfl
      omega
    · exact h.phases j x k hs
  | drop => exact h.of_quiet rfl (.inl rfl) le_rfl h.phases
  | load i l e hs he => exact h.of_quiet rfl (.inl rfl) le_rfl (h.phases_quiet hs (.refl l))
  | move a i c l l' ev hs ha =>
    cases c with
    | none =>
      obtain ⟨e,he,-⟩ := activityAct_none ha
      cases he
    | some e =>
      exact (activityAct_traced (hholds.session i _ hs) ha).move_traced h (hsound.issued i _ hs).2 hs
  | ack a i c l la lf e ev hs ha hok =>
    have hnew := (activityRule.commit a i c l la lf e ev
      (fun e' he' => hholds.entry e' (hsound.cached i _ e' hs he')) (hholds.session i _ hs) ha).2.1
    cases c with
    | none =>
      obtain ⟨e',he,-⟩ := activityAct_none ha
      cases he
      exact h.of_quiet (List.append_nil _) (.inr ⟨_,rfl⟩) le_rfl (h.phases_quiet hs (.refl l))
    | some e' =>
      exact (activityAct_traced (hholds.session i _ hs) ha).ack_traced h (hsound.issued i _ hs).2 hs
        (hsound.cache_eq_last hs hok).symm hok.2 hnew
  | lost a i c l la lf e ev hs ha hok =>
    exact h.of_quiet rfl (.inr ⟨_,rfl⟩) le_rfl
      (h.phases_quiet hs (activityAct_failed_quiet (hholds.session i _ hs) ha))
  | fail a i c l la lf e ev hs ha =>
    exact h.of_quiet rfl (.inl rfl) le_rfl
      (h.phases_quiet hs (activityAct_failed_quiet (hholds.session i _ hs) ha))

theorem traced_of_reachable (h : Reachable (activityProtocol C W) s) : Traced s := by
  refine h.induct ⟨?_,?_,?_,?_,?_,?_⟩ fun s t hr hi hst => hi.step hr hst
  all_goals simp [State.initial,runningIntents,dispatches]

end Preservation

section Attempts

variable [Sha256]

theorem RecordStep.length_le {i : Nat} {prev : Option ActivityRecord} {r' : ActivityRecord}
    (h : RecordStep i prev r') :
    prev.elim 0 (fun r => r.attempts.length) ≤ r'.attempts.length := by
  cases h with
  | prepared => exact Nat.zero_le _
  | started r now => simp [startAttempt]
  | settled r r' hs hn => exact (length_of_numbers hn).ge

theorem JournalStep.attemptCount_le {e e' : ExecutionEnvelope Journal C W} (h : JournalStep e e')
    (id : Text) : attemptCount (some e) id ≤ attemptCount (some e') id := by
  rcases h id with heq | ⟨i,r',hr',hstep,-⟩
  · exact (by simp [attemptCount,heq])
  · simpa [attemptCount,hr'] using hstep.length_le

theorem attemptCount_mono {log : List (ExecutionEnvelope Journal C W)} (h : Linked ActivityLink log)
    {k n : Nat} {e e' : ExecutionEnvelope Journal C W} (hk : log[k]? = some e)
    (hn : log[n]? = some e') (hle : k ≤ n) (id : Text) :
    attemptCount (some e) id ≤ attemptCount (some e') id := by
  rcases Nat.lt_or_ge k n with hlt | hge
  · exact h.trans (T := fun e e' => attemptCount (some e) id ≤ attemptCount (some e') id)
      (fun _ _ hR => JournalStep.attemptCount_le hR id) (fun _ _ _ => Nat.le_trans) hk hn hlt
  · obtain rfl : k = n := by omega
    rw [hk] at hn
    cases hn
    exact Nat.le_refl _

theorem IntentOk.number_lt {log : List (ExecutionEnvelope Journal C W)} (h : Linked ActivityLink log)
    {i i' n n' rev rev' : Nat} {id : Text} (h1 : IntentOk log i id n rev)
    (h2 : IntentOk log i' id n' rev') (hlt : rev < rev') : n < n' := by
  obtain ⟨pre,e,post,r,hlog,hlen,hr,⟨-,hcount,-⟩,-⟩ := h1
  obtain ⟨pre',e',post',r',hlog',hlen',-,-,hprev⟩ := h2
  have hk : log[pre.length]? = some e := by simp [hlog]
  obtain ⟨p,hp⟩ : ∃ p, pre'.getLast? = some p := by
    cases hpre : pre' with
    | nil =>
      rw [hpre] at hlen'
      simp only [List.length_nil] at hlen'
      omega
    | cons a as => exact ⟨_,List.getLast?_cons⟩
  have hn : log[pre'.length - 1]? = some p := by
    rw [← hp,List.getLast?_eq_getElem?,hlog',List.getElem?_append_left (by omega)]
  have hle := attemptCount_mono h hk hn (by omega) id
  rw [hp] at hprev
  have hc : attemptCount (some e) id = n := by simp [attemptCount,hr,hcount]
  omega

omit [Sha256] in
theorem Traced.intent_of_dispatch {s : State (ExecutionEnvelope Journal C W) Calls ActivityEvent}
    (h : Traced s) {i k n : Nat} {id : Text} (hd : .dispatch i k id n ∈ s.trace) :
    ∃ rev, .intent i k id n rev ∈ s.trace := by
  obtain ⟨pre,post,hsplit⟩ := List.append_of_mem hd
  obtain ⟨rev,hrev⟩ := h.matched pre i k id n post hsplit
  exact ⟨rev,by simp [hsplit,hrev]⟩

theorem Traced.intent_unique {s : State (ExecutionEnvelope Journal C W) Calls ActivityEvent}
    (h : Traced s) (hl : Linked ActivityLink s.log) {i k i' k' n rev rev' : Nat} {id : Text}
    (h1 : .intent i k id n rev ∈ s.trace) (h2 : .intent i' k' id n rev' ∈ s.trace) :
    (i,k) = (i',k') := by
  have hrev : rev = rev' := by
    rcases Nat.lt_trichotomy rev rev' with hlt | heq | hlt
    · exact absurd ((h.intents _ _ _ _ _ h1).number_lt hl (h.intents _ _ _ _ _ h2) hlt)
        (Nat.lt_irrefl n)
    · exact heq
    · exact absurd ((h.intents _ _ _ _ _ h2).number_lt hl (h.intents _ _ _ _ _ h1) hlt)
        (Nat.lt_irrefl n)
  subst hrev
  have heq := List.inj_on_of_nodup_map h.revisions (mem_runningIntents.mpr ⟨id,n,h1⟩)
    (mem_runningIntents.mpr ⟨id,n,h2⟩) rfl
  exact (Prod.ext_iff.mp heq).2

end Attempts
end Flowy
