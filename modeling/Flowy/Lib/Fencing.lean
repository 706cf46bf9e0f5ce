import Mathlib.Logic.Function.Basic
import Mathlib.Data.List.Basic
import Mathlib.Data.List.Induction

/-! An append-only log guarded by a fence. Sessions are named by the incarnation they acquired,
work on a cached entry, and propose successors; storage appends a proposal only for the current
holder at the expected revision. Acknowledgements may be lost and sessions may stop anywhere. -/
namespace Flowy.Fencing

variable {E L A V : Type*}

/-- What a session does next: a step of its own, or one proposal to storage with the local
states that follow an acknowledgement and a reported error. -/
inductive Act (E L V : Type*)
  | move (loc : L) (events : List V)
  | commit (target : E) (acked failed : L) (events : List V)

structure Protocol (E L A V : Type*) where
  revision : E → Nat
  stamp : Nat → E → E
  revision_stamp : ∀ n e, revision (stamp n e) = n
  fresh : L
  act : A → Nat → Option E → L → Option (Act E L V)

structure Session (E L : Type*) where
  cache : Option E
  loc : L

structure State (E L V : Type*) where
  fence : Nat
  holder : Option Nat
  log : List E
  session : Nat → Option (Session E L)
  trace : List V

def State.initial : State E L V := ⟨0,none,[],fun _ => none,[]⟩

def State.setSession (s : State E L V) (i : Nat) (x : Session E L) : State E L V :=
  { s with session := Function.update s.session i (some x) }

/-- The revision a session sends along with its proposal; zero creates the log. -/
def Protocol.expected (P : Protocol E L A V) (cache : Option E) : Nat := cache.elim 0 P.revision

def Protocol.committed (P : Protocol E L A V) (cache : Option E) (target : E) : E :=
  P.stamp (P.expected cache + 1) target

def Accepts (P : Protocol E L A V) (s : State E L V) (i : Nat) (cache : Option E) : Prop :=
  s.holder = some i ∧ P.expected cache = s.log.length

/-- `drop` is release as well as expiry; `lost` writes but reports an error; `fail` covers every
refusal and outage, so it is possible in every state. -/
inductive Step (P : Protocol E L A V) : State E L V → State E L V → Prop
  | acquire (s : State E L V) :
      Step P s ({ s with fence := s.fence + 1, holder := some (s.fence + 1) }.setSession
        (s.fence + 1) ⟨none,P.fresh⟩)
  | drop (s : State E L V) : Step P s { s with holder := none }
  | load (s : State E L V) (i : Nat) (l : L) (e : E) (hs : s.session i = some ⟨none,l⟩)
      (he : s.log.getLast? = some e) : Step P s (s.setSession i ⟨some e,l⟩)
  | move (s : State E L V) (a : A) (i : Nat) (c : Option E) (l l' : L) (ev : List V)
      (hs : s.session i = some ⟨c,l⟩) (ha : P.act a i c l = some (.move l' ev)) :
      Step P s { s.setSession i ⟨c,l'⟩ with trace := s.trace ++ ev }
  | ack (s : State E L V) (a : A) (i : Nat) (c : Option E) (l la lf : L) (t : E) (ev : List V)
      (hs : s.session i = some ⟨c,l⟩) (ha : P.act a i c l = some (.commit t la lf ev))
      (hok : Accepts P s i c) :
      Step P s { s.setSession i ⟨some (P.committed c t),la⟩ with
        log := s.log ++ [P.committed c t], trace := s.trace ++ ev }
  | lost (s : State E L V) (a : A) (i : Nat) (c : Option E) (l la lf : L) (t : E) (ev : List V)
      (hs : s.session i = some ⟨c,l⟩) (ha : P.act a i c l = some (.commit t la lf ev))
      (hok : Accepts P s i c) :
      Step P s { s.setSession i ⟨c,lf⟩ with log := s.log ++ [P.committed c t] }
  | fail (s : State E L V) (a : A) (i : Nat) (c : Option E) (l la lf : L) (t : E) (ev : List V)
      (hs : s.session i = some ⟨c,l⟩) (ha : P.act a i c l = some (.commit t la lf ev)) :
      Step P s (s.setSession i ⟨c,lf⟩)

inductive Reachable (P : Protocol E L A V) : State E L V → Prop
  | init : Reachable P State.initial
  | step {s t : State E L V} : Reachable P s → Step P s t → Reachable P t

theorem Reachable.induct {P : Protocol E L A V} {I : State E L V → Prop} (h0 : I State.initial)
    (hstep : ∀ s t, Reachable P s → I s → Step P s t → I t) {s : State E L V}
    (h : Reachable P s) : I s := by
  induction h with
  | init => exact h0
  | step hr hs ih => exact hstep _ _ hr ih hs

section Sessions

variable (s : State E L V) (i : Nat) (x : Session E L)

@[simp] theorem setSession_log : (s.setSession i x).log = s.log := rfl

theorem setSession_eq_some {j : Nat} {y : Session E L} (h : (s.setSession i x).session j = some y) :
    (j = i ∧ y = x) ∨ (j ≠ i ∧ s.session j = some y) := by
  by_cases hj : j = i
  · subst hj
    simp only [State.setSession,Function.update_self,Option.some.injEq] at h
    exact .inl ⟨rfl,h.symm⟩
  · simp only [State.setSession,Function.update_of_ne hj] at h
    exact .inr ⟨hj,h⟩

end Sessions

inductive Becomes (P : Protocol E L A V) (s t : State E L V) (i : Nat) : Session E L → Prop
  | same (y : Session E L) (hs : s.session i = some y) : Becomes P s t i y
  | opened (hi : i = s.fence + 1) (hf : t.fence = s.fence + 1) : Becomes P s t i ⟨none,P.fresh⟩
  | loaded (l : L) (e : E) (hs : s.session i = some ⟨none,l⟩) (he : s.log.getLast? = some e) :
      Becomes P s t i ⟨some e,l⟩
  | moved (a : A) (c : Option E) (l l' : L) (ev : List V) (hs : s.session i = some ⟨c,l⟩)
      (ha : P.act a i c l = some (.move l' ev)) : Becomes P s t i ⟨c,l'⟩
  | acked (a : A) (c : Option E) (l la lf : L) (e : E) (ev : List V)
      (hs : s.session i = some ⟨c,l⟩) (ha : P.act a i c l = some (.commit e la lf ev))
      (hlog : t.log = s.log ++ [P.committed c e]) : Becomes P s t i ⟨some (P.committed c e),la⟩
  | failed (a : A) (c : Option E) (l la lf : L) (e : E) (ev : List V)
      (hs : s.session i = some ⟨c,l⟩) (ha : P.act a i c l = some (.commit e la lf ev)) :
      Becomes P s t i ⟨c,lf⟩

theorem Step.becomes {P : Protocol E L A V} {s t : State E L V} (hst : Step P s t) {j : Nat}
    {y : Session E L} (hy : t.session j = some y) : Becomes P s t j y := by
  cases hst with
  | acquire =>
    rcases setSession_eq_some _ _ _ hy with ⟨rfl,rfl⟩ | ⟨-,hj⟩
    · exact .opened rfl rfl
    · exact .same y hj
  | drop => exact .same y hy
  | load i l e hs he =>
    rcases setSession_eq_some _ _ _ hy with ⟨rfl,rfl⟩ | ⟨-,hj⟩
    · exact .loaded l e hs he
    · exact .same y hj
  | move a i c l l' ev hs ha =>
    rcases setSession_eq_some _ _ _ hy with ⟨rfl,rfl⟩ | ⟨-,hj⟩
    · exact .moved a c l l' ev hs ha
    · exact .same y hj
  | ack a i c l la lf e ev hs ha hok =>
    rcases setSession_eq_some _ _ _ hy with ⟨rfl,rfl⟩ | ⟨-,hj⟩
    · exact .acked a c l la lf e ev hs ha rfl
    · exact .same y hj
  | lost a i c l la lf e ev hs ha hok =>
    rcases setSession_eq_some _ _ _ hy with ⟨rfl,rfl⟩ | ⟨-,hj⟩
    · exact .failed a c l la lf e ev hs ha
    · exact .same y hj
  | fail a i c l la lf e ev hs ha =>
    rcases setSession_eq_some _ _ _ hy with ⟨rfl,rfl⟩ | ⟨-,hj⟩
    · exact .failed a c l la lf e ev hs ha
    · exact .same y hj

theorem Step.log_cases {P : Protocol E L A V} {s t : State E L V} (hst : Step P s t) :
    t.log = s.log ∨ ∃ a i c l la lf e ev, s.session i = some ⟨c,l⟩ ∧
      P.act a i c l = some (.commit e la lf ev) ∧ Accepts P s i c ∧
      t.log = s.log ++ [P.committed c e] := by
  cases hst with
  | acquire | drop | load | move | fail => exact .inl rfl
  | ack a i c l la lf e ev hs ha hok => exact .inr ⟨a,i,c,l,la,lf,e,ev,hs,ha,hok,rfl⟩
  | lost a i c l la lf e ev hs ha hok => exact .inr ⟨a,i,c,l,la,lf,e,ev,hs,ha,hok,rfl⟩

theorem Step.mem_log {P : Protocol E L A V} {s t : State E L V} (hst : Step P s t) {e : E}
    (he : e ∈ s.log) : e ∈ t.log := by
  rcases hst.log_cases with h | ⟨_,_,_,_,_,_,_,_,-,-,-,h⟩
  · rwa [h]
  · rw [h]
    exact List.mem_append_left _ he

theorem Step.fence_le {P : Protocol E L A V} {s t : State E L V} (hst : Step P s t) :
    s.fence ≤ t.fence := by
  cases hst with
  | acquire => exact Nat.le_succ _
  | drop | load | move | ack | lost | fail => exact Nat.le_refl _

/-- What storage guarantees: revisions count the entries, every cache is a committed entry and
every incarnation was issued. -/
structure Sound (P : Protocol E L A V) (s : State E L V) : Prop where
  stamped : ∀ k e, s.log[k]? = some e → P.revision e = k + 1
  cached : ∀ i x e, s.session i = some x → x.cache = some e → e ∈ s.log
  issued : ∀ i x, s.session i = some x → 0 < i ∧ i ≤ s.fence

/-- The heart of fencing: a proposal that storage accepts was computed from the last entry. -/
theorem Sound.cache_eq_last {P : Protocol E L A V} {s : State E L V} (h : Sound P s) {i : Nat}
    {c : Option E} {l : L} (hs : s.session i = some ⟨c,l⟩) (hok : Accepts P s i c) :
    c = s.log.getLast? := by
  cases c with
  | none =>
    have hlen : s.log.length = 0 := hok.2.symm
    simp [List.length_eq_zero_iff.mp hlen]
  | some e =>
    have hlen : P.revision e = s.log.length := hok.2
    obtain ⟨k,hk⟩ := List.getElem?_of_mem (h.cached i _ e hs rfl)
    have hrev := h.stamped k e hk
    have hlast : s.log.length - 1 = k := by omega
    rw [List.getLast?_eq_getElem?,hlast,hk]

private theorem stamped_append {P : Protocol E L A V} {s : State E L V} (h : Sound P s) {i : Nat}
    {c : Option E} {t : E} (hok : Accepts P s i c) (k : Nat) (e : E)
    (he : (s.log ++ [P.committed c t])[k]? = some e) : P.revision e = k + 1 := by
  rcases Nat.lt_or_ge k s.log.length with hk | hk
  · exact h.stamped k e (by rwa [List.getElem?_append_left hk] at he)
  · rw [List.getElem?_append_right hk] at he
    have hk0 : k - s.log.length = 0 := by
      by_contra hne
      rw [List.getElem?_eq_none (by simp; omega)] at he
      exact absurd he (by simp)
    simp only [hk0,List.getElem?_cons_zero,Option.some.injEq] at he
    rw [← he,Protocol.committed,P.revision_stamp,hok.2]
    omega

theorem Sound.step {P : Protocol E L A V} {s t : State E L V} (h : Sound P s) (hst : Step P s t) :
    Sound P t := by
  refine ⟨?_,?_,?_⟩
  · rcases hst.log_cases with hl | ⟨_,_,_,_,_,_,_,_,-,-,hok,hl⟩
    · rw [hl]
      exact h.stamped
    · rw [hl]
      exact stamped_append h hok
  · intro j y e hy hc
    cases hst.becomes hy with
    | same _ hs => exact hst.mem_log (h.cached j y e hs hc)
    | opened => cases hc
    | loaded l e' hs he =>
      cases hc
      exact hst.mem_log (List.mem_of_getLast? he)
    | moved a c l l' ev hs ha => exact hst.mem_log (h.cached j _ e hs hc)
    | acked a c l la lf e' ev hs ha hlog =>
      cases hc
      simp [hlog]
    | failed a c l la lf e' ev hs ha => exact hst.mem_log (h.cached j _ e hs hc)
  · intro j y hy
    have hissued : ∀ x, s.session j = some x → 0 < j ∧ j ≤ t.fence := fun x hx =>
      ⟨(h.issued j x hx).1,Nat.le_trans (h.issued j x hx).2 hst.fence_le⟩
    cases hst.becomes hy with
    | same _ hs => exact hissued y hs
    | opened hi hf => omega
    | loaded l e hs he => exact hissued _ hs
    | moved a c l l' ev hs ha => exact hissued _ hs
    | acked a c l la lf e ev hs ha hlog => exact hissued _ hs
    | failed a c l la lf e ev hs ha => exact hissued _ hs

theorem Reachable.sound {P : Protocol E L A V} {s : State E L V} (h : Reachable P s) : Sound P s := by
  refine h.induct ⟨?_,?_,?_⟩ fun s t _ hi hst => hi.step hst <;> simp [State.initial]

def Linked (R : Option E → E → Prop) (log : List E) : Prop :=
  ∀ pre e post, log = pre ++ e :: post → R pre.getLast? e

theorem Linked.nil (R : Option E → E → Prop) : Linked R [] := by
  intro pre e post h
  simp at h

theorem Linked.snoc {R : Option E → E → Prop} {log : List E} {e : E} (h : Linked R log)
    (he : R log.getLast? e) : Linked R (log ++ [e]) := by
  intro pre e' post heq
  rcases List.eq_nil_or_concat post with rfl | ⟨post,e'',rfl⟩
  · obtain ⟨rfl,h1⟩ := List.append_inj' heq rfl
    cases h1
    exact he
  · rw [List.concat_eq_append,← List.cons_append,← List.append_assoc] at heq
    exact h pre e' post (List.append_inj' heq rfl).1

/-- Proof obligations for a session invariant `J`, an entry invariant `K` and a relation `R`
between consecutive entries. None of them mentions storage or another session. -/
structure Rule (P : Protocol E L A V) (K : E → Prop) (J : Nat → Option E → L → Prop)
    (R : Option E → E → Prop) : Prop where
  fresh : ∀ i, 0 < i → J i none P.fresh
  load : ∀ i l e, K e → J i none l → J i (some e) l
  move : ∀ a i c l l' ev, (∀ e, c = some e → K e) → J i c l →
    P.act a i c l = some (.move l' ev) → J i c l'
  commit : ∀ a i c l la lf t ev, (∀ e, c = some e → K e) → J i c l →
    P.act a i c l = some (.commit t la lf ev) →
    R c (P.committed c t) ∧ J i (some (P.committed c t)) la ∧ J i c lf
  first : ∀ e, R none e → K e
  next : ∀ e e', K e → R (some e) e' → K e'

structure Holds (K : E → Prop) (J : Nat → Option E → L → Prop) (R : Option E → E → Prop)
    (s : State E L V) : Prop where
  entry : ∀ e ∈ s.log, K e
  session : ∀ i x, s.session i = some x → J i x.cache x.loc
  linked : Linked R s.log

theorem Rule.step {P : Protocol E L A V} {K : E → Prop} {J : Nat → Option E → L → Prop}
    {R : Option E → E → Prop} (h : Rule P K J R) {s t : State E L V} (hs : Sound P s)
    (hi : Holds K J R s) (hst : Step P s t) : Holds K J R t := by
  have hK : ∀ {i c l}, s.session i = some ⟨c,l⟩ → ∀ e, c = some e → K e := fun {i c l} hx e he =>
    hi.entry e (hs.cached i _ e hx he)
  have hlog : (∀ e ∈ t.log, K e) ∧ Linked R t.log := by
    rcases hst.log_cases with hl | ⟨a,i,c,l,la,lf,e,ev,hx,ha,hok,hl⟩
    · rw [hl]
      exact ⟨hi.entry,hi.linked⟩
    · have hR := (h.commit a i c l la lf e ev (hK hx) (hi.session i _ hx) ha).1
      have hlast := hs.cache_eq_last hx hok
      rw [hl]
      refine ⟨?_,hi.linked.snoc (by rwa [← hlast])⟩
      intro e' he'
      rcases List.mem_append.mp he' with he' | he'
      · exact hi.entry e' he'
      · rw [List.mem_singleton.mp he']
        cases c with
        | none => exact h.first _ hR
        | some e0 => exact h.next e0 _ (hK hx e0 rfl) hR
  refine ⟨hlog.1,?_,hlog.2⟩
  intro j y hy
  cases hst.becomes hy with
  | same _ hx => exact hi.session j y hx
  | opened hj hf => exact h.fresh j (by omega)
  | loaded l e hx he => exact h.load j l e (hi.entry e (List.mem_of_getLast? he)) (hi.session j _ hx)
  | moved a c l l' ev hx ha => exact h.move a j c l l' ev (hK hx) (hi.session j _ hx) ha
  | acked a c l la lf e ev hx ha _ =>
    exact (h.commit a j c l la lf e ev (hK hx) (hi.session j _ hx) ha).2.1
  | failed a c l la lf e ev hx ha =>
    exact (h.commit a j c l la lf e ev (hK hx) (hi.session j _ hx) ha).2.2

/-- The invariant rule: local obligations give facts about every run of every set of sessions. -/
theorem Rule.reachable {P : Protocol E L A V} {K : E → Prop} {J : Nat → Option E → L → Prop}
    {R : Option E → E → Prop} (h : Rule P K J R) {s : State E L V} (hr : Reachable P s) :
    Holds K J R s := by
  refine hr.induct ⟨?_,?_,?_⟩ fun s t hr hi hst => h.step hr.sound hi hst
  · simp [State.initial]
  · simp [State.initial]
  · exact Linked.nil R

def Protocol.restrict (P : Protocol E L A V) (guard : A → Option E → L → Bool) : Protocol E L A V :=
  { P with act := fun a i c l => if guard a c l then P.act a i c l else none }

theorem Protocol.restrict_act {P : Protocol E L A V} {guard : A → Option E → L → Bool} {a : A} {i : Nat}
    {c : Option E} {l : L} {x : Act E L V} :
    (P.restrict guard).act a i c l = some x ↔ guard a c l = true ∧ P.act a i c l = some x :=
  Option.ite_none_right_eq_some

theorem Reachable.of_restrict {P : Protocol E L A V} {guard : A → Option E → L → Bool} {s : State E L V}
    (h : Reachable (P.restrict guard) s) : Reachable P s := by
  refine h.induct .init fun s t _ hr hst => hr.step ?_
  cases hst with
  | acquire => exact .acquire s
  | drop => exact .drop s
  | load i l e hs he => exact .load s i l e hs he
  | move a i c l l' ev hs ha => exact .move s a i c l l' ev hs (Protocol.restrict_act.mp ha).2
  | ack a i c l la lf t ev hs ha hok => exact .ack s a i c l la lf t ev hs (Protocol.restrict_act.mp ha).2 hok
  | lost a i c l la lf t ev hs ha hok =>
    exact .lost s a i c l la lf t ev hs (Protocol.restrict_act.mp ha).2 hok
  | fail a i c l la lf t ev hs ha => exact .fail s a i c l la lf t ev hs (Protocol.restrict_act.mp ha).2

theorem Rule.restrict {P : Protocol E L A V} {K : E → Prop} {J : Nat → Option E → L → Prop}
    {R : Option E → E → Prop} (h : Rule P K J R) (guard : A → Option E → L → Bool) :
    Rule (P.restrict guard) K J R where
  fresh := h.fresh
  load := h.load
  move a i c l l' ev hK hJ hact := h.move a i c l l' ev hK hJ (Protocol.restrict_act.mp hact).2
  commit a i c l la lf t ev hK hJ hact := h.commit a i c l la lf t ev hK hJ (Protocol.restrict_act.mp hact).2
  first := h.first
  next := h.next

theorem Rule.strengthen {P : Protocol E L A V} {K K' : E → Prop} {J J' : Nat → Option E → L → Prop}
    {R : Option E → E → Prop} (h : Rule P K J R) (fresh : ∀ i, 0 < i → J' i none P.fresh)
    (load : ∀ i l e, K e → K' e → J i none l → J' i none l → J' i (some e) l)
    (move : ∀ a i c l l' ev, (∀ e, c = some e → K e ∧ K' e) → J i c l → J' i c l →
      P.act a i c l = some (.move l' ev) → J' i c l')
    (commit : ∀ a i c l la lf t ev, (∀ e, c = some e → K e ∧ K' e) → J i c l → J' i c l →
      (∀ e, c = some e → 0 < P.revision e) → P.act a i c l = some (.commit t la lf ev) →
      K' (P.committed c t) ∧ J' i (some (P.committed c t)) la ∧ J' i c lf)
    {s : State E L V} (hr : Reachable P s) :
    (∀ e ∈ s.log, K' e) ∧ ∀ i x, s.session i = some x → J' i x.cache x.loc := by
  have hrule : Rule P (fun e => (K e ∧ K' e) ∧ 0 < P.revision e) (fun i c l => J i c l ∧ J' i c l)
      (fun c e' => R c e' ∧ (K' e' ∧ 0 < P.revision e')) := by
    refine ⟨fun i hi => ⟨h.fresh i hi,fresh i hi⟩,?_,?_,?_,?_,?_⟩
    · intro i l e hK hJ
      exact ⟨h.load i l e hK.1.1 hJ.1,load i l e hK.1.1 hK.1.2 hJ.1 hJ.2⟩
    · intro a i c l l' ev hK hJ hact
      exact ⟨h.move a i c l l' ev (fun e he => (hK e he).1.1) hJ.1 hact,
        move a i c l l' ev (fun e he => (hK e he).1) hJ.1 hJ.2 hact⟩
    · intro a i c l la lf t ev hK hJ hact
      obtain ⟨hR,hack,hfail⟩ := h.commit a i c l la lf t ev (fun e he => (hK e he).1.1) hJ.1 hact
      obtain ⟨hK',hack',hfail'⟩ := commit a i c l la lf t ev (fun e he => (hK e he).1) hJ.1 hJ.2
        (fun e he => (hK e he).2) hact
      have hpos : 0 < P.revision (P.committed c t) := by
        rw [Protocol.committed,P.revision_stamp]
        exact Nat.succ_pos _
      exact ⟨⟨hR,hK',hpos⟩,⟨hack,hack'⟩,hfail,hfail'⟩
    · intro e hR
      exact ⟨⟨h.first e hR.1,hR.2.1⟩,hR.2.2⟩
    · intro e e' hK hR
      exact ⟨⟨h.next e e' hK.1.1 hR.1,hR.2.1⟩,hR.2.2⟩
  have hholds := hrule.reachable hr
  exact ⟨fun e he => (hholds.entry e he).1.2,fun i x hx => (hholds.session i x hx).2⟩

theorem Rule.entries {P : Protocol E L A V} {K K' : E → Prop} {J : Nat → Option E → L → Prop}
    {R : Option E → E → Prop} (h : Rule P K J R) (h0 : ∀ e, R none e → K' e)
    (hstep : ∀ a i e l la lf t ev, K e → K' e → J i (some e) l →
      P.act a i (some e) l = some (.commit t la lf ev) → K' (P.committed (some e) t))
    {s : State E L V} (hr : Reachable P s) : ∀ e ∈ s.log, K' e := by
  have hnone : ∀ i, 0 < i → (fun (_ : Nat) (_ : Option E) (_ : L) => True) i none P.fresh :=
    fun _ _ => trivial
  refine (h.strengthen hnone (fun _ _ _ _ _ _ _ => trivial)
    (fun _ _ _ _ _ _ _ _ _ _ => trivial) ?_ hr).1
  intro a i c l la lf t ev hK hJ _ _ hact
  cases c with
  | none =>
    exact ⟨h0 _ (h.commit a i none l la lf t ev (fun e he => (hK e he).1) hJ hact).1,trivial,trivial⟩
  | some e => exact ⟨hstep a i e l la lf t ev (hK e rfl).1 (hK e rfl).2 hJ hact,trivial,trivial⟩

theorem Linked.forall {R : Option E → E → Prop} {K : E → Prop} {log : List E} (h : Linked R log)
    (h0 : ∀ e ∈ log, R none e → K e) (hR : ∀ e ∈ log, ∀ e' ∈ log, K e → R (some e) e' → K e') :
    ∀ e ∈ log, K e := by
  have hpre : ∀ pre e post, log = pre ++ e :: post → K e := by
    intro pre
    induction pre using List.reverseRecOn with
    | nil => exact fun e post hlog => h0 e (by simp [hlog]) (h _ _ _ hlog)
    | append_singleton pre e0 ih =>
      intro e post hlog
      have hlink := h _ _ _ hlog
      rw [List.getLast?_append_of_ne_nil _ (List.cons_ne_nil _ _),List.getLast?_singleton] at hlink
      refine hR e0 (by simp [hlog]) e (by simp [hlog]) (ih e0 (e :: post) ?_) hlink
      rw [hlog,List.append_assoc]
      rfl
  intro e he
  obtain ⟨pre,post,hlog⟩ := List.append_of_mem he
  exact hpre pre e post hlog

theorem Linked.next {R : Option E → E → Prop} {log : List E} (h : Linked R log) {n : Nat} {e e' : E}
    (hn : log[n]? = some e) (hn' : log[n + 1]? = some e') : R (some e) e' := by
  obtain ⟨hlen,hget⟩ := List.getElem?_eq_some_iff.mp hn'
  have hsplit : log = log.take (n+1) ++ e' :: log.drop (n+2) := by
    rw [← hget,List.getElem_cons_drop,List.take_append_drop]
  have hprev : (log.take (n+1)).getLast? = log[n]? := by
    rw [List.getLast?_eq_getElem?,List.length_take,List.getElem?_take]
    simp [show min (n+1) log.length = n+1 by omega]
  have hR := h _ _ _ hsplit
  rwa [hprev,hn] at hR

theorem Linked.trans {R : Option E → E → Prop} {T : E → E → Prop} {log : List E} (h : Linked R log)
    (hT : ∀ e e', R (some e) e' → T e e') (htr : ∀ e e' e'', T e e' → T e' e'' → T e e'')
    {k n : Nat} {e e' : E} (hk : log[k]? = some e) (hn : log[n]? = some e') (hlt : k < n) :
    T e e' := by
  induction n generalizing e' with
  | zero => omega
  | succ n ih =>
    have hlen := (List.getElem?_eq_some_iff.mp hn).1
    have hn' : log[n]? = some log[n] := List.getElem?_eq_getElem (by omega)
    have hlast := hT _ _ (h.next hn' hn)
    rcases Nat.lt_or_ge k n with hkn | hkn
    · exact htr _ _ _ (ih hn' hkn) hlast
    · obtain rfl : k = n := by omega
      rw [hn'] at hk
      cases hk
      exact hlast

theorem Step.trace_append {P : Protocol E L A V} {s t : State E L V} (hst : Step P s t) :
    ∃ ev, t.trace = s.trace ++ ev := by
  cases hst with
  | acquire | drop | load | lost | fail => exact ⟨[],(List.append_nil _).symm⟩
  | move a i c l l' ev => exact ⟨ev,rfl⟩
  | ack a i c l la lf e ev => exact ⟨ev,rfl⟩

/-- Proof obligations for local states that rest on events: what `needs` names has happened. -/
structure Evidence (P : Protocol E L A V) (needs : Nat → L → V → Prop) : Prop where
  fresh : ∀ i v, ¬needs i P.fresh v
  move : ∀ a i c l l' ev v, P.act a i c l = some (.move l' ev) → needs i l' v → needs i l v ∨ v ∈ ev
  commit : ∀ a i c l la lf t ev v, P.act a i c l = some (.commit t la lf ev) →
    (needs i la v → needs i l v ∨ v ∈ ev) ∧ (needs i lf v → needs i l v)

theorem Evidence.reachable {P : Protocol E L A V} {needs : Nat → L → V → Prop} (h : Evidence P needs)
    {s : State E L V} (hr : Reachable P s) :
    ∀ i x v, s.session i = some x → needs i x.loc v → v ∈ s.trace := by
  refine hr.induct (I := fun s => ∀ i x v, s.session i = some x → needs i x.loc v → v ∈ s.trace) ?_ ?_
  · simp [State.initial]
  intro s t _ ih hst i x v hx hv
  obtain ⟨ev,htrace⟩ := hst.trace_append
  have hkeep : ∀ l c, s.session i = some ⟨c,l⟩ → needs i l v → v ∈ t.trace := fun l c hs hn => by
    rw [htrace]
    exact List.mem_append_left _ (ih i _ v hs hn)
  cases hst with
  | acquire =>
    rcases setSession_eq_some _ _ _ hx with ⟨-,rfl⟩ | ⟨-,hs⟩
    · exact absurd hv (h.fresh i v)
    · exact hkeep _ _ hs hv
  | drop => exact hkeep _ _ hx hv
  | load j l e hs he =>
    rcases setSession_eq_some _ _ _ hx with ⟨rfl,rfl⟩ | ⟨-,hs'⟩
    · exact hkeep _ _ hs hv
    · exact hkeep _ _ hs' hv
  | move a j c l l' ev hs ha =>
    rcases setSession_eq_some _ _ _ hx with ⟨rfl,rfl⟩ | ⟨-,hs'⟩
    · exact (h.move a i c l l' ev v ha hv).elim (hkeep _ _ hs) (List.mem_append_right _)
    · exact hkeep _ _ hs' hv
  | ack a j c l la lf e ev hs ha hok =>
    rcases setSession_eq_some _ _ _ hx with ⟨rfl,rfl⟩ | ⟨-,hs'⟩
    · exact ((h.commit a i c l la lf e ev v ha).1 hv).elim (hkeep _ _ hs) (List.mem_append_right _)
    · exact hkeep _ _ hs' hv
  | lost a j c l la lf e ev hs ha hok =>
    rcases setSession_eq_some _ _ _ hx with ⟨rfl,rfl⟩ | ⟨-,hs'⟩
    · exact hkeep _ _ hs ((h.commit a i c l la lf e ev v ha).2 hv)
    · exact hkeep _ _ hs' hv
  | fail a j c l la lf e ev hs ha =>
    rcases setSession_eq_some _ _ _ hx with ⟨rfl,rfl⟩ | ⟨-,hs'⟩
    · exact hkeep _ _ hs ((h.commit a i c l la lf e ev v ha).2 hv)
    · exact hkeep _ _ hs' hv

theorem Reachable.linked_trace {P : Protocol E L A V} {R : List V → Option E → E → Prop}
    (hmono : ∀ tr ev c e, R tr c e → R (tr ++ ev) c e)
    (hcommit : ∀ s a i c l la lf t ev, Reachable P s → s.session i = some ⟨c,l⟩ →
      P.act a i c l = some (.commit t la lf ev) → Accepts P s i c → R s.trace c (P.committed c t))
    {s : State E L V} (hr : Reachable P s) : Linked (R s.trace) s.log := by
  refine hr.induct (I := fun s => Linked (R s.trace) s.log) (Linked.nil _) ?_
  intro s t hr ih hst
  obtain ⟨ev,htrace⟩ := hst.trace_append
  have hold : Linked (R t.trace) s.log := fun pre e post hlog => by
    rw [htrace]
    exact hmono _ _ _ _ (ih pre e post hlog)
  rcases hst.log_cases with hl | ⟨a,i,c,l,la,lf,e,ev',hs,ha,hok,hl⟩
  · rwa [hl]
  · rw [hl]
    refine hold.snoc ?_
    rw [← hr.sound.cache_eq_last hs hok,htrace]
    exact hmono _ _ _ _ (hcommit s a i c l la lf e ev' hr hs ha hok)

theorem Reachable.trace_supported {P : Protocol E L A V} {S : List E → V → Prop}
    (hmono : ∀ log e v, S log v → S (log ++ [e]) v)
    (hmove : ∀ s a i c l l' ev, Reachable P s → s.session i = some ⟨c,l⟩ →
      P.act a i c l = some (.move l' ev) → ∀ v ∈ ev, S s.log v)
    (hack : ∀ s a i c l la lf t ev, Reachable P s → s.session i = some ⟨c,l⟩ →
      P.act a i c l = some (.commit t la lf ev) → Accepts P s i c →
      ∀ v ∈ ev, S (s.log ++ [P.committed c t]) v)
    {s : State E L V} (hr : Reachable P s) : ∀ v ∈ s.trace, S s.log v := by
  refine hr.induct (I := fun s => ∀ v ∈ s.trace, S s.log v) ?_ ?_
  · simp [State.initial]
  intro s t hr ih hst v hv
  cases hst with
  | acquire => exact ih v hv
  | drop => exact ih v hv
  | load i l e hs he => exact ih v hv
  | move a i c l l' ev hs ha =>
    cases List.mem_append.mp hv with
    | inl hv => exact ih v hv
    | inr hv => exact hmove s a i c l l' ev hr hs ha v hv
  | ack a i c l la lf e ev hs ha hok =>
    cases List.mem_append.mp hv with
    | inl hv => exact hmono _ _ v (ih v hv)
    | inr hv => exact hack s a i c l la lf e ev hr hs ha hok v hv
  | lost a i c l la lf e ev hs ha hok => exact hmono _ _ v (ih v hv)
  | fail a i c l la lf e ev hs ha => exact ih v hv

inductive Command (A : Type*)
  | acquire
  | load (i : Nat)
  | act (i : Nat) (a : A)

def Protocol.exec (P : Protocol E L A V) (s : State E L V) : Command A → Option (State E L V)
  | .acquire => some ({ s with fence := s.fence + 1, holder := some (s.fence + 1) }.setSession
      (s.fence + 1) ⟨none,P.fresh⟩)
  | .load i =>
    match s.session i, s.log.getLast? with
    | some ⟨none,l⟩, some e => some (s.setSession i ⟨some e,l⟩)
    | _, _ => none
  | .act i a =>
    match s.session i with
    | none => none
    | some ⟨c,l⟩ =>
      match P.act a i c l with
      | none => none
      | some (.move l' ev) => some { s.setSession i ⟨c,l'⟩ with trace := s.trace ++ ev }
      | some (.commit t la _ ev) =>
        if s.holder = some i ∧ P.expected c = s.log.length then
          some { s.setSession i ⟨some (P.committed c t),la⟩ with
            log := s.log ++ [P.committed c t], trace := s.trace ++ ev }
        else none

theorem Step.of_exec {P : Protocol E L A V} {s t : State E L V} {c : Command A}
    (h : P.exec s c = some t) : Step P s t := by
  cases c with
  | acquire =>
    cases h
    exact .acquire s
  | load i =>
    simp only [Protocol.exec] at h
    split at h
    · rename_i l e hs he
      cases h
      exact .load s i l e hs he
    · cases h
  | act i a =>
    simp only [Protocol.exec] at h
    split at h
    · cases h
    · rename_i c l hs
      split at h
      · cases h
      · rename_i l' ev ha
        cases h
        exact .move s a i c l l' ev hs ha
      · rename_i e la lf ev ha
        split at h
        · rename_i hok
          cases h
          exact .ack s a i c l la lf e ev hs ha hok
        · cases h

def Protocol.script (P : Protocol E L A V) (cs : List (Command A)) : Option (State E L V) :=
  cs.foldlM P.exec State.initial

theorem Reachable.of_script {P : Protocol E L A V} {cs : List (Command A)} {t : State E L V}
    (h : P.script cs = some t) : Reachable P t := by
  suffices hrun : ∀ s, Reachable P s → cs.foldlM P.exec s = some t → Reachable P t from
    hrun _ .init h
  clear h
  induction cs with
  | nil =>
    intro s hs h
    cases h
    exact hs
  | cons c cs ih =>
    intro s hs h
    rw [List.foldlM_cons,Option.bind_eq_bind,Option.bind_eq_some_iff] at h
    obtain ⟨s',hc,h⟩ := h
    exact ih s' (hs.step (.of_exec hc)) h

end Flowy.Fencing
