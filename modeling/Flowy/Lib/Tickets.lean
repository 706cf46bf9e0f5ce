import Mathlib.Data.List.Nodup
import Mathlib.Data.List.Perm.Subperm
import Mathlib.Order.Nat
import Flowy.Lib.Fencing

/-! Single-use permissions over a fenced log. A commit may issue a ticket to its session once it is
acknowledged, and the session may use it once. If an entry of the log remembers every ticket that
was issued, no ticket is used twice, by any sessions and whatever acknowledgements are lost. -/
namespace Flowy.Fencing

open scoped List

variable {E L A T : Type*}

inductive Ticket (T : Type*)
  | issue (session : Nat) (ticket : T) (revision : Nat)
  | use (session : Nat) (ticket : T)
deriving DecidableEq

def issues (trace : List (Ticket T)) : List (Nat × T) :=
  trace.filterMap fun
    | .issue i x _ => some (i,x)
    | .use _ _ => none

def uses (trace : List (Ticket T)) : List (Nat × T) :=
  trace.filterMap fun
    | .issue _ _ _ => none
    | .use i x => some (i,x)

theorem mem_issues {trace : List (Ticket T)} {i : Nat} {x : T} :
    (i,x) ∈ issues trace ↔ ∃ rev, Ticket.issue i x rev ∈ trace := by
  simp only [issues,List.mem_filterMap]
  constructor
  · rintro ⟨v,hv,he⟩
    cases v with
    | issue j y rev =>
      cases he
      exact ⟨rev,hv⟩
    | use j y => cases he
  · rintro ⟨rev,hv⟩
    exact ⟨_,hv,rfl⟩

/-- Obligations of a protocol whose sessions hold the tickets `held`; `Spent x e` says that entry
`e` remembers ticket `x`, and `Issues x c e` that committing `e` on top of `c` issues it. -/
structure TicketRule (P : Protocol E L A (Ticket T)) (K : E → Prop) (J : Nat → Option E → L → Prop)
    (R : Option E → E → Prop) (held : L → List T) (Spent : T → E → Prop)
    (Issues : T → Option E → E → Prop) : Prop where
  fresh : held P.fresh = []
  move : ∀ a i c l l' ev, (∀ e, c = some e → K e) → J i c l → P.act a i c l = some (.move l' ev) →
    (ev = [] ∧ held l' <+~ held l) ∨ ∃ x, ev = [.use i x] ∧ x :: held l' <+~ held l
  commit : ∀ a i c l la lf t ev, (∀ e, c = some e → K e) → J i c l →
    P.act a i c l = some (.commit t la lf ev) → held lf <+~ held l ∧ ((ev = [] ∧ held la <+~ held l) ∨
      ∃ x, ev = [.issue i x (P.expected c + 1)] ∧ held la <+~ x :: held l ∧
        (∀ e, c = some e → ¬Spent x e) ∧ Issues x c (P.committed c t))
  spent : ∀ x c e, Issues x c e → Spent x e
  keeps : ∀ x e e', R (some e) e' → Spent x e → Spent x e'

structure Ticketed [DecidableEq T] (held : L → List T) (Spent : T → E → Prop)
    (Issues : T → Option E → E → Prop) (s : State E L (Ticket T)) : Prop where
  issued : ∀ v ∈ s.trace, (match v with | .issue i _ _ => i | .use i _ => i) ≤ s.fence
  covered : ∀ i x y, s.session i = some x →
    (uses s.trace).count (i,y) + (held x.loc).count y ≤ (issues s.trace).count (i,y)
  balanced : ∀ i y, (uses s.trace).count (i,y) ≤ (issues s.trace).count (i,y)
  distinct : ((issues s.trace).map Prod.snd).Nodup
  spent : ∀ i y, (i,y) ∈ issues s.trace → ∃ e, s.log.getLast? = some e ∧ Spent y e
  preceded : ∀ pre i y post, s.trace = pre ++ .use i y :: post → ∃ rev, Ticket.issue i y rev ∈ pre
  committed : ∀ i y rev, Ticket.issue i y rev ∈ s.trace →
    ∃ pre e post, s.log = pre ++ e :: post ∧ pre.length + 1 = rev ∧ Issues y pre.getLast? e

private theorem held_set {held : L → List T} {s : State E L (Ticket T)} {i : Nat}
    {x y : Session E L} (hx : s.session i = some x) (hsub : held y.loc <+~ held x.loc) (j : Nat) (z : Session E L)
    (hz : (s.setSession i y).session j = some z) :
    held z.loc = [] ∨ ∃ x0, s.session j = some x0 ∧ held z.loc <+~ held x0.loc := by
  rcases setSession_eq_some _ _ _ hz with ⟨rfl,rfl⟩ | ⟨-,hz⟩
  · exact .inr ⟨x,hx,hsub⟩
  · exact .inr ⟨z,hz,.refl _⟩

section Preservation

variable [DecidableEq T] {P : Protocol E L A (Ticket T)} {K : E → Prop}
  {J : Nat → Option E → L → Prop} {R : Option E → E → Prop} {held : L → List T}
  {Spent : T → E → Prop} {Issues : T → Option E → E → Prop} {s t : State E L (Ticket T)}

theorem Ticketed.once (h : Ticketed held Spent Issues s) : ((uses s.trace).map Prod.snd).Nodup := by
  have hissues : (issues s.trace).Nodup := .of_map _ h.distinct
  have huses : (uses s.trace).Nodup := by
    rw [List.nodup_iff_count_le_one]
    intro a
    exact (h.balanced a.1 a.2).trans (List.nodup_iff_count_le_one.mp hissues a)
  have hmem : ∀ a ∈ uses s.trace, a ∈ issues s.trace := fun a ha =>
    List.count_pos_iff.mp ((List.count_pos_iff.mpr ha).trans_le (h.balanced a.1 a.2))
  exact huses.map_on fun a ha b hb hab => List.inj_on_of_nodup_map h.distinct (hmem a ha) (hmem b hb) hab

theorem Ticketed.of_quiet (h : Ticketed held Spent Issues s) (htr : t.trace = s.trace)
    (hf : s.fence ≤ t.fence)
    (hlog : t.log = s.log ∨ ∃ e, t.log = s.log ++ [e] ∧
      ∀ e0 y, s.log.getLast? = some e0 → Spent y e0 → Spent y e)
    (hheld : ∀ i x, t.session i = some x → held x.loc = [] ∨
      ∃ x0, s.session i = some x0 ∧ held x.loc <+~ held x0.loc) :
    Ticketed held Spent Issues t := by
  refine ⟨?_,?_,?_,?_,?_,?_,?_⟩
  · intro v hv
    rw [htr] at hv
    exact (h.issued v hv).trans hf
  · intro i x y hx
    rw [htr]
    rcases hheld i x hx with hnil | ⟨x0,hx0,hsub⟩
    · simpa [hnil] using h.balanced i y
    · have hle := hsub.count_le y
      have hcov := h.covered i x0 y hx0
      omega
  · simpa [htr] using h.balanced
  · simpa [htr] using h.distinct
  · intro i y hy
    rw [htr] at hy
    obtain ⟨e0,he0,hsp⟩ := h.spent i y hy
    rcases hlog with hl | ⟨e,hl,hkeep⟩
    · exact ⟨e0,by rw [hl,he0],hsp⟩
    · exact ⟨e,by simp [hl],hkeep e0 y he0 hsp⟩
  · rw [htr]
    exact h.preceded
  · intro i y rev hv
    rw [htr] at hv
    obtain ⟨pre,e,post,hsplit,hlen,hiss⟩ := h.committed i y rev hv
    rcases hlog with hl | ⟨e',hl,-⟩
    · exact ⟨pre,e,post,by rw [hl,hsplit],hlen,hiss⟩
    · exact ⟨pre,e,post ++ [e'],by simp [hl,hsplit],hlen,hiss⟩

theorem Ticketed.of_use (h : Ticketed held Spent Issues s) {i : Nat} {y : T} {x : Session E L} {l' : L}
    (hi : i ≤ s.fence) (hx : s.session i = some x) (hsub : y :: held l' <+~ held x.loc) :
    Ticketed held Spent Issues
      { s.setSession i ⟨x.cache,l'⟩ with trace := s.trace ++ [.use i y] } := by
  have hissues : issues (s.trace ++ [.use i y]) = issues s.trace := by simp [issues]
  have huses : uses (s.trace ++ [.use i y]) = uses s.trace ++ [(i,y)] := by simp [uses]
  have hhave : 0 < (held x.loc).count y := (by simp : 0 < (y :: held l').count y).trans_le (hsub.count_le y)
  refine ⟨?_,?_,?_,?_,?_,?_,?_⟩
  · intro v hv
    rcases List.mem_append.mp hv with hv | hv
    · exact h.issued v hv
    · rw [List.mem_singleton.mp hv]
      exact hi
  · intro j z w hz
    rw [hissues,huses,List.count_append]
    rcases setSession_eq_some _ _ _ hz with ⟨rfl,rfl⟩ | ⟨hj,hz⟩
    · have hcov := h.covered j x w hx
      have hle := hsub.count_le w
      simp only [List.count_cons,List.count_nil,beq_iff_eq,Prod.mk.injEq,true_and] at hle ⊢
      omega
    · have hcov := h.covered j z w hz
      have hne : ((i,y) == (j,w)) = false := by simp [Ne.symm hj]
      simpa [List.count_cons,hne] using hcov
  · intro j w
    rw [hissues,huses,List.count_append]
    by_cases hjw : (i,y) = (j,w)
    · cases hjw
      have hcov := h.covered i x y hx
      simp only [List.count_cons_self,List.count_nil]
      omega
    · simpa [List.count_cons,hjw] using h.balanced j w
  · simpa [hissues] using h.distinct
  · simpa [hissues] using h.spent
  · intro pre j w post heq
    rcases List.eq_nil_or_concat post with rfl | ⟨post,v,rfl⟩
    · obtain ⟨rfl,h1⟩ := List.append_inj' heq rfl
      cases h1
      have hcov := h.covered i x y hx
      exact mem_issues.mp (List.count_pos_iff.mp (by omega))
    · rw [List.concat_eq_append,← List.cons_append,← List.append_assoc] at heq
      exact h.preceded pre j w post (List.append_inj' heq rfl).1
  · intro j w rev hv
    refine h.committed j w rev ?_
    rcases List.mem_append.mp hv with hv | hv
    · exact hv
    · cases List.mem_singleton.mp hv

theorem Ticketed.of_issue (h : Ticketed held Spent Issues s) {i : Nat} {y : T} {x : Session E L}
    {la : L} {e : E} (hi : i ≤ s.fence) (hx : s.session i = some x)
    (hsub : held la <+~ y :: held x.loc) (hnew : ∀ e0, s.log.getLast? = some e0 → ¬Spent y e0)
    (hiss : Issues y s.log.getLast? e) (hspent : Spent y e)
    (hkeep : ∀ e0 w, s.log.getLast? = some e0 → Spent w e0 → Spent w e) :
    Ticketed held Spent Issues { s.setSession i ⟨some e,la⟩ with
      log := s.log ++ [e], trace := s.trace ++ [.issue i y (s.log.length + 1)] } := by
  have hissues : issues (s.trace ++ [.issue i y (s.log.length + 1)]) = issues s.trace ++ [(i,y)] := by
    simp [issues]
  have huses : uses (s.trace ++ [.issue i y (s.log.length + 1)]) = uses s.trace := by simp [uses]
  refine ⟨?_,?_,?_,?_,?_,?_,?_⟩
  · intro v hv
    rcases List.mem_append.mp hv with hv | hv
    · exact h.issued v hv
    · rw [List.mem_singleton.mp hv]
      exact hi
  · intro j z w hz
    rw [hissues,huses,List.count_append]
    rcases setSession_eq_some _ _ _ hz with ⟨rfl,rfl⟩ | ⟨hj,hz⟩
    · have hcov := h.covered j x w hx
      have hle := hsub.count_le w
      simp only [List.count_cons,List.count_nil,beq_iff_eq,Prod.mk.injEq,true_and] at hle ⊢
      omega
    · have hcov := h.covered j z w hz
      have := Nat.le_add_right (List.count (j,w) (issues s.trace)) (List.count (j,w) [(i,y)])
      omega
  · intro j w
    rw [hissues,huses,List.count_append]
    exact (h.balanced j w).trans (Nat.le_add_right _ _)
  · rw [hissues,List.map_append]
    refine List.nodup_append.mpr ⟨h.distinct,by simp,?_⟩
    rintro w hw w' hw' rfl
    obtain ⟨⟨j,w'⟩,hmem,rfl⟩ := List.mem_map.mp hw
    obtain ⟨e0,he0,hsp⟩ := h.spent j _ hmem
    simp only [List.map_cons,List.map_nil,List.mem_singleton] at hw'
    exact hnew e0 he0 (hw' ▸ hsp)
  · intro j w hw
    refine ⟨e,by simp,?_⟩
    rw [hissues] at hw
    rcases List.mem_append.mp hw with hw | hw
    · obtain ⟨e0,he0,hsp⟩ := h.spent j w hw
      exact hkeep e0 w he0 hsp
    · cases List.mem_singleton.mp hw
      exact hspent
  · intro pre j w post heq
    rcases List.eq_nil_or_concat post with rfl | ⟨post,v,rfl⟩
    · obtain ⟨-,h1⟩ := List.append_inj' heq rfl
      cases h1
    · rw [List.concat_eq_append,← List.cons_append,← List.append_assoc] at heq
      exact h.preceded pre j w post (List.append_inj' heq rfl).1
  · intro j w rev hv
    rcases List.mem_append.mp hv with hv | hv
    · obtain ⟨pre,e',post,hsplit,hlen,hiss'⟩ := h.committed j w rev hv
      exact ⟨pre,e',post ++ [e],by simp [hsplit],hlen,hiss'⟩
    · cases List.mem_singleton.mp hv
      exact ⟨s.log,e,[],rfl,rfl,hiss⟩

theorem TicketRule.step (h : TicketRule P K J R held Spent Issues) (hrule : Rule P K J R)
    (hr : Reachable P s) (ht : Ticketed held Spent Issues s) (hst : Step P s t) :
    Ticketed held Spent Issues t := by
  have hsound := hr.sound
  have hholds := hrule.reachable hr
  have hK : ∀ {i c l}, s.session i = some ⟨c,l⟩ → ∀ e, c = some e → K e := fun {i c l} hx e he =>
    hholds.entry e (hsound.cached i _ e hx he)
  -- an accepted proposal extends the last entry
  have hkeep : ∀ {a i c l la lf e ev}, s.session i = some ⟨c,l⟩ →
      P.act a i c l = some (.commit e la lf ev) → Accepts P s i c →
      ∀ e0 w, s.log.getLast? = some e0 → Spent w e0 → Spent w (P.committed c e) := by
    intro a i c l la lf e ev hx ha hok e0 w he0
    have hR := (hrule.commit a i c l la lf e ev (hK hx) (hholds.session i _ hx) ha).1
    rw [hsound.cache_eq_last hx hok,he0] at hR
    rw [hsound.cache_eq_last hx hok,he0]
    exact h.keeps w e0 _ hR
  cases hst with
  | acquire =>
    refine ht.of_quiet rfl (Nat.le_succ _) (.inl rfl) fun j x hx => ?_
    rcases setSession_eq_some _ _ _ hx with ⟨rfl,rfl⟩ | ⟨-,hx⟩
    · exact .inl h.fresh
    · exact .inr ⟨x,hx,.refl _⟩
  | drop => exact ht.of_quiet rfl le_rfl (.inl rfl) fun j x hx => .inr ⟨x,hx,.refl _⟩
  | load i l e hs he => exact ht.of_quiet rfl le_rfl (.inl rfl) (held_set hs (.refl _))
  | move a i c l l' ev hs ha =>
    rcases h.move a i c l l' ev (hK hs) (hholds.session i _ hs) ha with ⟨rfl,hsub⟩ | ⟨x,rfl,hsub⟩
    · exact ht.of_quiet (List.append_nil _) le_rfl (.inl rfl) (held_set hs hsub)
    · exact ht.of_use (hsound.issued i _ hs).2 hs hsub
  | ack a i c l la lf e ev hs ha hok =>
    rcases (h.commit a i c l la lf e ev (hK hs) (hholds.session i _ hs) ha).2 with
      ⟨rfl,hsub⟩ | ⟨x,rfl,hsub,hnew,hiss⟩
    · exact ht.of_quiet (List.append_nil _) le_rfl (.inr ⟨_,rfl,hkeep hs ha hok⟩) (held_set hs hsub)
    · have hlast := hsound.cache_eq_last hs hok
      have hissued := ht.of_issue (hsound.issued i _ hs).2 hs hsub (by rwa [← hlast])
        (by rwa [← hlast]) (h.spent x c _ hiss) (hkeep hs ha hok)
      rwa [← hok.2] at hissued
  | lost a i c l la lf e ev hs ha hok =>
    exact ht.of_quiet rfl le_rfl (.inr ⟨_,rfl,hkeep hs ha hok⟩)
      (held_set hs (h.commit a i c l la lf e ev (hK hs) (hholds.session i _ hs) ha).1)
  | fail a i c l la lf e ev hs ha =>
    exact ht.of_quiet rfl le_rfl (.inl rfl)
      (held_set hs (h.commit a i c l la lf e ev (hK hs) (hholds.session i _ hs) ha).1)

theorem TicketRule.reachable (h : TicketRule P K J R held Spent Issues) (hrule : Rule P K J R)
    (hr : Reachable P s) : Ticketed held Spent Issues s := by
  refine hr.induct ⟨?_,?_,?_,?_,?_,?_,?_⟩ fun s t hr hi hst => h.step hrule hr hi hst
  all_goals simp [State.initial,issues,uses]

end Preservation
end Flowy.Fencing
