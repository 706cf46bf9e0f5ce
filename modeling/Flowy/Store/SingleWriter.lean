import Flowy.Store.MemoryRefines
import Flowy.Store.PostgresRefines

/-! Fenced single-writer histories: what every interleaving of store operations guarantees, for each
store that refines the leased history. -/
namespace Flowy

open Leased

/-- A store whose operations are steps of the leased history. A step may rely on stored revisions
being at most the head. -/
structure Store.Refines (M : Store) : Prop where
  init : M.view M.init = State.initial
  step : ∀ (clock : Nat → Time) (op : StoreOp) (s : M.State),
    (∀ id r p, (M.view s).history id r = some p → 0 < r ∧ r ≤ (M.view s).head id) →
    Leased.Step (clock 0) (M.view s) (op.event (M.step clock op s).2) (M.view (M.step clock op s).1)

def StoreOp.writer? : StoreOp → Option ExecutionLease
  | .commit _ lease _ | .rollover lease _ _ => some lease
  | .acquire .. | .renew .. | .release _ | .retain _ => none

structure FencedHistory (M : Store) : Prop where
  /-- Granted incarnations of a name are positive and strictly increase. -/
  incarnations : ∀ tr s, M.Run tr s → ∀ id,
    (granted (events tr) id).Pairwise (· < ·) ∧ ∀ n ∈ granted (events tr) id, 0 < n
  /-- A commit or a rollover is accepted only from the latest acquisition, unreleased and
  unexpired. -/
  writer : ∀ tr s, M.Run tr s → ∀ clock op lease reply, StoreOp.writer? op = some lease →
    (M.step clock op s).2 = .ok reply →
    holder (events tr) lease.executionID = some (lease.owner,lease.incarnation) ∧
      ∃ l, (M.view s).lease lease.executionID = some l ∧ l.owner = lease.owner ∧
        l.incarnation = lease.incarnation ∧ clock 0 < l.expiry
  /-- An accepted commit publishes the next revision of its name and moves no other head. -/
  commits : ∀ tr s, M.Run tr s → ∀ clock expected lease e reply,
    (M.step clock (.commit expected lease e) s).2 = .ok reply →
    (M.view (M.step clock (.commit expected lease e) s).1).head =
      Function.update (M.view s).head lease.executionID ((M.view s).head lease.executionID + 1)
  /-- Heads move only by accepted writes, one revision at a time. -/
  heads : ∀ tr s, M.Run tr s → ∀ clock op id,
    (M.view (M.step clock op s).1).head id =
      (M.view s).head id + (op.event (M.step clock op s).2).writesTo id
  /-- A stored payload stays the same through any continuation that does not retain its name. -/
  payloads : ∀ tr s, M.Run tr s → ∀ tr' s', M.Steps s tr' s' → ∀ id r p,
    (M.view s).history id r = some p → (M.view s').history id r = some p ∨
      ((M.view s').history id r = none ∧ .retained id ∈ events tr')
  /-- An operation with a superseded lease changes nothing. -/
  superseded : ∀ tr s, M.Run tr s → ∀ clock op lease, StoreOp.lease? op = some lease →
    (∃ n ∈ granted (events tr) lease.executionID, lease.incarnation < n) →
    M.view (M.step clock op s).1 = M.view s

section Guarantees

variable {M : Store} {tr tr' : List (StoreOp × Result StoreReply)} {s s' : M.State}

theorem events_append (tr : List (StoreOp × Result StoreReply)) (op : StoreOp)
    (reply : Result StoreReply) : events (tr ++ [(op,reply)]) = events tr ++ [op.event reply] := by
  simp [events]

theorem Store.Refines.traced (hM : M.Refines) (h : M.Run tr s) : Leased.Traced (events tr) (M.view s) := by
  induction h with
  | refl =>
    rw [hM.init]
    exact Leased.Run.init.traced
  | step clock op _ ih =>
    rw [events_append]
    exact ih.step (hM.step clock op _ ih.stored)

theorem Store.Refines.step_of_run (hM : M.Refines) (h : M.Run tr s) (clock : Nat → Time) (op : StoreOp) :
    Leased.Step (clock 0) (M.view s) (op.event (M.step clock op s).2) (M.view (M.step clock op s).1) :=
  hM.step clock op s (hM.traced h).stored

theorem Store.Steps.trans (h : M.Run tr s) (h' : M.Steps s tr' s') : M.Run (tr ++ tr') s' := by
  induction h' with
  | refl => simpa using h
  | step clock op _ ih =>
    rw [← List.append_assoc]
    exact .step clock op ih

theorem Store.Refines.payload (hM : M.Refines) (h : M.Run tr s) (h' : M.Steps s tr' s') {id : Text}
    {r : Nat} {p : SealedEnvelope} (hp : (M.view s).history id r = some p) :
    r ≤ (M.view s').head id ∧ ((M.view s').history id r = some p ∨
      ((M.view s').history id r = none ∧ .retained id ∈ events tr')) := by
  obtain ⟨hpos,hle⟩ := (hM.traced h).stored id r p hp
  induction h' with
  | refl => exact ⟨hle,.inl hp⟩
  | step clock op hs ih =>
    obtain ⟨hhead,hcase⟩ := ih
    have hstep := hM.step_of_run (Store.Steps.trans h hs) clock op
    refine ⟨?_,?_⟩
    · rw [hstep.head_eq id]
      omega
    · rw [events_append,List.mem_append,List.mem_singleton]
      rcases hstep.history ⟨hpos,hhead⟩ with hsame | ⟨hnone,hret⟩
      · rw [hsame]
        rcases hcase with hsome | ⟨hnone,hmem⟩
        · exact .inl hsome
        · exact .inr ⟨hnone,.inl hmem⟩
      · exact .inr ⟨hnone,.inr hret.symm⟩

theorem Store.Refines.absent (hM : M.Refines) (h : M.Run tr s) (h' : M.Steps s tr' s') {id : Text} {r : Nat}
    (hr : 0 < r ∧ r ≤ (M.view s).head id) (hnone : (M.view s).history id r = none) :
    r ≤ (M.view s').head id ∧ (M.view s').history id r = none := by
  induction h' with
  | refl => exact ⟨hr.2,hnone⟩
  | step clock op hs ih =>
    have hstep := hM.step_of_run (Store.Steps.trans h hs) clock op
    refine ⟨?_,?_⟩
    · rw [hstep.head_eq id]
      omega
    · rcases hstep.history ⟨hr.1,ih.1⟩ with hsame | ⟨hgone,-⟩
      · exact hsame.trans ih.2
      · exact hgone

theorem Store.Refines.dead (hM : M.Refines)
    (hreads : ∀ (clock : Nat → Time) (op : StoreOp) (s : M.State) (id : Text),
      (op.event (M.step clock op s).2).writesTo id ≠ 0 →
      (M.view s).head id = 0 ∨ (M.view s).history id ((M.view s).head id) ≠ none)
    (h : M.Run tr s) (h' : M.Steps s tr' s') {id : Text} (hhead : (M.view s).head id ≠ 0)
    (hnone : (M.view s).history id ((M.view s).head id) = none) :
    (M.view s').head id = (M.view s).head id ∧
      (M.view s').history id ((M.view s').head id) = none := by
  induction h' with
  | refl => exact ⟨rfl,hnone⟩
  | @step tr' s' clock op hs ih =>
    have hstep := hM.step_of_run (Store.Steps.trans h hs) clock op
    have hquiet : (op.event (M.step clock op s').2).writesTo id = 0 := by
      by_contra hwrites
      rcases hreads clock op s' id hwrites with hzero | hpresent
      · exact hhead (ih.1.symm.trans hzero)
      · exact hpresent ih.2
    have heq : (M.view (M.step clock op s').1).head id = (M.view s).head id := by
      rw [hstep.head_eq id,hquiet,ih.1,Nat.add_zero]
    refine ⟨heq,?_⟩
    rw [heq]
    exact (hM.absent h (.step clock op hs) ⟨Nat.pos_of_ne_zero hhead,Nat.le_refl _⟩ hnone).2

theorem Store.Refines.superseded (hM : M.Refines) (h : M.Run tr s) (clock : Nat → Time) (op : StoreOp)
    {lease : ExecutionLease} (hop : op.lease? = some lease)
    (hn : lease.incarnation ≠ (M.view s).fence lease.executionID) :
    M.view (M.step clock op s).1 = M.view s := by
  have htr := hM.traced h
  have hstep := hM.step_of_run h clock op
  have hwriter : (op.event (M.step clock op s).2).writer ≠
      some (lease.executionID,lease.owner,lease.incarnation) :=
    fun hw => hn (hstep.writer_holds htr hw).2.1
  cases hr : (M.step clock op s).2 with
  | error err =>
    have he : op.event (.error err) = .refused := by cases op <;> rfl
    rw [hr,he] at hstep
    exact hstep.refused
  | ok reply =>
    rw [hr] at hstep hwriter
    cases op with
    | acquire | retain => cases hop
    | release l =>
      cases hop
      exact hstep.release_stale htr hn
    | renew | commit | rollover =>
      cases hop
      exact absurd rfl hwriter

theorem Store.Refines.fencedHistory (hM : M.Refines) : FencedHistory M where
  incarnations tr s h id := by
    rw [(hM.traced h).granted id]
    refine ⟨List.pairwise_lt_range',fun n hn => ?_⟩
    have := List.left_le_of_mem_range' hn
    omega
  writer tr s h clock op lease reply hop hok := by
    have hstep := hM.step_of_run h clock op
    rw [hok] at hstep
    have hwriter : (op.event (.ok reply)).writer =
        some (lease.executionID,lease.owner,lease.incarnation) := by
      cases op with
      | commit | rollover =>
        cases hop
        rfl
      | acquire | renew | release | retain => cases hop
    obtain ⟨hholder,-,hlease⟩ := hstep.writer_holds (hM.traced h) hwriter
    exact ⟨hholder,hlease⟩
  commits tr s h clock expected lease e reply hok := by
    have hstep := hM.step_of_run h clock (.commit expected lease e)
    rw [hok] at hstep
    funext id
    rw [hstep.head_eq id]
    by_cases hid : lease.executionID = id
    · subst hid
      simp [Event.writesTo,StoreOp.event]
    · simp [Event.writesTo,StoreOp.event,hid,Function.update_of_ne (Ne.symm hid)]
  heads tr s h clock op id := (hM.step_of_run h clock op).head_eq id
  payloads tr s h tr' s' h' id r p hp := (hM.payload h h' hp).2
  superseded tr s h clock op lease hop hlater := by
    obtain ⟨n,hn,hlt⟩ := hlater
    rw [(hM.traced h).granted] at hn
    have hle := List.mem_range'_1.mp hn
    exact hM.superseded h clock op hop (by omega)

end Guarantees

section Stores

variable [Sealing]

theorem postgres_refines (checks : PayloadChecks) (bytes : SealedEnvelope → Nat) :
    (Postgres.store checks bytes).Refines where
  init := rfl
  step _ op _ _ := Postgres.step_refines op

theorem memory_refines (checks : PayloadChecks) : (Memory.store checks).Refines where
  init := rfl
  step _ op _ hstored := Memory.step_refines hstored op

/-- Both execution stores keep fenced single-writer histories. -/
theorem fenced_single_writer (checks : PayloadChecks) (bytes : SealedEnvelope → Nat) :
    FencedHistory (Postgres.store checks bytes) ∧ FencedHistory (Memory.store checks) :=
  ⟨(postgres_refines checks bytes).fencedHistory,(memory_refines checks).fencedHistory⟩

end Stores
end Flowy
