import Flowy.Activity.Protocol

/-! What one session keeps: every call in flight matches the record it works on, and every commit
moves one record by one of three steps. -/
namespace Flowy

open Fencing

variable {C W : Type}

/-- A stored record: read back unchanged, attempts numbered from one and within the policy. -/
structure SoundRecord (r : ActivityRecord) : Prop where
  reread : r.reread = r
  numbers : r.numbers = List.range' 1 r.attempts.length
  bounded : (r.attempts.length : Int) ≤ max 1 r.retry.maxAttempts

theorem SoundRecord.of_numbers {r r' : ActivityRecord} (h : SoundRecord r) (hn : r'.numbers = r.numbers)
    (hr : r'.retry = r.retry) : SoundRecord r'.reread := by
  refine ⟨reread_reread r',?_,?_⟩
  · rw [reread_numbers,hn,h.numbers,reread_length,length_of_numbers hn]
  · rw [reread_length,reread_retry,length_of_numbers hn,hr]
    exact h.bounded

def SoundJournal (e : ExecutionEnvelope Journal C W) : Prop :=
  ∀ id r, e.journal.get? id = some r → SoundRecord r

theorem SoundJournal.reread {e : ExecutionEnvelope Journal C W} (h : SoundJournal e) (id : Text) :
    (e.journal.get? id).map ActivityRecord.reread = e.journal.get? id := by
  cases hr : e.journal.get? id with
  | none => rfl
  | some r => simp [(h id r hr).reread]

variable [Sha256]

inductive RecordStep (i : Nat) : Option ActivityRecord → ActivityRecord → Prop
  | prepared (r : ActivityRecord) (hs : r.state = .prepared) (ha : r.attempts = []) :
      RecordStep i none r
  | started (r : ActivityRecord) (now : Time) (hs : r.state = .prepared) (hv : ValidRecord r)
      (hv' : ValidRecord (startAttempt i now r)) :
      RecordStep i (some r) (startAttempt i now r).reread
  | settled (r r' : ActivityRecord) (hs : r.state = .running ∨ r.state = .unknown)
      (hn : r'.numbers = r.numbers) : RecordStep i (some r) r'

def JournalStep (e e' : ExecutionEnvelope Journal C W) : Prop :=
  ∀ id, e'.journal.get? id = e.journal.get? id ∨
    ∃ i r', e'.journal.get? id = some r' ∧ RecordStep i (e.journal.get? id) r' ∧ SoundRecord r'

def ActivityLink : Option (ExecutionEnvelope Journal C W) → ExecutionEnvelope Journal C W → Prop
  | none, e' => e'.journal = ∅
  | some e, e' => JournalStep e e'

theorem SoundRecord.of_valid {r : ActivityRecord} (h : ValidRecord r) : SoundRecord r.reread := by
  refine ⟨reread_reread r,?_,?_⟩
  · rw [reread_numbers,reread_length]
    refine List.ext_getElem (by simp [ActivityRecord.numbers]) fun i hi _ => ?_
    have hlt : i < r.attempts.length := by simpa [ActivityRecord.numbers] using hi
    have hnum := (validActivityAttempts_getElem? h.attempts (List.getElem?_eq_getElem hlt)).1
    simp [ActivityRecord.numbers,hnum,Nat.add_comm]
  · rw [reread_length,reread_retry]
    exact h.length_le.trans r.retry.limit_le_max

def RunningUnder (i n : Nat) (r : ActivityRecord) : Prop :=
  r.state = .running ∧ r.attempts.length = n ∧
    ∃ a, r.attempts.getLast? = some a ∧ a.incarnation = i ∧ a.state = .running ∧ a.number = n

omit [Sha256] in
theorem startAttempt_running (i : Nat) (now : Time) (r : ActivityRecord) :
    RunningUnder i (r.attempts.length + 1) (startAttempt i now r).reread := by
  refine ⟨rfl,by simp [startAttempt],_,by simp [startAttempt,ActivityRecord.reread]; rfl,rfl,rfl,rfl⟩

def Call.identity? : Call → Option Text
  | .committed identity _ | .dispatching identity _ | .reconciling identity => some identity
  | .idle | .holding _ _ | .done => none

def Call.running? : Call → Option (Text × Nat)
  | .committed identity n | .dispatching identity n => some (identity,n)
  | .reconciling _ | .idle | .holding _ _ | .done => none

omit [Sha256] in
theorem Call.identity?_of_running? {c : Call} {id : Text} {n : Nat} (h : c.running? = some (id,n)) :
    c.identity? = some id := by
  cases c <;> simp_all [Call.running?,Call.identity?]

def CallOk (i : Nat) (e : ExecutionEnvelope Journal C W) : Call → Prop
  | .idle | .done => True
  | .holding journal record =>
    (∀ id, (journal.get? id).map ActivityRecord.reread = e.journal.get? id) ∧
      journal.get? record.identity = some record ∧ record.state = .prepared ∧ record.attempts = [] ∧
      ValidRecord record
  | .committed identity n | .dispatching identity n =>
    ∃ r, e.journal.get? identity = some r ∧ RunningUnder i n r
  | .reconciling identity =>
    ∃ r, e.journal.get? identity = some r ∧ (r.state = .unknown ∨ r.state = .completed)

structure CallsOk (i : Nat) (cache : Option (ExecutionEnvelope Journal C W)) (l : Calls) : Prop where
  unloaded : cache = none → ∀ k, l.call k = .idle
  ok : ∀ e, cache = some e → ∀ k, CallOk i e (l.call k)
  mutex : ∀ k journal record, l.call k = .holding journal record → l.lock = some k
  distinct : ∀ k k' id n n', (l.call k).running? = some (id,n) → (l.call k').running? = some (id,n') →
    k = k'
  unused : l.use ≠ .calls → ∀ k, l.call k = .idle

def Updates (e e' : ExecutionEnvelope Journal C W) (id : Text) (r' : ActivityRecord) : Prop :=
  e'.journal.get? id = some r' ∧ ∀ id', id' ≠ id → e'.journal.get? id' = e.journal.get? id'

theorem Updates.journalStep {e e' : ExecutionEnvelope Journal C W} {id : Text} {i : Nat}
    {r' : ActivityRecord} (h : Updates e e' id r') (hs : RecordStep i (e.journal.get? id) r')
    (hr : SoundRecord r') : JournalStep e e' := by
  intro id'
  by_cases hid : id' = id
  · subst hid
    exact .inr ⟨i,r',h.1,hs,hr⟩
  · exact .inl (h.2 id' hid)

theorem persistActivity_updates {e t : ExecutionEnvelope Journal C W} {journal : Journal}
    {record : ActivityRecord}
    (hj : ∀ id, (journal.get? id).map ActivityRecord.reread = e.journal.get? id)
    (h : persistActivity e journal record = .ok t) :
    ValidRecord record ∧ Updates e t record.identity record.reread := by
  obtain ⟨hv,rfl⟩ := persistActivity_eq_ok h
  refine ⟨.of_valid hv,?_,?_⟩
  · simp [GoMap.get?_mapValues]
  · intro id hid
    simp [GoMap.get?_mapValues,GoMap.get?_set_of_ne journal record hid,hj]

section Frames

variable {i : Nat} {e e' : ExecutionEnvelope Journal C W} {c : Call}

theorem CallOk.lookup (h : CallOk i e c) {id : Text} (hid : c.identity? = some id) :
    ∃ r, e.journal.get? id = some r ∧ (r.state = .running ∨ r.state = .unknown ∨ r.state = .completed) := by
  cases c with
  | idle | holding | done => simp [Call.identity?] at hid
  | committed id' n | dispatching id' n =>
    simp only [Call.identity?,Option.some.injEq] at hid
    subst hid
    obtain ⟨r,hr,hrun⟩ := h
    exact ⟨r,hr,.inl hrun.1⟩
  | reconciling id' =>
    simp only [Call.identity?,Option.some.injEq] at hid
    subst hid
    obtain ⟨r,hr,hu⟩ := h
    exact ⟨r,hr,.inr hu⟩

theorem CallOk.frame (h : CallOk i e c) (hh : ∀ journal record, c ≠ .holding journal record)
    (heq : ∀ id, c.identity? = some id → e'.journal.get? id = e.journal.get? id) : CallOk i e' c := by
  cases c with
  | idle | done => trivial
  | holding journal record => exact absurd rfl (hh journal record)
  | committed id n | dispatching id n | reconciling id =>
    obtain ⟨r,hr,hs⟩ := h
    exact ⟨r,(heq id rfl).trans hr,hs⟩

theorem CallOk.of_journal_eq (h : CallOk i e c) (heq : e'.journal = e.journal) : CallOk i e' c := by
  cases c <;> simp only [CallOk,heq] at h ⊢ <;> exact h

end Frames

section Calls

variable {i k : Nat} {e e' : ExecutionEnvelope Journal C W} {l : Calls}

theorem CallsOk.update (h : CallsOk i (some e) l) {l' : Calls} {c : Call}
    (hcall : l'.call = Function.update l.call k c) (huse : l'.use = .calls)
    (hmutex : ∀ k' journal record, l'.call k' = .holding journal record → l'.lock = some k')
    (hothers : ∀ k', k' ≠ k → CallOk i e' (l.call k')) (hc : CallOk i e' c)
    (hrun : ∀ id n, c.running? = some (id,n) → ∀ k', k' ≠ k → ∀ n',
      (l.call k').running? ≠ some (id,n')) : CallsOk i (some e') l' := by
  refine ⟨by simp,?_,hmutex,?_,by simp [huse]⟩
  · intro e₀ he k'
    cases he
    by_cases hk' : k' = k
    · subst hk'
      simpa [hcall] using hc
    · simpa [hcall,Function.update_of_ne hk'] using hothers k' hk'
  · intro k₁ k₂ id n n' h₁ h₂
    by_cases hk₁ : k₁ = k <;> by_cases hk₂ : k₂ = k
    · rw [hk₁,hk₂]
    · subst hk₁
      simp only [hcall,Function.update_self,Function.update_of_ne hk₂] at h₁ h₂
      exact absurd h₂ (hrun id n h₁ k₂ hk₂ n')
    · subst hk₂
      simp only [hcall,Function.update_self,Function.update_of_ne hk₁] at h₁ h₂
      exact absurd h₁ (hrun id n' h₂ k₁ hk₁ n)
    · simp only [hcall,Function.update_of_ne hk₁,Function.update_of_ne hk₂] at h₁ h₂
      exact h.distinct k₁ k₂ id n n' h₁ h₂

theorem CallsOk.unheld (h : CallsOk i (some e) l) (hlock : l.lock = none ∨ l.lock = some k) {k' : Nat}
    (hk' : k' ≠ k) (journal : Journal) (record : ActivityRecord) :
    l.call k' ≠ .holding journal record := by
  intro heq
  have := h.mutex k' journal record heq
  rcases hlock with hl | hl <;> rw [hl] at this <;> simp_all

theorem CallsOk.set (h : CallsOk i (some e) l) (hlock : l.lock = none ∨ l.lock = some k) {c : Call}
    (hothers : ∀ k', k' ≠ k → (∀ journal record, l.call k' ≠ .holding journal record) →
      CallOk i e (l.call k') → CallOk i e' (l.call k'))
    (hc : CallOk i e' c) (hh : ∀ journal record, c ≠ .holding journal record)
    (hrun : ∀ id n, c.running? = some (id,n) → ∀ k', k' ≠ k → ∀ n',
      (l.call k').running? ≠ some (id,n')) : CallsOk i (some e') (l.set k c) := by
  refine h.update rfl rfl ?_ (fun k' hk' => hothers k' hk' (h.unheld hlock hk') (h.ok e rfl k')) hc hrun
  intro k' journal record heq
  by_cases hk' : k' = k
  · subst hk'
    simp only [Calls.set,Function.update_self] at heq
    exact absurd heq (hh journal record)
  · simp only [Calls.set,Function.update_of_ne hk'] at heq
    exact absurd heq (h.unheld hlock hk' journal record)

theorem CallsOk.hold (h : CallsOk i (some e) l) (hlock : l.lock = none) {journal : Journal}
    {record : ActivityRecord}
    (hothers : ∀ k', k' ≠ k → (∀ journal record, l.call k' ≠ .holding journal record) →
      CallOk i e (l.call k') → CallOk i e' (l.call k'))
    (hc : CallOk i e' (.holding journal record)) :
    CallsOk i (some e') (l.hold k (.holding journal record)) := by
  refine h.update rfl rfl ?_
    (fun k' hk' => hothers k' hk' (h.unheld (.inl hlock) hk') (h.ok e rfl k')) hc
    (by simp [Call.running?])
  intro k' j r heq
  by_cases hk' : k' = k
  · rw [hk']
    rfl
  · simp only [Calls.hold,Function.update_of_ne hk'] at heq
    exact absurd heq (h.unheld (.inl hlock) hk' j r)

theorem CallsOk.done (h : CallsOk i (some e) l) (hlock : l.lock = none ∨ l.lock = some k) :
    CallsOk i (some e) (l.set k .done) :=
  h.set hlock (fun _ _ _ hok => hok) trivial (by simp) (by simp [Call.running?])

theorem CallsOk.of_journal_eq (h : CallsOk i (some e) l) (heq : e'.journal = e.journal) :
    CallsOk i (some e') l := by
  refine ⟨by simp,?_,h.mutex,h.distinct,h.unused⟩
  intro e₀ he k
  cases he
  exact (h.ok e rfl k).of_journal_eq heq

theorem CallOk.of_updates {id : Text} {r' : ActivityRecord} {c : Call} (hu : Updates e e' id r')
    (hh : ∀ journal record, c ≠ .holding journal record) (hid : c.identity? ≠ some id)
    (h : CallOk i e c) : CallOk i e' c :=
  h.frame hh fun id' hid' => hu.2 id' (by rintro rfl; exact hid hid')

end Calls

def ActOk (i : Nat) (e : ExecutionEnvelope Journal C W) :
    Act (ExecutionEnvelope Journal C W) Calls ActivityEvent → Prop
  | .move l' _ => CallsOk i (some e) l'
  | .commit t la lf _ => JournalStep e t ∧ CallsOk i (some t) la ∧ CallsOk i (some e) lf

theorem persistAct_ok {i : Nat} {e : ExecutionEnvelope Journal C W} {journal : Journal}
    {record : ActivityRecord} {acked failed : Calls} {events : List ActivityEvent}
    (hj : ∀ id, (journal.get? id).map ActivityRecord.reread = e.journal.get? id)
    (hstep : ValidRecord record → RecordStep i (e.journal.get? record.identity) record.reread)
    (hfail : CallsOk i (some e) failed)
    (hack : ∀ t, ValidRecord record → Updates e t record.identity record.reread →
      CallsOk i (some t) acked) :
    ActOk i e (persistAct e journal record acked failed events) := by
  unfold persistAct
  cases hp : persistActivity e journal record with
  | error err => exact hfail
  | ok t =>
    obtain ⟨hv,hu⟩ := persistActivity_updates hj hp
    exact ⟨hu.journalStep (hstep hv) (.of_valid hv),hack t hv hu,hfail⟩

section Sessions

variable {i k : Nat} {e : ExecutionEnvelope Journal C W} {l : Calls}

theorem startAct_ok {journal : Journal} {record : ActivityRecord} (started : Time)
    (h : CallsOk i (some e) l) (hlock : l.lock = none ∨ l.lock = some k)
    (hj : ∀ id, (journal.get? id).map ActivityRecord.reread = e.journal.get? id)
    (hr : e.journal.get? record.identity = some record) (hs : record.state = .prepared)
    (hv : ValidRecord record) : ActOk i e (startAct i k e l journal record started) := by
  have hidle : ∀ k', (l.call k').identity? ≠ some record.identity := by
    intro k' hid
    obtain ⟨r,hr',hst⟩ := (h.ok e rfl k').lookup hid
    rw [hr] at hr'
    cases hr'
    simp [hs] at hst
  refine persistAct_ok hj ?_ (h.done hlock) ?_
  · intro hv'
    change RecordStep i (e.journal.get? record.identity) _
    rw [hr]
    exact .started record started hs hv hv'
  · intro t _ hu
    refine h.set hlock (fun k' _ hh hok => hok.of_updates hu hh (hidle k')) ?_ (by simp) ?_
    · exact ⟨_,hu.1,startAttempt_running i started record⟩
    · intro id n heq k' _ n' hrun
      simp only [Call.running?,Option.some.injEq,Prod.mk.injEq] at heq
      exact hidle k' (by rw [heq.1]; exact Call.identity?_of_running? hrun)

omit [Sha256] in
theorem reread_of_nil {r : ActivityRecord} (h : r.attempts = []) : r.reread = r := by
  cases r
  simp_all [ActivityRecord.reread]

theorem callAct_ok (request : ActivityRequest) (now started : Time) (hK : SoundJournal e)
    (h : CallsOk i (some e) l) (hlock : l.lock = none) :
    ActOk i e (callAct i k e l request now started) := by
  have hdone := h.done (k := k) (.inl hlock)
  obtain ⟨hfound,hadm⟩ := callActivity_found i e request now
  unfold callAct
  cases request.check with
  | error err => exact hdone
  | ok u =>
    dsimp only
    cases hc : callActivity i e request now with
    | ret result => exact hdone
    | prepare journal record =>
      rw [hc] at hfound
      obtain ⟨rfl,rfl,hnone⟩ := hfound
      refine persistAct_ok hK.reread ?_ hdone ?_
      · intro _
        rw [hnone]
        exact .prepared _ rfl rfl
      · intro t hv hu
        refine h.hold hlock (fun k' _ hh hok => hok.of_updates hu hh ?_) ⟨?_,by simp,rfl,rfl,hv⟩
        · intro hid
          obtain ⟨r,hr,-⟩ := hok.lookup hid
          rw [hnone] at hr
          cases hr
        · intro id
          by_cases hid : id = (prepareActivity e request).identity
          · subst hid
            simp [hu.1]
          · rw [GoMap.get?_set_of_ne _ _ hid,hu.2 id hid]
            exact hK.reread id
    | start journal record =>
      rw [hc] at hfound hadm
      obtain ⟨rfl,hr,hs⟩ := hfound
      have hadm := hadm.resolve_left (by simp)
      exact startAct_ok started h (.inl hlock) hK.reread hr hs (.of_valid (hadm.valid _ _ hr))
    | abandon journal record =>
      rw [hc] at hfound
      obtain ⟨rfl,hr,hs,a,ha,hinc⟩ := hfound
      have hfree : ∀ k', (l.call k').identity? ≠ some record.identity := by
        intro k' hid
        have hok := h.ok e rfl k'
        cases hcall : l.call k' with
        | idle | holding | done => simp [hcall,Call.identity?] at hid
        | committed id n | dispatching id n =>
          simp only [hcall,Call.identity?,Option.some.injEq] at hid
          subst hid
          rw [hcall] at hok
          obtain ⟨r,hr',hrun⟩ := hok
          rw [hr] at hr'
          cases hr'
          obtain ⟨-,-,a',ha',hinc',-⟩ := hrun
          rw [ha] at ha'
          cases ha'
          exact hinc hinc'
        | reconciling id =>
          simp only [hcall,Call.identity?,Option.some.injEq] at hid
          subst hid
          rw [hcall] at hok
          obtain ⟨r,hr',hst⟩ := hok
          rw [hr] at hr'
          cases hr'
          simp [hs] at hst
      refine persistAct_ok hK.reread ?_ hdone ?_
      · intro _
        change RecordStep i (e.journal.get? record.identity) _
        rw [hr]
        exact .settled record _ (.inl hs) ((reread_numbers _).trans (abandonAttempt_numbers record))
      · intro t _ hu
        refine h.set (.inl hlock) (fun k' _ hh hok => hok.of_updates hu hh (hfree k')) ?_ ?_ ?_
        · split
          · exact ⟨_,hu.1,.inl rfl⟩
          · trivial
        · intro j r
          split <;> simp
        · intro id n
          split <;> simp [Call.running?]
    | reconcile record =>
      rw [hc] at hfound
      exact h.set (.inl hlock) (fun _ _ _ hok => hok) ⟨record,hfound.1,.inl hfound.2⟩ (by simp)
        (by simp [Call.running?])

theorem finishAct_ok {identity : Text} {callback : Callback} {origin : ActivityOrigin} {now : Time}
    {sample : Option Nat} (hK : SoundJournal e) (h : CallsOk i (some e) l) (hlock : l.lock = none)
    (hopen : ∀ r, e.journal.get? identity = some r → r.state ≠ .completed →
      r.state = .running ∨ r.state = .unknown)
    (hothers : ∀ t r', Updates e t identity r' →
      (∀ payload, callback = .returned payload → r'.state = .completed) →
      ∀ k', k' ≠ k → (∀ journal record, l.call k' ≠ .holding journal record) →
        CallOk i e (l.call k') → CallOk i t (l.call k')) :
    ActOk i e (finishAct k e l identity callback origin now sample) := by
  have hdone := h.done (k := k) (.inl hlock)
  unfold finishAct
  cases hf : finishActivity e identity callback origin now sample with
  | error err => exact hdone
  | ok x =>
    cases x with
    | inl outcome => exact hdone
    | inr p =>
      obtain ⟨journal,record'⟩ := p
      obtain ⟨hadm,rfl,record,hr,hne,hcase⟩ := finishActivity_persists hf
      have hframe : record'.numbers = record.numbers ∧ record'.contract = record.contract := by
        rcases hcase with ⟨err,decision,-,rfl⟩ | ⟨payload,-,rfl⟩
        · exact recordActivityFailure_frame record err decision now sample
        · exact ⟨recordActivitySuccess_numbers record payload origin now,rfl⟩
      have hid : record'.identity = identity :=
        (congrArg ActivityContract.identity hframe.2).trans (hadm.keyed _ _ hr)
      refine persistAct_ok hK.reread ?_ hdone ?_
      · intro _
        rw [hid,hr]
        exact .settled record _ (hopen record hr hne) ((reread_numbers _).trans hframe.1)
      · intro t _ hu
        rw [hid] at hu
        refine h.set (.inl hlock) (fun k' hk' hh hok => hothers t _ hu ?_ k' hk' hh hok) trivial (by simp)
          (by simp [Call.running?])
        intro payload hret
        rcases hcase with ⟨err,decision,hraise,-⟩ | ⟨payload',-,rfl⟩
        · rw [hret] at hraise
          cases hraise
        · rfl

theorem finishDispatch_ok {identity : Text} {n : Nat} (callback : Callback) (origin : ActivityOrigin)
    (now : Time) (sample : Option Nat) (hK : SoundJournal e) (h : CallsOk i (some e) l)
    (hlock : l.lock = none) (hk : l.call k = .dispatching identity n) :
    ActOk i e (finishAct k e l identity callback origin now sample) := by
  have hok := h.ok e rfl k
  rw [hk] at hok
  obtain ⟨r,hr,hrun⟩ := hok
  refine finishAct_ok hK h hlock ?_ ?_
  · intro r' hr' _
    rw [hr] at hr'
    cases hr'
    exact .inl hrun.1
  · intro t r' hu _ k' hk' hh hok
    refine hok.of_updates hu hh ?_
    intro hid
    cases hcall : l.call k' with
    | idle | holding | done => simp [hcall,Call.identity?] at hid
    | committed id n' | dispatching id n' =>
      simp only [hcall,Call.identity?,Option.some.injEq] at hid
      subst hid
      exact hk' (h.distinct k' k id n' n (by simp [hcall,Call.running?]) (by simp [hk,Call.running?]))
    | reconciling id =>
      simp only [hcall,Call.identity?,Option.some.injEq] at hid
      subst hid
      rw [hcall] at hok
      obtain ⟨r'',hr'',hst⟩ := hok
      rw [hr] at hr''
      cases hr''
      simp [hrun.1] at hst

theorem finishReconcile_ok {identity : Text} (payload : Bytes) (origin : ActivityOrigin) (now : Time)
    (sample : Option Nat) (hK : SoundJournal e) (h : CallsOk i (some e) l) (hlock : l.lock = none)
    (hk : l.call k = .reconciling identity) :
    ActOk i e (finishAct k e l identity (.returned payload) origin now sample) := by
  have hok := h.ok e rfl k
  rw [hk] at hok
  obtain ⟨r,hr,hst⟩ := hok
  refine finishAct_ok hK h hlock ?_ ?_
  · intro r' hr' hne
    rw [hr] at hr'
    cases hr'
    exact .inr (hst.resolve_right hne)
  · intro t r' hu hcompl k' _ hh hok
    by_cases hid : (l.call k').identity? = some identity
    · cases hcall : l.call k' with
      | idle | holding | done => simp [hcall,Call.identity?] at hid
      | committed id n' | dispatching id n' =>
        simp only [hcall,Call.identity?,Option.some.injEq] at hid
        subst hid
        rw [hcall] at hok
        obtain ⟨r'',hr'',hrun⟩ := hok
        rw [hr] at hr''
        cases hr''
        simp [hrun.1] at hst
      | reconciling id =>
        simp only [hcall,Call.identity?,Option.some.injEq] at hid
        subst hid
        exact ⟨r',hu.1,.inr (hcompl payload rfl)⟩
    · exact hok.of_updates hu hh hid

theorem CallsOk.of_idle {cache : Option (ExecutionEnvelope Journal C W)} {l : Calls}
    (h : ∀ k, l.call k = .idle) : CallsOk i cache l := by
  refine ⟨fun _ => h,?_,?_,?_,fun _ => h⟩
  · intro e _ k
    rw [h k]
    trivial
  · intro k journal record heq
    rw [h k] at heq
    cases heq
  · intro k k' id n n' hrun
    rw [h k] at hrun
    cases hrun

theorem resolveActivityTarget_step {t : ExecutionEnvelope Journal C W} {resolution : ActivityResolution}
    {now : Time} {sample : Option Nat} (hK : SoundJournal e)
    (h : resolveActivityTarget i e resolution now sample = .ok t) : JournalStep e t := by
  simp only [resolveActivityTarget,bind_eq_ok] at h
  obtain ⟨_,-,⟨journal,record⟩,hrec,htar⟩ := h
  obtain ⟨-,rfl,hr,hs,-⟩ := resolutionActivityRecord_eq_ok hrec
  obtain ⟨resolved,hres,rfl⟩ := prepareActivityResolutionTarget_eq_ok htar
  obtain ⟨hnum,hcon,-⟩ := resolveRecord_frame hres
  have hu : Updates e { e with
      journal := (GoMap.set e.journal record.identity resolved).mapValues ActivityRecord.reread }
      record.identity resolved.reread := by
    refine ⟨by simp [GoMap.get?_mapValues],fun id hid => ?_⟩
    simp only [GoMap.get?_mapValues,GoMap.get?_set_of_ne _ _ hid]
    exact hK.reread id
  refine hu.journalStep (i := i) ?_ ((hK _ _ hr).of_numbers hnum (congrArg ActivityContract.retry hcon))
  rw [hr]
  exact .settled record _ hs ((reread_numbers _).trans hnum)

theorem activityAct_ok {a : ActivityAction C W}
    {x : Act (ExecutionEnvelope Journal C W) Calls ActivityEvent} (hK : SoundJournal e)
    (h : CallsOk i (some e) l) (hx : activityAct a i (some e) l = some x) : ActOk i e x := by
  cases a with
  | other t =>
    simp only [activityAct] at hx
    split at hx
    · rename_i hj
      cases hx
      exact ⟨fun id => .inl (by rw [hj.2]; rfl),h.of_journal_eq hj.2,h⟩
    · cases hx
  | call k request now started =>
    simp only [activityAct] at hx
    split at hx
    · split at hx
      · rename_i hl
        cases hx
        exact callAct_ok request now started hK h hl.1
      · cases hx
    · cases hx
  | run k started =>
    simp only [activityAct] at hx
    split at hx
    · rename_i journal record hk
      cases hx
      have hok := h.ok e rfl k
      rw [hk] at hok
      obtain ⟨hj,hr,hs,hnil,hv⟩ := hok
      refine startAct_ok started h (.inr (h.mutex k _ _ hk)) hj ?_ hs hv
      rw [← hj,hr,Option.map_some,reread_of_nil hnil]
    · cases hx
  | dispatch k =>
    simp only [activityAct] at hx
    split at hx
    · rename_i identity n hk
      cases hx
      have hok := h.ok e rfl k
      rw [hk] at hok
      have hcalls : l.use = .calls := by
        by_contra hu
        rw [h.unused hu k] at hk
        cases hk
      refine h.update rfl hcalls ?_ (fun k' _ => h.ok e rfl k') hok ?_
      · intro k' journal record heq
        by_cases hk' : k' = k
        · subst hk'
          simp at heq
        · exact h.mutex k' journal record (by simpa [Function.update_of_ne hk'] using heq)
      · intro id n' hrun k' hk' n'' hrun'
        simp only [Call.running?,Option.some.injEq,Prod.mk.injEq] at hrun
        obtain ⟨rfl,rfl⟩ := hrun
        exact hk' (h.distinct k' k _ n'' _ hrun' (by rw [hk]; rfl))
    · cases hx
  | finish k callback now sample =>
    simp only [activityAct] at hx
    split at hx
    · rename_i identity n hk
      split at hx
      · rename_i hl
        cases hx
        exact finishDispatch_ok callback _ now sample hK h hl hk
      · cases hx
    · cases hx
  | reconcile k payload now =>
    simp only [activityAct] at hx
    split at hx
    · rename_i identity payload hk
      split at hx
      · rename_i hl
        cases hx
        exact finishReconcile_ok payload _ now none hK h hl hk
      · cases hx
    · rename_i identity hk
      cases hx
      have hcalls : l.use = .calls := by
        by_contra hu
        rw [h.unused hu k] at hk
        cases hk
      refine h.update rfl hcalls ?_ (fun k' _ => h.ok e rfl k') trivial (by simp [Call.running?])
      intro k' journal record heq
      by_cases hk' : k' = k
      · subst hk'
        simp at heq
      · exact h.mutex k' journal record (by simpa [Function.update_of_ne hk'] using heq)
    · cases hx
  | resolve resolution now sample =>
    simp only [activityAct] at hx
    split at hx
    · rename_i hu
      have hidle := h.unused (by rw [hu]; simp)
      split at hx
      · cases hx
        exact CallsOk.of_idle hidle
      · rename_i t ht
        cases hx
        exact ⟨resolveActivityTarget_step hK ht,.of_idle hidle,.of_idle hidle⟩
    · cases hx

end Sessions

theorem activityAct_none {a : ActivityAction C W} {i : Nat} {l : Calls}
    {x : Act (ExecutionEnvelope Journal C W) Calls ActivityEvent}
    (hx : activityAct a i none l = some x) : ∃ t, x = .commit t l l [] ∧ t.journal = ∅ := by
  cases a with
  | other t =>
    simp only [activityAct] at hx
    split at hx
    · rename_i hj
      cases hx
      exact ⟨t,rfl,hj.2⟩
    · cases hx
  | call | run | dispatch | finish | reconcile | resolve => simp [activityAct] at hx

theorem activityRule : Rule (activityProtocol C W) SoundJournal CallsOk ActivityLink := by
  refine ⟨fun i _ => .of_idle fun _ => rfl,?_,?_,?_,?_,?_⟩
  · intro i l e _ h
    exact .of_idle (h.unloaded rfl)
  · intro a i c l l' ev hK h hx
    cases c with
    | none =>
      obtain ⟨t,ht,-⟩ := activityAct_none hx
      cases ht
    | some e => exact activityAct_ok (hK e rfl) h hx
  · intro a i c l la lf t ev hK h hx
    cases c with
    | none =>
      obtain ⟨t,ht,hj⟩ := activityAct_none hx
      cases ht
      exact ⟨hj,.of_idle (h.unloaded rfl),h⟩
    | some e =>
      obtain ⟨hstep,hack,hfail⟩ := activityAct_ok (hK e rfl) h hx
      exact ⟨hstep,hack.of_journal_eq rfl,hfail⟩
  · intro e he id r hr
    rw [he] at hr
    cases hr
  · intro e e' hK hstep id r hr
    rcases hstep id with heq | ⟨_,r',hr',-,hsound⟩
    · exact hK id r (by rw [← heq,hr])
    · rw [hr] at hr'
      cases hr'
      exact hsound

end Flowy
