import Flowy.Lib.Fencing
import Flowy.Wait.Delivery
import Flowy.Readmission

/-! Arbitration over whole runs. Runners arm waits, hosts deliver to them and cancel them from sessions of
their own, and everything else the runtime commits carries the waits unchanged. However these interleave, a
wait has one outcome. -/
namespace Flowy

open Fencing

/-- What sessions do to the waits of an execution; each host call brings its own runner and serializers. -/
inductive WaitAction (T E : Type)
  | arm (codecs : Codecs T E) (backend profile : Option WaitCapabilityProfile)
      (stepRevision expectedRevision : Nat) (snapshot : Snapshot T E) (spec : DurableWaitSpec)
  | deliver (r : WaitRunner) (codecs : Codecs T E) (ctx : Nat → Result Unit) (now : Time) (executionID : Text)
      (delivery : WaitDelivery) (contract : WaitDeliveryContract T)
  | cancel (r : WaitRunner) (ctx : Result Unit) (now wall : Time) (token : ResumeToken)
      (request : WaitCancellation)
  | other (target : Execution)

inductive WaitEvent
  | answered (delivery : WaitDelivery) (decision : WaitDecision)

section Acts

variable [Sha256] {T E : Type}

abbrev WaitAct := Act Execution SessionUse WaitEvent

def armAct (proposal : Proposal) : WaitAct :=
  match proposal with
  | .commit target => .commit target .calls .calls []
  | .skip | .refuse _ | .unencodable _ => .move .calls []

def deliverAct (delivery : WaitDelivery) (out : Result (WaitDecision × Option Execution)) : WaitAct :=
  match out with
  | .error _ => .move .resolution []
  | .ok (decision,none) => .move .resolution [.answered delivery decision]
  | .ok (decision,some target) => .commit target .resolution .resolution [.answered delivery decision]

def cancelAct (out : Result (Option Execution)) : WaitAct :=
  match out with
  | .error _ | .ok none => .move .resolution []
  | .ok (some target) => .commit target .resolution .resolution []

/-- A delivery and a cancellation have a session of their own, for one call. -/
def waitAct (a : WaitAction T E) (i : Nat) (cache : Option Execution) (l : SessionUse) : Option WaitAct :=
  match a, cache with
  | .other target, cache =>
    if l ≠ .resolution ∧ target.waits = cache.elim ∅ (fun e => e.waits) then
      some (.commit target .calls .calls [])
    else none
  | .arm codecs backend profile stepRevision expectedRevision snapshot spec, some e =>
    if l ≠ .resolution then
      some (armAct (propose codecs
        (armWaitChecked backend profile e stepRevision expectedRevision snapshot spec)))
    else none
  | .deliver r codecs ctx now executionID delivery contract, some e =>
    if l = .unused then
      some (deliverAct delivery (deliverWait r codecs ctx i now e executionID delivery contract))
    else none
  | .cancel r ctx now wall token request, some e =>
    if l = .unused then some (cancelAct (cancelWait r ctx i now wall e token request)) else none
  | _, none => none

/-- The wait protocol; the store's seal shows here as the revision it assigns. -/
def waitProtocol (T E : Type) : Protocol Execution SessionUse (WaitAction T E) WaitEvent where
  revision := fun e => e.revision
  stamp := fun n e => { e with revision := n }
  revision_stamp := fun _ _ => rfl
  fresh := .unused
  act := waitAct

end Acts

section Commits

variable [Sha256] {T E : Type}

inductive WaitCommit (i : Nat) (e t : Execution) : Prop
  | kept (waits : t.waits = e.waits)
  | armed (record : DurableWaitRecord) (planned : NewlyArmed e record)
      (waits : t.waits = e.waits.set record.identity record)
  | delivered (delivery : WaitDelivery) (now : Time) (decision : WaitDecision)
      (delivered : Delivered i now e delivery decision t)
  | canceled (request : WaitCancellation) (now wall : Time) (canceled : Canceled i now wall e request t)

theorem armAct_commit {codecs : Codecs T E} {backend profile : Option WaitCapabilityProfile}
    {stepRevision expectedRevision : Nat} {snapshot : Snapshot T E} {spec : DurableWaitSpec} {e t : Execution}
    {la lf : SessionUse} {ev : List WaitEvent} (i : Nat)
    (h : armAct (propose codecs (armWaitChecked backend profile e stepRevision expectedRevision snapshot spec)) =
      .commit t la lf ev) : WaitCommit i e t ∧ ev = [] := by
  unfold armAct at h
  split at h
  · next target hcommit =>
    cases h
    obtain ⟨target',snapshot',state,effects,hok,-,-,rfl⟩ := (propose_eq_commit codecs).mp hcommit
    obtain ⟨-,-,-,record,hplanned,rfl⟩ := armWaitChecked_eq_ok hok
    exact ⟨.armed record hplanned rfl,rfl⟩
  all_goals cases h

theorem waitAct_commit {a : WaitAction T E} {i : Nat} {cache : Option Execution} {l la lf : SessionUse}
    {t : Execution} {ev : List WaitEvent} (h : waitAct a i cache l = some (.commit t la lf ev)) :
    (cache = none ∧ t.waits = ∅ ∧ ev = []) ∨ ∃ e, cache = some e ∧ WaitCommit i e t ∧
      (ev = [] ∨ ∃ delivery now decision, Delivered i now e delivery decision t ∧
        ev = [.answered delivery decision]) := by
  cases a with
  | other target =>
    simp only [waitAct,Option.ite_none_right_eq_some,Option.some.injEq,Act.commit.injEq] at h
    obtain ⟨⟨-,hwaits⟩,rfl,-,-,rfl⟩ := h
    cases cache with
    | none => exact .inl ⟨rfl,hwaits,rfl⟩
    | some e => exact .inr ⟨e,rfl,.kept hwaits,.inl rfl⟩
  | arm codecs backend profile stepRevision expectedRevision snapshot spec =>
    cases cache with
    | none => cases h
    | some e =>
      simp only [waitAct,Option.ite_none_right_eq_some,Option.some.injEq] at h
      obtain ⟨hcommit,hev⟩ := armAct_commit i h.2
      exact .inr ⟨e,rfl,hcommit,.inl hev⟩
  | deliver r codecs ctx now executionID delivery contract =>
    cases cache with
    | none => cases h
    | some e =>
      simp only [waitAct,Option.ite_none_right_eq_some,Option.some.injEq] at h
      have hact := h.2
      unfold deliverAct at hact
      split at hact
      · cases hact
      · cases hact
      · next decision target hout =>
        cases hact
        obtain ⟨hnone,-⟩ | ⟨t',ht,hdelivered⟩ := deliverWait_eq_ok hout
        · cases hnone
        · cases ht
          exact .inr ⟨e,rfl,.delivered delivery now decision hdelivered,
            .inr ⟨delivery,now,decision,hdelivered,rfl⟩⟩
  | cancel r ctx now wall token request =>
    cases cache with
    | none => cases h
    | some e =>
      simp only [waitAct,Option.ite_none_right_eq_some,Option.some.injEq] at h
      have hact := h.2
      unfold cancelAct at hact
      split at hact
      · cases hact
      · cases hact
      · next target hout =>
        cases hact
        obtain ⟨hnone,-⟩ | ⟨t',ht,hcanceled⟩ := cancelWait_eq_ok hout
        · cases hnone
        · cases ht
          exact .inr ⟨e,rfl,.canceled request now wall hcanceled,.inl rfl⟩

end Commits

/-! One commit. -/
section Steps

variable [Sha256] {i : Nat} {e t : Execution} {record record' : DurableWaitRecord}

/-- What later revisions keep of a record: its contract, every decision, and its outcome once it has one. -/
structure Later (record record' : DurableWaitRecord) : Prop where
  contract : record'.contract = record.contract
  decisions : ∀ id d, record.decisions.get? id = some d → record'.decisions.get? id = some d
  outcome : record.state ≠ .armed → record'.state = record.state ∧ record'.winnerID = record.winnerID ∧
    record'.cancellation = record.cancellation

omit [Sha256] in
theorem Later.refl (record : DurableWaitRecord) : Later record record :=
  ⟨rfl,fun _ _ hd => hd,fun _ => ⟨rfl,rfl,rfl⟩⟩

omit [Sha256] in
theorem Later.trans {record'' : DurableWaitRecord} (h : Later record record') (h' : Later record' record'') :
    Later record record'' := by
  constructor
  case contract => exact h'.contract.trans h.contract
  case decisions => exact fun id d hd => h'.decisions id d (h.decisions id d hd)
  case outcome =>
    intro hclosed
    obtain ⟨hstate,hwinner,hcancel⟩ := h.outcome hclosed
    obtain ⟨hstate',hwinner',hcancel'⟩ := h'.outcome (hstate ▸ hclosed)
    exact ⟨hstate'.trans hstate,hwinner'.trans hwinner,hcancel'.trans hcancel⟩

theorem NewDecision.later {d : WaitDecision} (hd : NewDecision record e.revision d) :
    Later record (record.decided d) := by
  constructor
  case contract => exact decided_contract record d
  case decisions =>
    intro id prior hprior
    have hne : id ≠ d.id := by
      intro hid
      rw [hid,hd.fresh] at hprior
      cases hprior
    rw [decided_decisions,GoMap.get?_set_of_ne _ _ hne]
    exact hprior
  case outcome =>
    intro hclosed
    have hacc : d.status ≠ .accepted := fun hacc => hclosed (hd.armed hacc)
    rw [decided_of_not_accepted hacc]
    exact ⟨rfl,rfl,rfl⟩

omit [Sha256] in
theorem Later.canceledBy (harmed : record.state = .armed) (cancel : WaitCancellationRecord) :
    Later record (record.canceledBy cancel) :=
  ⟨rfl,fun _ _ hd => hd,fun hclosed => absurd harmed hclosed⟩

/-- How the run reacts when a wait gets its outcome at `e`: the winner is continued, a cancellation fails
the execution where it stands. -/
inductive Closed (e t : Execution) (record' : DurableWaitRecord) : Prop
  | continued (d : WaitDecision) (decided : record'.decisions.get? d.id = some d)
      (accepted : d.status = .accepted) (winner : record'.winnerID = d.id)
      (source : d.sourceRevision = e.revision) (activation : t.activation = e.activation + 1)
      (pointer : t.progress.executionPointer =
        if d.kind = .timer then record'.spec.timeoutPointer else record'.spec.eventPointer)
      (journal : t.progress.journalReferences = ∅) (groups : t.progress.childGroupReferences = ∅)
      (terminal : t.terminal = e.terminal)
  | canceled (cancel : WaitCancellationRecord) (stored : record'.cancellation = some cancel)
      (source : cancel.sourceRevision = e.revision) (activation : t.activation = e.activation)
      (progress : t.progress = e.progress) (terminal : t.terminal = some (canceledWaitTerminal cancel.reason))

inductive WaitStep (e t : Execution) (record record' : DurableWaitRecord) : Prop
  | same (same : record' = record)
  | decided (d : WaitDecision) (new : NewDecision record e.revision d) (target : record' = record.decided d)
      (accepted : d.status = .accepted → Closed e t record')
      (other : d.status ≠ .accepted → t.activation = e.activation ∧ t.progress = e.progress ∧
        t.terminal = e.terminal)
  | canceled (armed : record.state = .armed) (cancel : WaitCancellationRecord)
      (new : NewCancellation e.revision cancel) (target : record' = record.canceledBy cancel)
      (closed : Closed e t record')

theorem Delivered.goes_on {now : Time} {delivery : WaitDelivery} {decision : WaitDecision}
    (h : Delivered i now e delivery decision t) {identity : Text} (hget : e.waits.get? identity = some record) :
    ∃ record', t.waits.get? identity = some record' ∧ WaitStep e t record record' := by
  obtain ⟨identity₀,record₀,matched,hget₀,-,hnew,hdecision,hcase⟩ := h.decided
  have hkind : decision.kind = delivery.kind := by rw [hdecision]; rfl
  have hwaits : t.waits = e.waits.set identity₀ (record₀.decided decision) := by
    obtain ⟨-,rfl⟩ | ⟨-,state,rfl⟩ := hcase
    · rfl
    · rfl
  rw [hwaits]
  by_cases hid : identity = identity₀
  · subst hid
    rw [hget₀] at hget
    cases hget
    refine ⟨_,GoMap.get?_set_self _ _ _,.decided decision hnew rfl (fun hacc => ?_) fun hother => ?_⟩
    · obtain ⟨hnot,-⟩ | ⟨-,state,rfl⟩ := hcase
      · exact absurd hacc hnot
      · have hspec : (record.decided decision).spec = record.spec :=
          congrArg WaitContract.spec (decided_contract record decision)
        refine .continued decision ?_ hacc ?_ hnew.source rfl ?_ rfl rfl rfl
        · rw [decided_decisions,GoMap.get?_set_self]
        · rw [decided_of_accepted hacc]
        · rw [hspec,hkind]
          rfl
    · obtain ⟨-,rfl⟩ | ⟨hacc,-⟩ := hcase
      · exact ⟨rfl,rfl,rfl⟩
      · exact absurd hacc hother
  · exact ⟨record,by rw [GoMap.get?_set_of_ne _ _ hid,hget],.same rfl⟩

theorem Canceled.goes_on {now wall : Time} {request : WaitCancellation} (hi : 0 < i)
    (h : Canceled i now wall e request t) {identity : Text} (hget : e.waits.get? identity = some record) :
    ∃ record', t.waits.get? identity = some record' ∧ WaitStep e t record record' := by
  obtain ⟨identity₀,record₀,hget₀,harmed,-,hnew,rfl⟩ := h.canceled
  by_cases hid : identity = identity₀
  · subst hid
    rw [hget₀] at hget
    cases hget
    exact ⟨_,GoMap.get?_set_self _ _ _,.canceled harmed _ (hnew hi) rfl (.canceled _ rfl rfl rfl rfl rfl)⟩
  · exact ⟨record,(GoMap.get?_set_of_ne _ _ hid).trans hget,.same rfl⟩

theorem WaitCommit.goes_on (hi : 0 < i) (h : WaitCommit i e t) {identity : Text}
    (hget : e.waits.get? identity = some record) :
    ∃ record', t.waits.get? identity = some record' ∧ WaitStep e t record record' := by
  cases h with
  | kept waits => exact ⟨record,by rw [waits,hget],.same rfl⟩
  | armed new planned waits =>
    have hid : identity ≠ new.identity := by
      intro hid
      rw [hid,planned.fresh] at hget
      cases hget
    exact ⟨record,by rw [waits,GoMap.get?_set_of_ne _ _ hid,hget],.same rfl⟩
  | delivered delivery now decision delivered => exact delivered.goes_on hget
  | canceled request now wall canceled => exact canceled.goes_on hi hget

theorem WaitCommit.origin (hi : 0 < i) (h : WaitCommit i e t) {identity : Text}
    (hget : t.waits.get? identity = some record') :
    (∃ record, e.waits.get? identity = some record ∧ WaitStep e t record record') ∨
      (identity = record'.identity ∧ NewlyArmed e record') := by
  cases hbefore : e.waits.get? identity with
  | some record =>
    obtain ⟨record'',hget'',hstep⟩ := h.goes_on hi hbefore
    rw [hget] at hget''
    cases hget''
    exact .inl ⟨record,rfl,hstep⟩
  | none =>
    have hset : ∀ {identity₀ record₀}, e.waits.get? identity₀ = some record₀ → ∀ new,
        (e.waits.set identity₀ new).get? identity ≠ some record' := by
      intro identity₀ record₀ hget₀ new hnew
      have hid : identity ≠ identity₀ := by
        intro hid
        rw [← hid,hbefore] at hget₀
        cases hget₀
      rw [GoMap.get?_set_of_ne _ _ hid,hbefore] at hnew
      cases hnew
    cases h with
    | kept waits =>
      rw [waits,hbefore] at hget
      cases hget
    | armed new planned waits =>
      rw [waits,GoMap.get?_set] at hget
      split at hget
      · next hid =>
        cases hget
        exact .inr ⟨hid,planned⟩
      · rw [hbefore] at hget
        cases hget
    | delivered delivery now decision delivered =>
      obtain ⟨identity₀,record₀,matched,hget₀,-,-,-,hcase⟩ := delivered.decided
      obtain ⟨-,rfl⟩ | ⟨-,state,rfl⟩ := hcase
      · exact absurd hget (hset hget₀ _)
      · exact absurd hget (hset hget₀ _)
    | canceled request now wall canceled =>
      obtain ⟨identity₀,record₀,hget₀,-,-,-,rfl⟩ := canceled.canceled
      exact absurd hget (hset hget₀ _)

theorem WaitStep.later (h : WaitStep e t record record') : Later record record' := by
  cases h with
  | same same => rw [same]; exact .refl record
  | decided d new target accepted other => rw [target]; exact new.later
  | canceled armed cancel new target closed => rw [target]; exact .canceledBy armed cancel

theorem WaitStep.valid (h : WaitStep e t record record') (hvalid : ValidWait record e.revision) :
    ValidWait record' (e.revision + 1) := by
  cases h with
  | same same => rw [same]; exact hvalid.mono (Nat.le_succ _)
  | decided d new target accepted other => rw [target]; exact hvalid.decided new
  | canceled armed cancel new target closed => rw [target]; exact hvalid.canceledBy armed new

theorem WaitStep.closed (h : WaitStep e t record record') (harmed : record.state = .armed)
    (hclosed : record'.state ≠ .armed) : Closed e t record' := by
  cases h with
  | same same => exact absurd (same ▸ harmed) hclosed
  | decided d new target accepted other =>
    refine accepted ?_
    by_contra hother
    rw [target,decided_of_not_accepted hother] at hclosed
    exact hclosed harmed
  | canceled armed cancel new target closed => exact closed

theorem WaitStep.unmoved (h : WaitStep e t record record') {id : Text} {d : WaitDecision}
    (hfresh : record.decisions.get? id = none) (hd : record'.decisions.get? id = some d)
    (hother : d.status ≠ .accepted) :
    t.activation = e.activation ∧ t.progress = e.progress ∧ t.terminal = e.terminal := by
  cases h with
  | same same =>
    rw [same,hfresh] at hd
    cases hd
  | decided d' new target accepted other =>
    rw [target,decided_decisions,GoMap.get?_set] at hd
    split at hd
    · cases hd
      exact other hother
    · rw [hfresh] at hd
      cases hd
  | canceled armed cancel new target closed =>
    rw [target] at hd
    change record.decisions.get? id = _ at hd
    rw [hfresh] at hd
    cases hd

theorem NewlyArmed.valid (h : NewlyArmed e record) : ValidWait record (e.revision + 1) := by
  obtain ⟨spec,profile,hplan⟩ := h.plan
  simp only [planDurableWait,bind_eq_ok,require_eq_ok,exists_const,Bool.and_eq_true,bne_iff_ne,
    Except.ok.injEq] at hplan
  obtain ⟨⟨⟨⟨⟨⟨hspec,hprofile⟩,hexecution⟩,hnode⟩,hactivation⟩,hrevision⟩,rfl⟩ := hplan
  constructor
  case address =>
    simp only [validWaitAddress,Bool.and_eq_true,bne_iff_ne,beq_iff_eq]
    exact ⟨⟨⟨⟨⟨⟨hexecution,hnode⟩,hactivation⟩,hspec⟩,hprofile⟩,hrevision⟩,rfl⟩
  case armed => exact Nat.le_refl _
  case cancellation => rfl
  case winner => rfl
  case accepted => exact fun hne => absurd rfl hne
  case sources => exact List.nodup_nil
  case decisions =>
    intro id d hd
    cases hd

end Steps

/-! Whole runs. -/
section Runs

variable [Sha256] {T E : Type}

structure ReadableWaits (e : Execution) : Prop where
  keyed : ∀ identity record, e.waits.get? identity = some record → identity = record.identity
  valid : ∀ identity record, e.waits.get? identity = some record → ValidWait record e.revision

def WaitLink : Option Execution → Execution → Prop
  | none, e' => e'.waits = ∅
  | some e, e' => ∃ i t, 0 < i ∧ WaitCommit i e t ∧ e' = { t with revision := e.revision + 1 }

theorem WaitCommit.readable {i : Nat} {e t : Execution} (hi : 0 < i) (h : WaitCommit i e t)
    (hread : ReadableWaits e) : ReadableWaits { t with revision := e.revision + 1 } := by
  constructor
  · intro identity record' hget
    obtain ⟨record,hbefore,hstep⟩ | ⟨hid,-⟩ := h.origin hi hget
    · have hcontract := hstep.later.contract
      simp only [DurableWaitRecord.contract,WaitContract.mk.injEq] at hcontract
      obtain ⟨h1,h2,h3,-,-,h6,-⟩ := hcontract
      rw [hread.keyed identity record hbefore]
      simp only [DurableWaitRecord.identity,h1,h2,h3,h6]
    · exact hid
  · intro identity record' hget
    obtain ⟨record,hbefore,hstep⟩ | ⟨-,hnew⟩ := h.origin hi hget
    · exact hstep.valid (hread.valid identity record hbefore)
    · exact hnew.valid

theorem waitRule : Rule (waitProtocol T E) ReadableWaits (fun i _ _ => 0 < i) WaitLink where
  fresh _ hi := hi
  load _ _ _ _ hi := hi
  move _ _ _ _ _ _ _ hi _ := hi
  commit a i c l la lf t ev _ hi hact := by
    refine ⟨?_,hi,hi⟩
    obtain ⟨rfl,hwaits,-⟩ | ⟨e,rfl,hcommit,-⟩ := waitAct_commit hact
    · exact hwaits
    · exact ⟨i,t,hi,hcommit,rfl⟩
  first e hlink := by
    have hnone : ∀ identity record, e.waits.get? identity ≠ some record := by
      intro identity record hget
      rw [hlink] at hget
      cases hget
    exact ⟨fun identity record hget => absurd hget (hnone identity record),
      fun identity record hget => absurd hget (hnone identity record)⟩
  next e e' hread hlink := by
    obtain ⟨i,t,hi,hcommit,rfl⟩ := hlink
    exact hcommit.readable hi hread

structure Answers (delivery : WaitDelivery) (d : WaitDecision) : Prop where
  kind : d.kind = delivery.kind
  correlation : d.correlationID = delivery.correlationID
  payload : d.payloadDigest = waitPayloadDigest delivery.payload

theorem prepareWaitDecision_answers {record target : DurableWaitRecord} {delivery : WaitDelivery}
    {revision incarnation : Nat} {now : Time} {matched replay : Bool} {d : WaitDecision}
    (h : prepareWaitDecision record delivery revision incarnation now matched = .ok (target,d,replay)) :
    Answers delivery d := by
  unfold prepareWaitDecision at h
  obtain ⟨⟨⟩,-,h⟩ := bind_eq_ok.mp h
  obtain ⟨⟨⟩,-,h⟩ := bind_eq_ok.mp h
  split at h
  · next prior hprior =>
    simp only [bind_eq_ok,require_eq_ok,exists_const,Except.ok.injEq,Prod.mk.injEq,Bool.and_eq_true,
      beq_iff_eq] at h
    obtain ⟨⟨⟨hkind,hcorrelation⟩,hpayload⟩,-,rfl,-⟩ := h
    exact ⟨hkind,hcorrelation,hpayload⟩
  · simp only [bind_eq_ok,require_eq_ok,exists_const,Except.ok.injEq,Prod.mk.injEq] at h
    obtain ⟨-,-,-,-,-,rfl,-⟩ := h
    exact ⟨rfl,rfl,rfl⟩

theorem deliverWait_replay {r : WaitRunner} {codecs : Codecs T E} {ctx : Nat → Result Unit} {i : Nat}
    {now : Time} {source : Execution} {id : Text} {delivery : WaitDelivery} {contract : WaitDeliveryContract T}
    {decision : WaitDecision}
    (h : deliverWait r codecs ctx i now source id delivery contract = .ok (decision,none)) :
    Answers delivery decision ∧ ∃ identity record, source.waits.get? identity = some record ∧
      record.generation = delivery.generation ∧ record.decisions.get? delivery.id = some decision := by
  obtain ⟨-,hheld⟩ | ⟨t,ht,-⟩ := deliverWait_eq_ok h
  · refine ⟨?_,hheld⟩
    simp only [deliverWait,WaitDelivery.check,bind_eq_ok,require_eq_ok,exists_const] at h
    obtain ⟨-,waits,-,⟨identity,record⟩,-,_,-,⟨targetRecord,d,replay⟩,hprep,h⟩ := h
    obtain ⟨matched,hprep⟩ := prepareWaitDelivery_eq_ok hprep
    split at h
    · cases h
      exact prepareWaitDecision_answers hprep
    · split at h
      · simp [bind_eq_ok] at h
      · simp [bind_eq_ok] at h
  · cases ht

theorem waitAct_move {a : WaitAction T E} {i : Nat} {cache : Option Execution} {l l' : SessionUse}
    {ev : List WaitEvent} (h : waitAct a i cache l = some (.move l' ev)) :
    ev = [] ∨ ∃ e delivery decision, cache = some e ∧ ev = [.answered delivery decision] ∧
      Answers delivery decision ∧ ∃ identity record, e.waits.get? identity = some record ∧
        record.generation = delivery.generation ∧ record.decisions.get? delivery.id = some decision := by
  cases a with
  | other target =>
    simp only [waitAct,Option.ite_none_right_eq_some,Option.some.injEq,reduceCtorEq,and_false] at h
  | arm codecs backend profile stepRevision expectedRevision snapshot spec =>
    cases cache with
    | none => cases h
    | some e =>
      simp only [waitAct,Option.ite_none_right_eq_some,Option.some.injEq] at h
      have hact := h.2
      unfold armAct at hact
      split at hact
      · cases hact
      all_goals
        cases hact
        exact .inl rfl
  | deliver r codecs ctx now executionID delivery contract =>
    cases cache with
    | none => cases h
    | some e =>
      simp only [waitAct,Option.ite_none_right_eq_some,Option.some.injEq] at h
      have hact := h.2
      unfold deliverAct at hact
      split at hact
      · cases hact
        exact .inl rfl
      · next decision hout =>
        cases hact
        exact .inr ⟨e,delivery,decision,rfl,rfl,deliverWait_replay hout⟩
      · cases hact
  | cancel r ctx now wall token request =>
    cases cache with
    | none => cases h
    | some e =>
      simp only [waitAct,Option.ite_none_right_eq_some,Option.some.injEq] at h
      have hact := h.2
      unfold cancelAct at hact
      split at hact
      · cases hact
        exact .inl rfl
      · cases hact
        exact .inl rfl
      · cases hact

def WaitEvent.Recorded (log : List Execution) : WaitEvent → Prop
  | .answered delivery d => Answers delivery d ∧ ∃ e ∈ log, ∃ identity record,
      e.waits.get? identity = some record ∧ record.generation = delivery.generation ∧
        record.decisions.get? delivery.id = some d

theorem Delivered.recorded {i : Nat} {now : Time} {e t : Execution} {delivery : WaitDelivery}
    {decision : WaitDecision} (h : Delivered i now e delivery decision t) :
    Answers delivery decision ∧ ∃ identity record, t.waits.get? identity = some record ∧
      record.generation = delivery.generation ∧ record.decisions.get? delivery.id = some decision := by
  obtain ⟨identity,record,matched,-,hgeneration,-,hdecision,hcase⟩ := h.decided
  have hid : decision.id = delivery.id := by rw [hdecision]; rfl
  refine ⟨by rw [hdecision]; exact ⟨rfl,rfl,rfl⟩,?_⟩
  have hwaits : t.waits.get? identity = some (record.decided decision) := by
    obtain ⟨-,rfl⟩ | ⟨-,state,rfl⟩ := hcase
    · exact GoMap.get?_set_self _ _ _
    · exact GoMap.get?_set_self _ _ _
  refine ⟨identity,_,hwaits,?_,?_⟩
  · rw [← hgeneration]
    exact congrArg WaitContract.generation (decided_contract record decision)
  · rw [decided_decisions,← hid,GoMap.get?_set_self]

theorem waitEvents_recorded {s : State Execution SessionUse WaitEvent} (hr : Reachable (waitProtocol T E) s) :
    ∀ v ∈ s.trace, WaitEvent.Recorded s.log v := by
  refine hr.trace_supported (S := fun log v => WaitEvent.Recorded log v) ?_ ?_ ?_
  · intro log e v hv
    cases v with
    | answered delivery d =>
      obtain ⟨hanswers,e',he',hrest⟩ := hv
      exact ⟨hanswers,e',List.mem_append_left _ he',hrest⟩
  · -- a replay reads the decision from the cached revision
    intro s a i c l l' ev hs hsession hact v hv
    obtain rfl | ⟨e,delivery,decision,rfl,rfl,hanswers,hheld⟩ := waitAct_move hact
    · cases hv
    · rw [List.mem_singleton.mp hv]
      exact ⟨hanswers,e,hs.sound.cached i _ e hsession rfl,hheld⟩
  · intro s a i c l la lf t ev hs hsession hact hok v hv
    obtain ⟨-,-,rfl⟩ | ⟨e,rfl,-,rfl | ⟨delivery,now,decision,hdelivered,rfl⟩⟩ := waitAct_commit hact
    · cases hv
    · cases hv
    · rw [List.mem_singleton.mp hv]
      obtain ⟨hanswers,hheld⟩ := hdelivered.recorded
      exact ⟨hanswers,_,List.mem_append_right _ (List.mem_singleton.mpr rfl),hheld⟩

structure OneWinner (s : State Execution SessionUse WaitEvent) : Prop where
  valid : ∀ e ∈ s.log, ∀ identity record, e.waits.get? identity = some record →
    validateDurableWait record e.revision = .ok ()
  single : ∀ e ∈ s.log, ∀ identity record, e.waits.get? identity = some record →
    ∀ id d id' d', record.decisions.get? id = some d → record.decisions.get? id' = some d' →
      d.status = .accepted → d'.status = .accepted → id = id'
  timely : ∀ e ∈ s.log, ∀ identity record, e.waits.get? identity = some record →
    ∀ id d, record.decisions.get? id = some d → d.kind = .timer →
      d.decidedAt.before record.spec.deadline = false
  kept : ∀ (k n : Nat) (e e' : Execution) identity record, s.log[k]? = some e → s.log[n]? = some e' → k < n →
    e.waits.get? identity = some record →
    ∃ record', e'.waits.get? identity = some record' ∧ Later record record'
  closed : ∀ (k : Nat) (e e' : Execution) identity record record', s.log[k]? = some e → s.log[k + 1]? = some e' →
    e.waits.get? identity = some record → e'.waits.get? identity = some record' →
    record.state = .armed → record'.state ≠ .armed → Closed e e' record'
  unmoved : ∀ (k : Nat) (e e' : Execution) identity record record' id d, s.log[k]? = some e → s.log[k + 1]? = some e' →
    e.waits.get? identity = some record → e'.waits.get? identity = some record' →
    record.decisions.get? id = none → record'.decisions.get? id = some d → d.status ≠ .accepted →
    e'.activation = e.activation ∧ e'.progress = e.progress ∧ e'.terminal = e.terminal
  answers : ∀ delivery d delivery' d', .answered delivery d ∈ s.trace → .answered delivery' d' ∈ s.trace →
    delivery.generation = delivery'.generation → delivery.id = delivery'.id →
    d = d' ∧ delivery.kind = delivery'.kind ∧ delivery.correlationID = delivery'.correlationID ∧
      delivery.payload = delivery'.payload

theorem ReadableWaits.generation_injective {e : Execution} (h : ReadableWaits e) {identity identity' : Text}
    {record record' : DurableWaitRecord} (hget : e.waits.get? identity = some record)
    (hget' : e.waits.get? identity' = some record') (hgeneration : record.generation = record'.generation) :
    identity = identity' := by
  have haddress := (h.valid identity record hget).address
  have haddress' := (h.valid identity' record' hget').address
  simp only [validWaitAddress,Bool.and_eq_true,beq_iff_eq] at haddress haddress'
  rw [h.keyed identity record hget,h.keyed identity' record' hget']
  have hsame : waitGeneration record.identity record.armRevision =
      waitGeneration record'.identity record'.armRevision := by
    rw [← haddress.2,← haddress'.2,hgeneration]
  exact (waitGeneration_injective hsame).1

theorem waits_kept {s : State Execution SessionUse WaitEvent} (hlinked : Linked WaitLink s.log) {k n : Nat}
    {e e' : Execution} (hk : s.log[k]? = some e) (hn : s.log[n]? = some e') (hlt : k < n) {identity : Text}
    {record : DurableWaitRecord} (hget : e.waits.get? identity = some record) :
    ∃ record', e'.waits.get? identity = some record' ∧ Later record record' := by
  have hstep : ∀ e e', WaitLink (some e) e' → ∀ identity record, e.waits.get? identity = some record →
      ∃ record', e'.waits.get? identity = some record' ∧ Later record record' := by
    intro e e' hlink identity record hget
    obtain ⟨i,t,hi,hcommit,rfl⟩ := hlink
    obtain ⟨record',hget',hnext⟩ := hcommit.goes_on hi hget
    exact ⟨record',hget',hnext.later⟩
  refine hlinked.trans (T := fun e e' => ∀ identity record, e.waits.get? identity = some record →
    ∃ record', e'.waits.get? identity = some record' ∧ Later record record') hstep ?_ hk hn hlt identity record hget
  intro e e' e'' h h' identity record hget
  obtain ⟨record',hget',hlater⟩ := h identity record hget
  obtain ⟨record'',hget'',hlater'⟩ := h' identity record' hget'
  exact ⟨record'',hget'',hlater.trans hlater'⟩

theorem answers_agree {s : State Execution SessionUse WaitEvent} (hlinked : Linked WaitLink s.log)
    (hread : ∀ e ∈ s.log, ReadableWaits e) {delivery delivery' : WaitDelivery} {d d' : WaitDecision}
    (h : WaitEvent.Recorded s.log (.answered delivery d)) (h' : WaitEvent.Recorded s.log (.answered delivery' d'))
    (hgeneration : delivery.generation = delivery'.generation) (hid : delivery.id = delivery'.id) : d = d' := by
  obtain ⟨-,e,he,identity,record,hget,hgen,hd⟩ := h
  obtain ⟨-,e',he',identity',record',hget',hgen',hd'⟩ := h'
  -- the earlier record goes on to the later one, since a generation names one record
  have hlater : ∀ {k n : Nat} {e e' : Execution} {identity identity' record record' d d' id},
      s.log[k]? = some e → s.log[n]? = some e' → k ≤ n → e.waits.get? identity = some record →
      e'.waits.get? identity' = some record' → record.generation = record'.generation →
      record.decisions.get? id = some d → record'.decisions.get? id = some d' → d = d' := by
    intro k n e e' identity identity' record record' d d' id hk hn hle hget hget' hgen hd hd'
    have hgoes : ∃ record'', e'.waits.get? identity = some record'' ∧ Later record record'' := by
      rcases Nat.lt_or_eq_of_le hle with hlt | rfl
      · exact waits_kept hlinked hk hn hlt hget
      · rw [hk] at hn
        cases hn
        exact ⟨record,hget,.refl record⟩
    obtain ⟨record'',hget'',hl⟩ := hgoes
    have hgeneration : record''.generation = record'.generation :=
      (congrArg WaitContract.generation hl.contract).trans hgen
    have hsame := (hread e' (List.mem_of_getElem? hn)).generation_injective hget'' hget' hgeneration
    subst hsame
    rw [hget'] at hget''
    cases hget''
    have hkept := hl.decisions _ d hd
    rw [hd'] at hkept
    exact (Option.some.inj hkept).symm
  obtain ⟨k,hk⟩ := List.getElem?_of_mem he
  obtain ⟨n,hn⟩ := List.getElem?_of_mem he'
  rcases Nat.le_total k n with hle | hle
  · exact hlater hk hn hle hget hget' (by rw [hgen,hgen',hgeneration]) hd (by rw [hid]; exact hd')
  · exact (hlater hn hk hle hget' hget (by rw [hgen,hgen',hgeneration]) hd' (by rw [← hid]; exact hd)).symm

/-- Whatever is delivered and canceled, and in whatever order it is committed, each wait has one outcome and
each delivery one decision. -/
theorem wait_has_one_winner {s : State Execution SessionUse WaitEvent} (hr : Reachable (waitProtocol T E) s) :
    OneWinner s := by
  have hholds := waitRule.reachable hr
  have hrecorded := waitEvents_recorded hr
  have hlink : ∀ {k : Nat} {e e' : Execution}, s.log[k]? = some e → s.log[k + 1]? = some e' →
      ∃ i t, 0 < i ∧ WaitCommit i e t ∧ e' = { t with revision := e.revision + 1 } :=
    fun hk hn => hholds.linked.next hk hn
  constructor
  case valid =>
    intro e he identity record hget
    exact validateDurableWait_iff.mpr ((hholds.entry e he).valid identity record hget)
  case single =>
    intro e he identity record hget id d id' d' hd hd' hacc hacc'
    have hvalid := (hholds.entry e he).valid identity record hget
    exact (hvalid.accepted_winner hd hacc).trans (hvalid.accepted_winner hd' hacc').symm
  case timely =>
    intro e he identity record hget id d hd hkind
    exact ((((hholds.entry e he).valid identity record hget).facts hd).timer hkind).1
  case kept =>
    intro k n e e' identity record hk hn hlt hget
    exact waits_kept hholds.linked hk hn hlt hget
  case closed =>
    intro k e e' identity record record' hk hn hget hget' harmed hclosed
    obtain ⟨i,t,hi,hcommit,rfl⟩ := hlink hk hn
    obtain ⟨record'',hget'',hstep⟩ := hcommit.goes_on hi hget
    rw [show t.waits.get? identity = some record' from hget'] at hget''
    cases hget''
    cases hstep.closed harmed hclosed with
    | continued d decided accepted winner source activation pointer journal groups terminal =>
      exact .continued d decided accepted winner source activation pointer journal groups terminal
    | canceled cancel stored source activation progress terminal =>
      exact .canceled cancel stored source activation progress terminal
  case unmoved =>
    intro k e e' identity record record' id d hk hn hget hget' hfresh hd hother
    obtain ⟨i,t,hi,hcommit,rfl⟩ := hlink hk hn
    obtain ⟨record'',hget'',hstep⟩ := hcommit.goes_on hi hget
    rw [show t.waits.get? identity = some record' from hget'] at hget''
    cases hget''
    exact hstep.unmoved hfresh hd hother
  case answers =>
    intro delivery d delivery' d' hv hv' hgeneration hid
    have h := hrecorded _ hv
    have h' := hrecorded _ hv'
    have hsame := answers_agree hholds.linked hholds.entry h h' hgeneration hid
    subst hsame
    refine ⟨rfl,h.1.kind.symm.trans h'.1.kind,h.1.correlation.symm.trans h'.1.correlation,?_⟩
    exact Sha256.injective (h.1.payload.symm.trans h'.1.payload)

end Runs

section Example

attribute [local instance] Sha256.hex

def approvalProfile : WaitCapabilityProfile :=
  ⟨ascii "p",ascii "p",ascii "p",ascii "p",ascii "p",ascii "p",ascii "p"⟩

def approvalSpec : DurableWaitSpec :=
  ⟨ascii "w",ascii "c",⟨5⟩,0,ascii "m",ascii "raw",ascii "k",ascii "yes",ascii "late",.firstCommitted⟩

def approvalRunner : WaitRunner := ⟨.sample,some approvalProfile,some approvalProfile,fun _ => true⟩

def approvalContract : WaitDeliveryContract Unit :=
  ⟨ascii "m",ascii "raw",ascii "k",some fun _ => .ok true,some fun state _ => .ok state⟩

def approvalGeneration : Text := waitGeneration (waitIdentity (ascii "x") (ascii "n") 1 (ascii "w")) 2

def approvalDelivery (id : Text) (kind : WaitDeliveryKind) (expected : Nat) : WaitDelivery :=
  ⟨approvalGeneration,id,kind,ascii "c",expected,[]⟩

def approve (id : Text) (kind : WaitDeliveryKind) (expected : Nat) (now : Time) : WaitAction Unit Unit :=
  .deliver approvalRunner unitCodecs (fun _ => .ok ()) now (ascii "x") (approvalDelivery id kind expected)
    approvalContract

def approvalScript : List (Command (WaitAction Unit Unit)) :=
  [.acquire,.act 1 (.other startedExecution),
    .act 1 (.arm unitCodecs (some approvalProfile) (some approvalProfile) 1 1
      ⟨ascii "x",ascii "n",(),startedExecution.runMeta,[]⟩ approvalSpec),
    .acquire,.load 2,.act 2 (approve (ascii "e") .event 2 ⟨3⟩),
    .acquire,.load 3,.act 3 (approve (ascii "t") .timer 2 ⟨6⟩),
    .acquire,.load 4,.act 4 (approve (ascii "e") .event 2 ⟨7⟩)]

def WaitEvent.status : WaitEvent → WaitDecisionStatus
  | .answered _ d => d.status

theorem approval_has_one_winner : ∃ s : State Execution SessionUse WaitEvent,
    Reachable (waitProtocol Unit Unit) s ∧ s.log.length = 4 ∧
      s.trace.map WaitEvent.status = [.accepted,.lost,.accepted] ∧ OneWinner s := by
  have hrun : ((waitProtocol Unit Unit).script approvalScript).map
      (fun s => (s.log.length,s.trace.map WaitEvent.status)) = some (4,[.accepted,.lost,.accepted]) := by
    decide +kernel
  obtain ⟨s,hs,hout⟩ := Option.map_eq_some_iff.mp hrun
  rw [Prod.mk.injEq] at hout
  have hr := Reachable.of_script hs
  exact ⟨s,hr,hout.1,hout.2,wait_has_one_winner hr⟩

end Example
end Flowy
