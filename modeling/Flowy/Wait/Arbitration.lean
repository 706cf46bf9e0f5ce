import Flowy.Wait.Record

/-! Arbitration of a wait. `prepareWaitDecision` produces the next record from one delivery, and
`validateDurableWait` judges records by the order of their source revisions; the two are written
apart and have to agree on every history. -/
namespace Flowy

def durableWaitCanceledReason : Text := ascii "durable_wait_canceled"

section Validation

def validWaitCancellation (record : DurableWaitRecord) (revision : Nat) : Bool :=
  if record.state != .canceled then record.cancellation.isNone
  else record.cancellation.any fun cancel => cancel.id != [] && cancel.reason != [] &&
    cancel.evidence != [] && record.armRevision ≤ cancel.sourceRevision &&
    cancel.sourceRevision < revision && cancel.incarnation != 0 && !cancel.decidedAt.isZero &&
    validRuntimeText [cancel.id,cancel.reason,cancel.evidence]

def DurableWaitRecord.winner (record : DurableWaitRecord) : Option WaitDecision :=
  record.decisions.get? record.winnerID

/-- The zero decision stands for a missing winner. -/
def DurableWaitRecord.winnerSource (record : DurableWaitRecord) : Nat :=
  record.winner.elim 0 fun winner => winner.sourceRevision

def validWaitDecisionState (record : DurableWaitRecord) (decision : WaitDecision) : Bool :=
  match decision.status with
  | .unset => false
  | .accepted => decision.id == record.winnerID &&
      ((record.state == .resolved && decision.kind == .event) ||
        (record.state == .expired && decision.kind == .timer))
  | .unmatched => decision.kind == .event &&
      (record.winnerID == [] || decision.sourceRevision < record.winnerSource) &&
      record.cancellation.all fun cancel => decision.sourceRevision < cancel.sourceRevision
  | .lost => record.winnerID != [] && record.winnerSource < decision.sourceRevision
  | .rejectedCanceled => record.state == .canceled && record.cancellation.any fun cancel =>
      cancel.sourceRevision < decision.sourceRevision

def validWaitWinner (record : DurableWaitRecord) : Bool :=
  match record.state with
  | .unset => false
  | .armed | .canceled => record.winnerID == []
  | .resolved | .expired => record.winnerID != []

/-- The source revisions a record has used up, one for each decision and one for a cancellation. -/
def waitSources (record : DurableWaitRecord) : List Nat :=
  (record.cancellation.toList.map fun cancel => cancel.sourceRevision) ++
    record.decisions.values.map fun decision => decision.sourceRevision

variable [Sha256]

def validWaitDecision (record : DurableWaitRecord) (revision : Nat) (id : Text)
    (decision : WaitDecision) : Bool :=
  id != [] && id == decision.id && decision.correlationID == record.spec.correlationID &&
    decision.incarnation != 0 && !decision.decidedAt.isZero &&
    record.armRevision ≤ decision.sourceRevision && decision.sourceRevision < revision &&
    Sha256.wellFormed decision.payloadDigest &&
    (decision.kind == .event || decision.kind == .timer) &&
    !(decision.kind == .timer && (decision.decidedAt.before record.spec.deadline ||
      decision.payloadDigest != waitPayloadDigest [])) &&
    validWaitDecisionState record decision

def validateWaitDecisions (record : DurableWaitRecord) (revision : Nat) : Bool :=
  !(record.winnerID != [] && !record.winner.any fun winner => winner.status == .accepted) &&
    (waitSources record).Nodup && record.decisions.all (validWaitDecision record revision)

def validWaitAddress (record : DurableWaitRecord) : Bool :=
  record.executionID != [] && record.node != [] && record.activation != 0 &&
    record.spec.validate.isOk && record.profile.validate.isOk && record.armRevision != 0 &&
    record.generation == waitGeneration record.identity record.armRevision

def validateDurableWait (record : DurableWaitRecord) (revision : Nat) : Result Unit :=
  require (validWaitAddress record && record.armRevision ≤ revision &&
    validWaitCancellation record revision && validWaitWinner record &&
    validateWaitDecisions record revision) .waitInvalid

end Validation

section Decision

def validateWaitDelivery (record : DurableWaitRecord) (delivery : WaitDelivery) (revision : Nat) :
    Result Unit := do
  require (delivery.generation == record.generation && record.armRevision ≤ delivery.expectedRevision &&
    delivery.expectedRevision ≤ revision) .waitStale
  require (delivery.id != [] && (delivery.kind == .event || delivery.kind == .timer)) .waitInvalid

def waitDecisionStatus (record : DurableWaitRecord) (kind : WaitDeliveryKind) (matched : Bool) :
    WaitDecisionStatus :=
  if record.state = .canceled then .rejectedCanceled
  else if record.state ≠ .armed then .lost
  else if kind = .event ∧ matched = false then .unmatched
  else .accepted

def DurableWaitRecord.decided (record : DurableWaitRecord) (decision : WaitDecision) :
    DurableWaitRecord :=
  let record := if decision.status = .accepted then
      { record with winnerID := decision.id
                    state := if decision.kind = .timer then .expired else .resolved }
    else record
  { record with decisions := record.decisions.set decision.id decision }

variable [Sha256]

def WaitDelivery.decision (delivery : WaitDelivery) (record : DurableWaitRecord)
    (revision incarnation : Nat) (now : Time) (matched : Bool) : WaitDecision where
  id := delivery.id
  kind := delivery.kind
  correlationID := delivery.correlationID
  payloadDigest := waitPayloadDigest delivery.payload
  status := waitDecisionStatus record delivery.kind matched
  sourceRevision := revision
  incarnation := incarnation
  decidedAt := now

/-- The target record, its decision, and whether the decision is an old one that needs no write. -/
def prepareWaitDecision (record : DurableWaitRecord) (delivery : WaitDelivery)
    (revision incarnation : Nat) (now : Time) (matched : Bool) :
    Result (DurableWaitRecord × WaitDecision × Bool) := do
  require ((validateDurableWait record revision).isOk && incarnation != 0 && !now.isZero) .waitInvalid
  validateWaitDelivery record delivery revision
  match record.decisions.get? delivery.id with
  | some prior => do
    require (prior.kind == delivery.kind && prior.correlationID == delivery.correlationID &&
      prior.payloadDigest == waitPayloadDigest delivery.payload) .waitConflict
    .ok (record,prior,true)
  | none => do
    require (revision != maxRevision) .waitInvalid
    require (delivery.correlationID == record.spec.correlationID &&
      !(delivery.kind == .timer && delivery.payload != [])) .waitInvalid
    require (!(delivery.kind == .timer && now.before record.spec.deadline)) .waitInvalid
    require (!(record.state == .armed && delivery.expectedRevision != revision)) .waitStale
    let decision := delivery.decision record revision incarnation now matched
    .ok (record.decided decision,decision,false)

end Decision

section ValidRecord

variable [Sha256] {record : DurableWaitRecord} {revision : Nat}

structure ValidWait (record : DurableWaitRecord) (revision : Nat) : Prop where
  address : validWaitAddress record = true
  armed : record.armRevision ≤ revision
  cancellation : validWaitCancellation record revision = true
  winner : validWaitWinner record = true
  accepted : record.winnerID ≠ [] → ∃ w, record.winner = some w ∧ w.status = .accepted
  sources : (waitSources record).Nodup
  decisions : ∀ id d, record.decisions.get? id = some d → validWaitDecision record revision id d = true

theorem validateDurableWait_iff : validateDurableWait record revision = .ok () ↔
    ValidWait record revision := by
  simp only [validateDurableWait,validateWaitDecisions,require_eq_ok,Bool.and_eq_true,
    decide_eq_true_eq,GoMap.all_iff,Bool.not_eq_true',Bool.and_eq_false_iff,bne_eq_false_iff_eq,
    Bool.not_eq_false',Option.any_eq_true,beq_iff_eq]
  constructor
  · rintro ⟨⟨⟨⟨h1,h2⟩,h3⟩,h4⟩,⟨h5,h6⟩,h7⟩
    exact ⟨h1,h2,h3,h4,fun hne => h5.resolve_left hne,h6,h7⟩
  · rintro ⟨h1,h2,h3,h4,h5,h6,h7⟩
    exact ⟨⟨⟨⟨h1,h2⟩,h3⟩,h4⟩,⟨Decidable.or_iff_not_imp_left.mpr h5,h6⟩,h7⟩

structure DecisionFacts (record : DurableWaitRecord) (revision : Nat) (id : Text) (d : WaitDecision) :
    Prop where
  named : id ≠ []
  keyed : d.id = id
  correlation : d.correlationID = record.spec.correlationID
  incarnation : d.incarnation ≠ 0
  clocked : d.decidedAt.isZero = false
  armed : record.armRevision ≤ d.sourceRevision
  past : d.sourceRevision < revision
  digest : Sha256.wellFormed d.payloadDigest = true
  kind : d.kind = .event ∨ d.kind = .timer
  timer : d.kind = .timer → d.decidedAt.before record.spec.deadline = false ∧
    d.payloadDigest = waitPayloadDigest []
  state : validWaitDecisionState record d = true

theorem validWaitDecision_iff {id : Text} {d : WaitDecision} :
    validWaitDecision record revision id d = true ↔ DecisionFacts record revision id d := by
  simp only [validWaitDecision,Bool.and_eq_true,bne_iff_ne,beq_iff_eq,Bool.not_eq_true',
    decide_eq_true_eq,Bool.or_eq_true,Bool.and_eq_false_iff,beq_eq_false_iff_ne,
    Bool.or_eq_false_iff,bne_eq_false_iff_eq]
  constructor
  · rintro ⟨⟨⟨⟨⟨⟨⟨⟨⟨⟨h1,h2⟩,h3⟩,h4⟩,h5⟩,h6⟩,h7⟩,h8⟩,h9⟩,h10⟩,h11⟩
    exact ⟨h1,h2.symm,h3,h4,h5,h6,h7,h8,h9,fun hk => h10.resolve_left (not_not.mpr hk),h11⟩
  · rintro ⟨h1,h2,h3,h4,h5,h6,h7,h8,h9,h10,h11⟩
    exact ⟨⟨⟨⟨⟨⟨⟨⟨⟨⟨h1,h2.symm⟩,h3⟩,h4⟩,h5⟩,h6⟩,h7⟩,h8⟩,h9⟩,
      Decidable.or_iff_not_imp_left.mpr fun hk => h10 (not_not.mp hk)⟩,h11⟩

theorem ValidWait.facts (h : ValidWait record revision) {id : Text} {d : WaitDecision}
    (hd : record.decisions.get? id = some d) : DecisionFacts record revision id d :=
  validWaitDecision_iff.mp (h.decisions id d hd)

theorem ValidWait.mono (h : ValidWait record revision) {later : Nat} (hle : revision ≤ later) :
    ValidWait record later := by
  refine ⟨h.address,Nat.le_trans h.armed hle,?_,h.winner,h.accepted,h.sources,?_⟩
  · have hc := h.cancellation
    unfold validWaitCancellation at hc ⊢
    split
    · rename_i hs
      rwa [if_pos hs] at hc
    · rename_i hs
      rw [if_neg hs] at hc
      simp only [Option.any_eq_true,Bool.and_eq_true,decide_eq_true_eq] at hc ⊢
      obtain ⟨c,hsome,⟨⟨⟨⟨h1,h2⟩,h3⟩,h4⟩,h5⟩⟩ := hc
      exact ⟨c,hsome,⟨⟨⟨h1,by omega⟩,h3⟩,h4⟩,h5⟩
  · intro id d hd
    have hf := h.facts hd
    exact validWaitDecision_iff.mpr { hf with past := Nat.lt_of_lt_of_le hf.past hle }

theorem ValidWait.accepted_winner (h : ValidWait record revision) {id : Text} {d : WaitDecision}
    (hd : record.decisions.get? id = some d) (hacc : d.status = .accepted) : id = record.winnerID := by
  have hf := h.facts hd
  have hs := hf.state
  simp only [validWaitDecisionState,hacc,Bool.and_eq_true,beq_iff_eq] at hs
  rw [← hf.keyed,hs.1]

theorem ValidWait.of_armed (h : ValidWait record revision) (hs : record.state = .armed) :
    record.winnerID = [] ∧ record.cancellation = none ∧
      ∀ id d, record.decisions.get? id = some d → d.status = .unmatched := by
  have hw := h.winner
  have hc := h.cancellation
  simp only [validWaitWinner,hs,beq_iff_eq] at hw
  simp only [validWaitCancellation,hs] at hc
  refine ⟨hw,by simpa using hc,fun id d hd => ?_⟩
  have hd' := (h.facts hd).state
  cases hst : d.status with
  | unmatched => rfl
  | unset | accepted | lost | rejectedCanceled => simp [validWaitDecisionState,hst,hs,hw] at hd'

theorem ValidWait.sources_lt (h : ValidWait record revision) : revision ∉ waitSources record := by
  intro hmem
  rcases List.mem_append.mp hmem with hc | hd
  · obtain ⟨c,hsome,hrev⟩ := List.mem_map.mp hc
    have hcancel := h.cancellation
    unfold validWaitCancellation at hcancel
    rw [Option.mem_toList] at hsome
    split at hcancel
    · simp [Option.mem_def.mp hsome] at hcancel
    · simp only [Option.mem_def.mp hsome,Option.any_some,Bool.and_eq_true,decide_eq_true_eq] at hcancel
      omega
  · obtain ⟨d,hd,hrev⟩ := List.mem_map.mp hd
    obtain ⟨id,hid⟩ := (GoMap.mem_values_iff _ _).mp hd
    have hpast := (h.facts hid).past
    omega

end ValidRecord

section Decide

variable {record : DurableWaitRecord} {revision : Nat} {d : WaitDecision}

@[simp] theorem decided_contract (record : DurableWaitRecord) (d : WaitDecision) :
    (record.decided d).contract = record.contract := by
  unfold DurableWaitRecord.decided
  split <;> rfl

theorem decided_decisions (record : DurableWaitRecord) (d : WaitDecision) :
    (record.decided d).decisions = record.decisions.set d.id d := by
  unfold DurableWaitRecord.decided
  split <;> rfl

theorem decided_cancellation (record : DurableWaitRecord) (d : WaitDecision) :
    (record.decided d).cancellation = record.cancellation := by
  unfold DurableWaitRecord.decided
  split <;> rfl

theorem decided_of_not_accepted (h : d.status ≠ .accepted) :
    record.decided d = { record with decisions := record.decisions.set d.id d } := by
  simp [DurableWaitRecord.decided,h]

theorem decided_of_accepted (h : d.status = .accepted) :
    record.decided d = { record with
      winnerID := d.id
      state := if d.kind = .timer then .expired else .resolved
      decisions := record.decisions.set d.id d } := by
  simp [DurableWaitRecord.decided,h]

variable [Sha256]

structure NewDecision (record : DurableWaitRecord) (revision : Nat) (d : WaitDecision) : Prop where
  fresh : record.decisions.get? d.id = none
  named : d.id ≠ []
  correlation : d.correlationID = record.spec.correlationID
  incarnation : d.incarnation ≠ 0
  clocked : d.decidedAt.isZero = false
  source : d.sourceRevision = revision
  digest : Sha256.wellFormed d.payloadDigest = true
  kind : d.kind = .event ∨ d.kind = .timer
  timer : d.kind = .timer → d.decidedAt.before record.spec.deadline = false ∧
    d.payloadDigest = waitPayloadDigest []
  status : ∃ matched, d.status = waitDecisionStatus record d.kind matched

theorem NewDecision.armed (hd : NewDecision record revision d) (hacc : d.status = .accepted) :
    record.state = .armed := by
  obtain ⟨matched,hs⟩ := hd.status
  unfold waitDecisionStatus at hs
  rw [hacc] at hs
  split at hs
  · cases hs
  split at hs
  · cases hs
  · rename_i harmed
    exact not_not.mp harmed

theorem NewDecision.ne_winner (hd : NewDecision record revision d) (h : ValidWait record revision) :
    record.winnerID ≠ d.id := by
  intro he
  by_cases h0 : record.winnerID = []
  · exact hd.named (he.symm.trans h0)
  · obtain ⟨w,hw,-⟩ := h.accepted h0
    rw [DurableWaitRecord.winner,he,hd.fresh] at hw
    cases hw

theorem validWaitAddress_contract {r r' : DurableWaitRecord} (h : r'.contract = r.contract) :
    validWaitAddress r' = validWaitAddress r := by
  simp only [DurableWaitRecord.contract,WaitContract.mk.injEq] at h
  obtain ⟨h1,h2,h3,h4,h5,h6,h7⟩ := h
  simp only [validWaitAddress,DurableWaitRecord.identity,h1,h2,h3,h4,h5,h6,h7]

theorem waitSources_decided (hd : NewDecision record revision d) (h : ValidWait record revision) :
    (waitSources (record.decided d)).Nodup := by
  have hperm : (waitSources (record.decided d)).Perm (revision :: waitSources record) := by
    simp only [waitSources,decided_cancellation,decided_decisions,
      GoMap.values_set_new hd.fresh,List.map_cons,hd.source]
    exact List.perm_middle
  rw [hperm.nodup_iff,List.nodup_cons]
  exact ⟨h.sources_lt,h.sources⟩

theorem validWaitDecisionState_decided (h : ValidWait record revision)
    (hd : NewDecision record revision d) {id : Text} {prior : WaitDecision}
    (hp : record.decisions.get? id = some prior) :
    validWaitDecisionState (record.decided d) prior = true := by
  have hf := h.facts hp
  by_cases hacc : d.status = .accepted
  · -- the new winner comes after every unmatched decision
    obtain ⟨-,hcancel,hunmatched⟩ := h.of_armed (hd.armed hacc)
    have hst := hf.state
    have hkind : prior.kind = .event := by
      simp only [validWaitDecisionState,hunmatched id prior hp,Bool.and_eq_true,beq_iff_eq] at hst
      exact hst.1.1
    have hw : (record.decided d).winnerSource = revision := by
      simp [decided_of_accepted hacc,DurableWaitRecord.winnerSource,DurableWaitRecord.winner,hd.source]
    simp only [validWaitDecisionState,hunmatched id prior hp,decided_cancellation,hcancel,hw,hkind]
    simp [hf.past]
  · -- nothing the check looks at changes
    have hw : (record.decided d).winnerSource = record.winnerSource := by
      rw [decided_of_not_accepted hacc]
      simp only [DurableWaitRecord.winnerSource,DurableWaitRecord.winner,
        GoMap.get?_set_of_ne _ _ (hd.ne_winner h)]
    have hst := hf.state
    rw [decided_of_not_accepted hacc] at hw ⊢
    unfold validWaitDecisionState at hst ⊢
    rw [hw]
    exact hst

theorem validWaitDecisionState_new (h : ValidWait record revision)
    (hd : NewDecision record revision d) : validWaitDecisionState (record.decided d) d = true := by
  obtain ⟨matched,hs⟩ := hd.status
  have hwin := h.winner
  have hcancel := h.cancellation
  unfold waitDecisionStatus at hs
  split at hs
  · rename_i hstate
    simp only [validWaitCancellation,hstate,bne_self_eq_false,Bool.false_eq_true,if_false,
      Option.any_eq_true,Bool.and_eq_true,decide_eq_true_eq] at hcancel
    obtain ⟨c,hc,hfacts⟩ := hcancel
    rw [decided_of_not_accepted (by simp [hs])]
    simp only [validWaitDecisionState,hs,hstate,hc,hd.source,beq_self_eq_true,Bool.true_and,
      Option.any_some,decide_eq_true_eq]
    exact hfacts.1.1.1.2
  split at hs
  · -- the winner was committed at an earlier revision
    rename_i hcan harm
    have hne : record.winnerID ≠ [] := by
      unfold validWaitWinner at hwin
      split at hwin
      · cases hwin
      · exact absurd ‹_› harm
      · exact absurd ‹_› hcan
      · exact bne_iff_ne.mp hwin
      · exact bne_iff_ne.mp hwin
    obtain ⟨w,hw,-⟩ := h.accepted hne
    have hpast : w.sourceRevision < revision := (h.facts hw).past
    rw [decided_of_not_accepted (by simp [hs])]
    simp only [validWaitDecisionState,hs,DurableWaitRecord.winnerSource,DurableWaitRecord.winner,
      GoMap.get?_set_of_ne _ _ (hd.ne_winner h)]
    rw [show record.decisions.get? record.winnerID = some w from hw]
    simp [hne,hd.source,hpast]
  split at hs
  · rename_i hcan harm hevent
    obtain ⟨h0,hc,-⟩ := h.of_armed (not_not.mp harm)
    rw [decided_of_not_accepted (by simp [hs])]
    simp [validWaitDecisionState,hs,hc,h0,hevent.1]
  · rw [decided_of_accepted hs]
    rcases hd.kind with hk | hk <;> simp [validWaitDecisionState,hs,hk]

theorem ValidWait.decided (h : ValidWait record revision) (hd : NewDecision record revision d) :
    ValidWait (record.decided d) (revision + 1) := by
  have hcontract := decided_contract record d
  have hspec : (record.decided d).spec = record.spec := congrArg WaitContract.spec hcontract
  have harm : (record.decided d).armRevision = record.armRevision :=
    congrArg WaitContract.armRevision hcontract
  have hmono := h.mono (Nat.le_succ revision)
  refine ⟨?_,by rw [harm]; exact hmono.armed,?_,?_,?_,waitSources_decided hd h,?_⟩
  · rw [validWaitAddress_contract hcontract]
    exact h.address
  · by_cases hacc : d.status = .accepted
    · obtain ⟨-,hc,-⟩ := h.of_armed (hd.armed hacc)
      rw [decided_of_accepted hacc]
      simp only [validWaitCancellation,hc]
      split <;> rfl
    · rw [decided_of_not_accepted hacc]
      exact hmono.cancellation
  · by_cases hacc : d.status = .accepted
    · rw [decided_of_accepted hacc]
      simp only [validWaitWinner]
      split <;> rename_i hs
      · split at hs <;> cases hs
      · split at hs <;> cases hs
      · split at hs <;> cases hs
      · exact bne_iff_ne.mpr hd.named
      · exact bne_iff_ne.mpr hd.named
    · rw [decided_of_not_accepted hacc]
      exact h.winner
  · intro hne
    by_cases hacc : d.status = .accepted
    · refine ⟨d,?_,hacc⟩
      simp [decided_of_accepted hacc,DurableWaitRecord.winner]
    · rw [decided_of_not_accepted hacc] at hne ⊢
      obtain ⟨w,hw,hwacc⟩ := h.accepted hne
      refine ⟨w,?_,hwacc⟩
      simp only [DurableWaitRecord.winner,GoMap.get?_set_of_ne _ _ (hd.ne_winner h)]
      exact hw
  · intro id prior hget
    rw [decided_decisions,GoMap.get?_set] at hget
    split at hget
    · rename_i hid
      cases hget
      refine validWaitDecision_iff.mpr ⟨?_,hid.symm,?_,hd.incarnation,hd.clocked,?_,?_,hd.digest,hd.kind,
        ?_,validWaitDecisionState_new h hd⟩
      · rw [hid]
        exact hd.named
      · rw [hspec]
        exact hd.correlation
      · rw [harm,hd.source]
        exact h.armed
      · rw [hd.source]
        exact Nat.lt_succ_self _
      · rw [hspec]
        exact hd.timer
    · have hf := hmono.facts hget
      refine validWaitDecision_iff.mpr ⟨hf.named,hf.keyed,?_,hf.incarnation,hf.clocked,?_,hf.past,hf.digest,
        hf.kind,?_,validWaitDecisionState_decided h hd hget⟩
      · rw [hspec]
        exact hf.correlation
      · rw [harm]
        exact hf.armed
      · rw [hspec]
        exact hf.timer

theorem prepareWaitDecision_eq_ok {delivery : WaitDelivery} {incarnation : Nat} {now : Time}
    {matched replay : Bool} {target : DurableWaitRecord}
    (h : prepareWaitDecision record delivery revision incarnation now matched = .ok (target,d,replay)) :
    ValidWait record revision ∧ delivery.generation = record.generation ∧
      ((replay = true ∧ target = record ∧ record.decisions.get? delivery.id = some d) ∨
        (replay = false ∧ target = record.decided d ∧ NewDecision record revision d ∧
          d = delivery.decision record revision incarnation now matched)) := by
  unfold prepareWaitDecision at h
  obtain ⟨⟨⟩,hreq,h⟩ := bind_eq_ok.mp h
  obtain ⟨⟨⟩,hdel,h⟩ := bind_eq_ok.mp h
  simp only [require_eq_ok,Bool.and_eq_true,isOk_iff,validateDurableWait_iff,bne_iff_ne,
    Bool.not_eq_true'] at hreq
  obtain ⟨⟨hvalid,hinc⟩,hnow⟩ := hreq
  simp only [validateWaitDelivery,bind_eq_ok,require_eq_ok,exists_const,Bool.and_eq_true,beq_iff_eq,
    bne_iff_ne,Bool.or_eq_true] at hdel
  refine ⟨hvalid,hdel.1.1.1,?_⟩
  cases hprior : record.decisions.get? delivery.id with
  | some prior =>
    simp only [hprior,bind_eq_ok,require_eq_ok,exists_const,Except.ok.injEq,Prod.mk.injEq] at h
    obtain ⟨-,rfl,rfl,rfl⟩ := h
    exact .inl ⟨rfl,rfl,rfl⟩
  | none =>
    simp only [hprior,bind_eq_ok,require_eq_ok,exists_const,Except.ok.injEq,Prod.mk.injEq,
      Bool.and_eq_true,beq_iff_eq,Bool.not_eq_true',Bool.and_eq_false_iff,beq_eq_false_iff_ne,
      bne_eq_false_iff_eq] at h
    obtain ⟨-,⟨hcorr,hpayload⟩,htime,-,rfl,rfl,rfl⟩ := h
    refine .inr ⟨rfl,rfl,⟨hprior,hdel.2.1,hcorr,hinc,hnow,rfl,Sha256.wellFormed_sum _,hdel.2.2,?_,
      ⟨matched,rfl⟩⟩,rfl⟩
    intro hk
    refine ⟨htime.resolve_left (not_not.mpr hk),?_⟩
    rw [WaitDelivery.decision,hpayload.resolve_left (not_not.mpr hk)]

end Decide

section Cancel

def DurableWaitRecord.canceledBy (record : DurableWaitRecord) (cancel : WaitCancellationRecord) :
    DurableWaitRecord :=
  { record with state := .canceled, cancellation := some cancel }

variable [Sha256] {record : DurableWaitRecord} {revision : Nat} {cancel : WaitCancellationRecord}

structure NewCancellation (revision : Nat) (cancel : WaitCancellationRecord) : Prop where
  named : cancel.id ≠ []
  reasoned : cancel.reason ≠ []
  evidenced : cancel.evidence ≠ []
  source : cancel.sourceRevision = revision
  incarnation : cancel.incarnation ≠ 0
  clocked : cancel.decidedAt.isZero = false
  text : validRuntimeText [cancel.id,cancel.reason,cancel.evidence] = true

theorem ValidWait.canceledBy (h : ValidWait record revision) (hs : record.state = .armed)
    (hc : NewCancellation revision cancel) :
    ValidWait (record.canceledBy cancel) (revision + 1) := by
  obtain ⟨hwin,hnone,hunmatched⟩ := h.of_armed hs
  have hmono := h.mono (Nat.le_succ revision)
  refine ⟨h.address,hmono.armed,?_,by simp [validWaitWinner,DurableWaitRecord.canceledBy,hwin],
    fun hne => absurd hwin hne,?_,?_⟩
  · have harmed := h.armed
    simp [validWaitCancellation,DurableWaitRecord.canceledBy,hc.named,hc.reasoned,hc.evidenced,
      hc.source,hc.incarnation,hc.clocked,hc.text,harmed]
  · have hlt := h.sources_lt
    have hnodup := h.sources
    simp only [waitSources,hnone,Option.toList_none,List.map_nil,List.nil_append] at hlt hnodup
    simp only [waitSources,DurableWaitRecord.canceledBy,Option.toList_some,List.map_cons,List.map_nil,
      List.cons_append,List.nil_append,List.nodup_cons,hc.source]
    exact ⟨hlt,hnodup⟩
  · intro id d hd
    have hf := hmono.facts hd
    refine validWaitDecision_iff.mpr { hf with state := ?_ }
    have hpast := (h.facts hd).past
    have hst := hf.state
    simp only [validWaitDecisionState,hunmatched id d hd,Bool.and_eq_true] at hst
    simp [validWaitDecisionState,hunmatched id d hd,DurableWaitRecord.canceledBy,hwin,hc.source,
      hpast,hst.1.1]

end Cancel

section Admission

variable {J C : Type}

def validCanceledWaitTerminal (envelope : ExecutionEnvelope J C Waits) (record : DurableWaitRecord) :
    Bool :=
  if record.state != .canceled then true
  else record.cancellation.any fun cancel => envelope.terminal.any fun terminal =>
    terminal.status == .failed && terminal.reason == durableWaitCanceledReason &&
      (terminal.failure.any fun failure =>
        failure.message == durableWaitCanceledReason ++ ascii ": " ++ cancel.reason) &&
      envelope.activation == record.activation && envelope.progress.executionPointer == record.node

def armedWaits (waits : Waits) : List DurableWaitRecord :=
  waits.values.filter fun record => record.state == .armed

variable [Sha256]

def validWaitEnvelopeAddress (envelope : ExecutionEnvelope J C Waits) (identity : Text)
    (record : DurableWaitRecord) : Bool :=
  (envelope.runtimeProfile.all fun profile => record.profile == profile) &&
    identity == record.identity && record.executionID == envelope.executionID &&
    record.activation ≤ envelope.activation && (validateDurableWait record envelope.revision).isOk &&
    (record.state != .armed || (envelope.terminal.isNone &&
      record.activation == envelope.activation && record.node == envelope.progress.executionPointer))

def executionWaits (envelope : ExecutionEnvelope J C Waits) : Result Waits := do
  require (envelope.waits.all fun identity record =>
    validWaitEnvelopeAddress envelope identity record && validCanceledWaitTerminal envelope record)
    .executionCorrupt
  require ((armedWaits envelope.waits).length ≤ 1) .executionCorrupt
  .ok envelope.waits

structure AdmittedWaits (envelope : ExecutionEnvelope J C Waits) : Prop where
  profile : ∀ identity record, envelope.waits.get? identity = some record →
    ∀ profile, envelope.runtimeProfile = some profile → record.profile = profile
  keyed : ∀ identity record, envelope.waits.get? identity = some record → identity = record.identity
  execution : ∀ identity record, envelope.waits.get? identity = some record →
    record.executionID = envelope.executionID ∧ record.activation ≤ envelope.activation
  valid : ∀ identity record, envelope.waits.get? identity = some record →
    ValidWait record envelope.revision
  current : ∀ identity record, envelope.waits.get? identity = some record → record.state = .armed →
    envelope.terminal = none ∧ record.activation = envelope.activation ∧
      record.node = envelope.progress.executionPointer
  canceled : ∀ identity record, envelope.waits.get? identity = some record →
    validCanceledWaitTerminal envelope record = true
  single : (armedWaits envelope.waits).length ≤ 1

theorem executionWaits_iff {envelope : ExecutionEnvelope J C Waits} {waits : Waits} :
    executionWaits envelope = .ok waits ↔ waits = envelope.waits ∧ AdmittedWaits envelope := by
  simp only [executionWaits,validWaitEnvelopeAddress,bind_eq_ok,require_eq_ok,exists_const,
    GoMap.all_iff,Bool.and_eq_true,isOk_iff,validateDurableWait_iff,decide_eq_true_eq,beq_iff_eq,
    Option.all_eq_true,Except.ok.injEq,Bool.or_eq_true,bne_iff_ne,Option.isNone_iff_eq_none]
  constructor
  · rintro ⟨hall,hsingle,rfl⟩
    refine ⟨rfl,?_,?_,?_,?_,?_,?_,hsingle⟩
    · exact fun id r hr p hp => (hall id r hr).1.1.1.1.1.1 p hp
    · exact fun id r hr => (hall id r hr).1.1.1.1.1.2
    · exact fun id r hr => ⟨(hall id r hr).1.1.1.1.2,(hall id r hr).1.1.1.2⟩
    · exact fun id r hr => (hall id r hr).1.1.2
    · intro id r hr hs
      have hcur := (hall id r hr).1.2.resolve_left (not_not.mpr hs)
      exact ⟨hcur.1.1,hcur.1.2,hcur.2⟩
    · exact fun id r hr => (hall id r hr).2
  · rintro ⟨rfl,h⟩
    refine ⟨fun id r hr => ⟨⟨⟨⟨⟨⟨h.profile id r hr,h.keyed id r hr⟩,(h.execution id r hr).1⟩,
      (h.execution id r hr).2⟩,h.valid id r hr⟩,?_⟩,h.canceled id r hr⟩,h.single,rfl⟩
    refine Decidable.or_iff_not_imp_left.mpr fun hs => ?_
    obtain ⟨h1,h2,h3⟩ := h.current id r hr (not_not.mp hs)
    exact ⟨⟨h1,h2⟩,h3⟩

end Admission
end Flowy
