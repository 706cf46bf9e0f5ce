import Flowy.Lib.JsonCodec
import Flowy.Contract

/-! The JSON text of the raw envelope, field by field as the structures declare it. Runtime
collections are byte strings here and travel in base64. -/
namespace Flowy

open Json

def base64Digit (n : Nat) : UInt8 :=
  if n < 26 then UInt8.ofNat (65 + n)
  else if n < 52 then UInt8.ofNat (71 + n)
  else if n < 62 then UInt8.ofNat (n - 4)
  else if n = 62 then 0x2B else 0x2F

def base64 : Bytes → Bytes
  | [] => []
  | [a] => [base64Digit (a.toNat / 4),base64Digit (a.toNat % 4 * 16),0x3D,0x3D]
  | [a,b] => [base64Digit (a.toNat / 4),base64Digit (a.toNat % 4 * 16 + b.toNat / 16),
      base64Digit (b.toNat % 16 * 4),0x3D]
  | a :: b :: c :: rest => base64Digit (a.toNat / 4) ::
      base64Digit (a.toNat % 4 * 16 + b.toNat / 16) ::
      base64Digit (b.toNat % 16 * 4 + c.toNat / 64) :: base64Digit (c.toNat % 64) :: base64 rest

def quoted (s : Bytes) : Bytes := 0x22 :: s ++ [0x22]

def intText (n : Int) : Bytes :=
  if n < 0 then 0x2D :: natText n.natAbs else natText n.natAbs

theorem base64Digit_alphabet (n : Nat) : (base64Digit n).toNat = 43 ∨
    (47 ≤ (base64Digit n).toNat ∧ (base64Digit n).toNat ≤ 57) ∨
    (65 ≤ (base64Digit n).toNat ∧ (base64Digit n).toNat ≤ 122) := by
  unfold base64Digit
  split
  · simp only [UInt8.toNat_ofNat']
    omega
  split
  · simp only [UInt8.toNat_ofNat']
    omega
  split
  · simp only [UInt8.toNat_ofNat']
    omega
  split
  · exact .inl rfl
  · exact .inr (.inl ⟨by decide,by decide⟩)

theorem base64Digit_ne_quote (n : Nat) : base64Digit n ≠ 0x22 := by
  intro h
  have hn : (base64Digit n).toNat = 34 := congrArg UInt8.toNat h
  have halphabet := base64Digit_alphabet n
  omega

theorem base64Digit_ne_pad (n : Nat) : base64Digit n ≠ 0x3D := by
  intro h
  have hn : (base64Digit n).toNat = 61 := congrArg UInt8.toNat h
  have halphabet := base64Digit_alphabet n
  omega

theorem base64Digit_injective : ∀ m < 64, ∀ n < 64, base64Digit m = base64Digit n → m = n := by
  decide +kernel

theorem base64_ne_quote (s : Bytes) : ∀ b ∈ base64 s, b ≠ 0x22 := by
  induction s using base64.induct with
  | case1 => simp [base64]
  | case2 a => simp [base64,base64Digit_ne_quote]
  | case3 a b => simp [base64,base64Digit_ne_quote]
  | case4 a b c rest ih => simpa [base64,base64Digit_ne_quote] using ih

theorem base64_injective {s t : Bytes} (h : base64 s = base64 t) : s = t := by
  have hbyte : ∀ a : UInt8, a.toNat < 256 := fun a => a.toNat_lt
  have hdigit : ∀ {m n}, m < 64 → n < 64 → base64Digit m = base64Digit n → m = n :=
    fun hm hn => base64Digit_injective _ hm _ hn
  induction s using base64.induct generalizing t with
  | case1 =>
    match t with
    | [] => rfl
    | [_] => cases h
    | [_,_] => cases h
    | _ :: _ :: _ :: _ => cases h
  | case2 a =>
    match t with
    | [] => cases h
    | [a'] =>
      simp only [base64,List.cons.injEq,and_true] at h
      have h1 := hdigit (by have := hbyte a; omega) (by have := hbyte a'; omega) h.1
      have h2 := hdigit (by omega) (by omega) h.2
      rw [UInt8.toNat_inj.mp (by omega : a.toNat = a'.toNat)]
    | [a',b'] =>
      simp only [base64,List.cons.injEq] at h
      exact absurd h.2.2.1.symm (base64Digit_ne_pad _)
    | a' :: b' :: c' :: rest =>
      simp only [base64,List.cons.injEq] at h
      exact absurd h.2.2.1.symm (base64Digit_ne_pad _)
  | case3 a b =>
    match t with
    | [] => cases h
    | [a'] =>
      simp only [base64,List.cons.injEq] at h
      exact absurd h.2.2.1 (base64Digit_ne_pad _)
    | [a',b'] =>
      simp only [base64,List.cons.injEq,and_true] at h
      have ha := hbyte a
      have ha' := hbyte a'
      have hb := hbyte b
      have hb' := hbyte b'
      have h1 := hdigit (by omega) (by omega) h.1
      have h2 := hdigit (by omega) (by omega) h.2.1
      have h3 := hdigit (by omega) (by omega) h.2.2
      rw [UInt8.toNat_inj.mp (by omega : a.toNat = a'.toNat),UInt8.toNat_inj.mp (by omega : b.toNat = b'.toNat)]
    | a' :: b' :: c' :: rest =>
      simp only [base64,List.cons.injEq] at h
      exact absurd h.2.2.2.1.symm (base64Digit_ne_pad _)
  | case4 a b c rest ih =>
    match t with
    | [] => cases h
    | [a'] =>
      simp only [base64,List.cons.injEq] at h
      exact absurd h.2.2.1 (base64Digit_ne_pad _)
    | [a',b'] =>
      simp only [base64,List.cons.injEq] at h
      exact absurd h.2.2.2.1 (base64Digit_ne_pad _)
    | a' :: b' :: c' :: rest' =>
      simp only [base64,List.cons.injEq] at h
      have ha := hbyte a
      have ha' := hbyte a'
      have hb := hbyte b
      have hb' := hbyte b'
      have hc := hbyte c
      have hc' := hbyte c'
      have h1 := hdigit (by omega) (by omega) h.1
      have h2 := hdigit (by omega) (by omega) h.2.1
      have h3 := hdigit (by omega) (by omega) h.2.2.1
      have h4 := hdigit (by omega) (by omega) h.2.2.2.1
      rw [UInt8.toNat_inj.mp (by omega : a.toNat = a'.toNat),UInt8.toNat_inj.mp (by omega : b.toNat = b'.toNat),
        UInt8.toNat_inj.mp (by omega : c.toNat = c'.toNat),ih h.2.2.2.2]

def numeric (b : UInt8) : Prop := b = 0x2D ∨ (0x30 ≤ b ∧ b ≤ 0x39)

theorem intText_numeric (n : Int) : ∀ b ∈ intText n, numeric b := by
  intro b hb
  unfold intText at hb
  split at hb
  · rcases List.mem_cons.mp hb with rfl | hb
    · exact .inl rfl
    · exact .inr (natText_digits _ b hb)
  · exact .inr (natText_digits _ b hb)

theorem intText_injective {m n : Int} (h : intText m = intText n) : m = n := by
  -- a sign is not a digit
  have hsign : ∀ (k : Nat) (s : Bytes), 0x2D :: s ≠ natText k := by
    intro k s heq
    have hd := (natText_digits k 0x2D (heq ▸ List.mem_cons_self)).1
    exact absurd hd (by decide)
  unfold intText at h
  split at h <;> split at h
  · have habs := natText_injective (List.cons.inj h).2
    omega
  · exact absurd h (hsign _ _)
  · exact absurd h.symm (hsign _ _)
  · have habs := natText_injective h
    omega

def payloadCodec : Codec Bytes := .literal fun b => quoted (base64 b)
def natCodec : Codec Nat := .literal natText
def intCodec : Codec Int := .literal intText
def timeCodec : Codec Time := .literal fun t => quoted t.format

def StepReplayMode.text : StepReplayMode → Text
  | .unset => []
  | .replaySafe => ascii "replay_safe"

def SegmentEndReason.text : SegmentEndReason → Text
  | .unset => []
  | .suspend => ascii "suspend"
  | .complete => ascii "complete"
  | .fail => ascii "fail"
  | .handoff => ascii "handoff"
  | .contextCanceled => ascii "context_canceled"

def HandoffStatus.text : HandoffStatus → Text
  | .none => []
  | .pending => ascii "pending"
  | .enqueued => ascii "enqueued"
  | .orphaned => ascii "orphaned"

def RunStatus.text : RunStatus → Text
  | .completed => ascii "completed"
  | .transferred => ascii "transferred"
  | .suspended => ascii "suspended"
  | .contextCanceled => ascii "context_canceled"
  | .failed => ascii "failed"
  | .handoff => ascii "handoff"

def ForkActivityMode.text : ForkActivityMode → Text
  | .fake => ascii "fake"
  | .live => ascii "live"

def stepReplayModeCodec : Codec StepReplayMode := .literal fun m => quoted m.text
def segmentEndReasonCodec : Codec SegmentEndReason := .literal fun r => quoted r.text
def handoffStatusCodec : Codec HandoffStatus := .literal fun s => quoted s.text
def runStatusCodec : Codec RunStatus := .literal fun s => quoted s.text
def forkActivityModeCodec : Codec ForkActivityMode := .literal fun m => quoted m.text

def StepReplayPolicy.codec : Codec StepReplayPolicy := .object
  (fun p => [field (ascii "label") .text p.label,field (ascii "mode") stepReplayModeCodec p.mode])
  (fun p => ⟨Codec.text.reread p.label,stepReplayModeCodec.reread p.mode⟩)
  (by
    rintro ⟨label,mode⟩ h
    simp only [List.all_cons,ok_field,Bool.and_eq_true] at h
    simp [Codec.fixed,h])
  (by simp)

def ExecutionDescriptor.codec : Codec ExecutionDescriptor := .object
  (fun d => [field (ascii "graph_id") .text d.graphID,
    field (ascii "graph_revision") .text d.graphRevision,
    field (ascii "state_codec") .text d.stateCodec,
    field (ascii "effects_codec") .text d.effectsCodec,
    field (ascii "execution_contract") .text d.executionContract,
    field (ascii "replay_policy") StepReplayPolicy.codec d.replayPolicy])
  (fun d => ⟨Codec.text.reread d.graphID,Codec.text.reread d.graphRevision,
    Codec.text.reread d.stateCodec,Codec.text.reread d.effectsCodec,
    Codec.text.reread d.executionContract,StepReplayPolicy.codec.reread d.replayPolicy⟩)
  (by
    rintro ⟨a,b,c,d,e,f⟩ h
    simp only [List.all_cons,ok_field,Bool.and_eq_true] at h
    simp [Codec.fixed,h])
  (by simp)

def WaitCapabilityProfile.codec : Codec WaitCapabilityProfile := .object
  (fun x => [field (ascii "label") .text x.label,field (ascii "journal_owner") .text x.journalOwner,
    field (ascii "lease_owner") .text x.leaseOwner,field (ascii "timer_owner") .text x.timerOwner,
    field (ascii "clock_owner") .text x.clockOwner,field (ascii "retry_owner") .text x.retryOwner,
    field (ascii "recovery_owner") .text x.recoveryOwner])
  (fun x => ⟨Codec.text.reread x.label,Codec.text.reread x.journalOwner,
    Codec.text.reread x.leaseOwner,Codec.text.reread x.timerOwner,Codec.text.reread x.clockOwner,
    Codec.text.reread x.retryOwner,Codec.text.reread x.recoveryOwner⟩)
  (by
    rintro ⟨a,b,c,d,e,f,g⟩ h
    simp only [List.all_cons,ok_field,Bool.and_eq_true] at h
    simp [Codec.fixed,h])
  (by simp)

def ExecutionProgress.codec : Codec ExecutionProgress := .object
  (fun x => [field (ascii "state_payload") payloadCodec x.statePayload,
    field (ascii "execution_pointer") .text x.executionPointer,
    omitting GoMap.isEmpty (ascii "child_cursors") (Codec.map .text) x.childCursors,
    omitting GoMap.isEmpty (ascii "journal_references") (Codec.map .text) x.journalReferences,
    omitting GoMap.isEmpty (ascii "child_group_references") (Codec.map .text) x.childGroupReferences])
  (fun x => ⟨payloadCodec.reread x.statePayload,Codec.text.reread x.executionPointer,
    (Codec.map .text).reread x.childCursors,(Codec.map .text).reread x.journalReferences,
    (Codec.map .text).reread x.childGroupReferences⟩)
  (by
    rintro ⟨a,b,c,d,e⟩ h
    simp only [List.all_cons,ok_field,Bool.and_eq_true] at h
    simp [Codec.fixed,h,omitting_map_fixed h.2.2.1,omitting_map_fixed h.2.2.2.1,
      omitting_map_fixed h.2.2.2.2.1])
  (by simp)

def SegmentInfo.codec : Codec SegmentInfo := .object
  (fun x => [field (ascii "segment_id") .text x.segmentID,
    field (ascii "start_time") timeCodec x.startTime,field (ascii "end_time") timeCodec x.endTime,
    omitting (· == .unset) (ascii "end_reason") segmentEndReasonCodec x.endReason])
  (fun x => ⟨Codec.text.reread x.segmentID,timeCodec.reread x.startTime,timeCodec.reread x.endTime,
    x.endReason⟩)
  (by
    rintro ⟨a,b,c,d⟩ h
    simp only [List.all_cons,ok_field,Bool.and_eq_true] at h
    simp [Codec.fixed,h])
  (by simp [segmentEndReasonCodec])

def RunMetadata.codec : Codec RunMetadata := .object
  (fun x => [field (ascii "segment") SegmentInfo.codec x.segment,
    field (ascii "segment_start_time") timeCodec x.segmentStartTime,
    field (ascii "retry_counts") (Codec.map intCodec) x.retryCounts,
    omitting GoMap.isEmpty (ascii "budget_counts") (Codec.map intCodec) x.budgetCounts,
    field (ascii "step_count") natCodec x.stepCount,
    omitting GoMap.isEmpty (ascii "telemetry_context") (Codec.map .text) x.telemetryContext,
    omitting (· == .none) (ascii "handoff_status") handoffStatusCodec x.handoffStatus,
    omitting Time.isZero (ascii "handoff_pending_at") timeCodec x.handoffPendingAt])
  (fun x => ⟨SegmentInfo.codec.reread x.segment,timeCodec.reread x.segmentStartTime,
    (Codec.map intCodec).reread x.retryCounts,(Codec.map intCodec).reread x.budgetCounts,
    natCodec.reread x.stepCount,(Codec.map .text).reread x.telemetryContext,x.handoffStatus,
    x.handoffPendingAt⟩)
  (by
    rintro ⟨a,b,c,d,e,f,g,h⟩ h
    simp only [List.all_cons,ok_field,Bool.and_eq_true] at h
    simp [Codec.fixed,h,omitting_map_fixed h.2.2.2.1,omitting_map_fixed h.2.2.2.2.2.1])
  (by simp [handoffStatusCodec,timeCodec])

def ExecutionFailure.codec : Codec ExecutionFailure := .object
  (fun x => [field (ascii "message") .text x.message])
  (fun x => ⟨Codec.text.reread x.message⟩)
  (by
    rintro ⟨a⟩ h
    simp only [List.all_cons,ok_field,Bool.and_eq_true] at h
    simp [Codec.fixed,h])
  (by simp)

def ExecutionTerminal.codec : Codec ExecutionTerminal := .object
  (fun x => [field (ascii "status") runStatusCodec x.status,field (ascii "reason") .text x.reason,
    optional (ascii "failure") ExecutionFailure.codec x.failure])
  (fun x => ⟨runStatusCodec.reread x.status,Codec.text.reread x.reason,
    x.failure.map ExecutionFailure.codec.reread⟩)
  (by
    rintro ⟨a,b,c⟩ h
    simp only [List.all_cons,ok_field,Bool.and_eq_true] at h
    simp [Codec.fixed,h,optional_fixed h.2.2.1])
  (by simp)

def MigrationProvenance.codec : Codec MigrationProvenance := .object
  (fun x => [field (ascii "source_revision") natCodec x.sourceRevision,
    field (ascii "source_digest") .text x.sourceDigest,
    field (ascii "chain") (Codec.list .text) x.chain])
  (fun x => ⟨natCodec.reread x.sourceRevision,Codec.text.reread x.sourceDigest,
    (Codec.list .text).reread x.chain⟩)
  (by
    rintro ⟨a,b,c⟩ h
    simp only [List.all_cons,ok_field,Bool.and_eq_true] at h
    simp [Codec.fixed,h])
  (by simp)

def LegacyExecutionSource.codec : Codec LegacyExecutionSource := .object
  (fun x => [field (ascii "id") .text x.id,field (ascii "revision") natCodec x.revision,
    field (ascii "format") .text x.format,field (ascii "digest") .text x.digest,
    field (ascii "payload") payloadCodec x.payload])
  (fun x => ⟨Codec.text.reread x.id,natCodec.reread x.revision,Codec.text.reread x.format,
    Codec.text.reread x.digest,payloadCodec.reread x.payload⟩)
  (by
    rintro ⟨a,b,c,d,e⟩ h
    simp only [List.all_cons,ok_field,Bool.and_eq_true] at h
    simp [Codec.fixed,h])
  (by simp)

def ImportProvenance.codec : Codec ImportProvenance := .object
  (fun x => [field (ascii "source") LegacyExecutionSource.codec x.source,
    field (ascii "importer_id") .text x.importerID])
  (fun x => ⟨LegacyExecutionSource.codec.reread x.source,Codec.text.reread x.importerID⟩)
  (by
    rintro ⟨a,b⟩ h
    simp only [List.all_cons,ok_field,Bool.and_eq_true] at h
    simp [Codec.fixed,h])
  (by simp)

def HistoricalCheckpointReference.codec : Codec HistoricalCheckpointReference := .object
  (fun x => [field (ascii "execution_id") .text x.executionID,
    field (ascii "revision") natCodec x.revision,field (ascii "digest") .text x.digest])
  (fun x => ⟨Codec.text.reread x.executionID,natCodec.reread x.revision,Codec.text.reread x.digest⟩)
  (by
    rintro ⟨a,b,c⟩ h
    simp only [List.all_cons,ok_field,Bool.and_eq_true] at h
    simp [Codec.fixed,h])
  (by simp)

def RolloverPolicy.codec : Codec RolloverPolicy := .object
  (fun x => [field (ascii "label") .text x.label,field (ascii "max_records") intCodec x.maxRecords,
    field (ascii "max_aggregate_bytes") intCodec x.maxAggregateBytes,
    field (ascii "max_target_bytes") intCodec x.maxTargetBytes])
  (fun x => ⟨Codec.text.reread x.label,intCodec.reread x.maxRecords,
    intCodec.reread x.maxAggregateBytes,intCodec.reread x.maxTargetBytes⟩)
  (by
    rintro ⟨a,b,c,d⟩ h
    simp only [List.all_cons,ok_field,Bool.and_eq_true] at h
    simp [Codec.fixed,h])
  (by simp)

def RolloverLineage.codec : Codec RolloverLineage := .object
  (fun x => [field (ascii "source") HistoricalCheckpointReference.codec x.source,
    field (ascii "source_descriptor") ExecutionDescriptor.codec x.sourceDescriptor,
    field (ascii "target_descriptor") ExecutionDescriptor.codec x.targetDescriptor,
    field (ascii "target_id") .text x.targetID,field (ascii "decision_id") .text x.decisionID,
    field (ascii "policy") RolloverPolicy.codec x.policy,
    field (ascii "projection_label") .text x.projectionLabel,
    field (ascii "request_digest") .text x.requestDigest,
    field (ascii "created_at") timeCodec x.createdAt])
  (fun x => ⟨HistoricalCheckpointReference.codec.reread x.source,
    ExecutionDescriptor.codec.reread x.sourceDescriptor,
    ExecutionDescriptor.codec.reread x.targetDescriptor,Codec.text.reread x.targetID,
    Codec.text.reread x.decisionID,RolloverPolicy.codec.reread x.policy,
    Codec.text.reread x.projectionLabel,Codec.text.reread x.requestDigest,
    timeCodec.reread x.createdAt⟩)
  (by
    rintro ⟨a,b,c,d,e,f,g,h,i⟩ h
    simp only [List.all_cons,ok_field,Bool.and_eq_true] at h
    simp [Codec.fixed,h])
  (by simp)

def RolloverReceipt.codec : Codec RolloverReceipt := .object
  (fun x => [field (ascii "lineage") RolloverLineage.codec x.lineage,
    field (ascii "target") HistoricalCheckpointReference.codec x.target,
    field (ascii "source_revision") natCodec x.sourceRevision])
  (fun x => ⟨RolloverLineage.codec.reread x.lineage,
    HistoricalCheckpointReference.codec.reread x.target,natCodec.reread x.sourceRevision⟩)
  (by
    rintro ⟨a,b,c⟩ h
    simp only [List.all_cons,ok_field,Bool.and_eq_true] at h
    simp [Codec.fixed,h])
  (by simp)

def ForkLineage.codec : Codec ForkLineage := .object
  (fun x => [field (ascii "source") HistoricalCheckpointReference.codec x.source,
    field (ascii "source_descriptor") ExecutionDescriptor.codec x.sourceDescriptor,
    field (ascii "target_descriptor") ExecutionDescriptor.codec x.targetDescriptor,
    field (ascii "target_id") .text x.targetID,field (ascii "mode") forkActivityModeCodec x.mode,
    field (ascii "policy_label") .text x.policyLabel,
    field (ascii "transform_label") .text x.transformLabel,
    omitting List.isEmpty (ascii "projection_label") .text x.projectionLabel,
    field (ascii "created_at") timeCodec x.createdAt])
  (fun x => ⟨HistoricalCheckpointReference.codec.reread x.source,
    ExecutionDescriptor.codec.reread x.sourceDescriptor,
    ExecutionDescriptor.codec.reread x.targetDescriptor,Codec.text.reread x.targetID,
    forkActivityModeCodec.reread x.mode,Codec.text.reread x.policyLabel,
    Codec.text.reread x.transformLabel,Codec.text.reread x.projectionLabel,
    timeCodec.reread x.createdAt⟩)
  (by
    rintro ⟨a,b,c,d,e,f,g,h,i⟩ h
    simp only [List.all_cons,ok_field,Bool.and_eq_true] at h
    simp [Codec.fixed,h,omitting_text_fixed h.2.2.2.2.2.2.2.1])
  (by simp)

/-- The envelope as storage sees it, and the envelope with its digest. -/
abbrev RawEnvelope := ExecutionEnvelope Bytes Bytes Bytes

structure SealedEnvelope where
  envelope : RawEnvelope
  digest : Text
deriving DecidableEq

def SealedEnvelope.codec : Codec SealedEnvelope := .object
  (fun x => [field (ascii "execution_id") .text x.envelope.executionID,
    field (ascii "revision") natCodec x.envelope.revision,
    field (ascii "digest") .text x.digest,
    field (ascii "descriptor") ExecutionDescriptor.codec x.envelope.descriptor,
    optional (ascii "runtime_profile") WaitCapabilityProfile.codec x.envelope.runtimeProfile,
    field (ascii "progress") ExecutionProgress.codec x.envelope.progress,
    omitting List.isEmpty (ascii "effects_payload") payloadCodec x.envelope.effectsPayload,
    omitting List.isEmpty (ascii "journal_payload") payloadCodec x.envelope.journal,
    omitting List.isEmpty (ascii "children_payload") payloadCodec x.envelope.children,
    omitting List.isEmpty (ascii "waits_payload") payloadCodec x.envelope.waits,
    field (ascii "run_meta") RunMetadata.codec x.envelope.runMeta,
    field (ascii "activation") natCodec x.envelope.activation,
    optional (ascii "terminal") ExecutionTerminal.codec x.envelope.terminal,
    optional (ascii "migration") MigrationProvenance.codec x.envelope.migration,
    optional (ascii "import") ImportProvenance.codec x.envelope.importProvenance,
    optional (ascii "rollover") RolloverLineage.codec x.envelope.rollover,
    optional (ascii "transfer") RolloverReceipt.codec x.envelope.transfer,
    optional (ascii "fork") ForkLineage.codec x.envelope.fork])
  (fun x => ⟨⟨Codec.text.reread x.envelope.executionID,natCodec.reread x.envelope.revision,
    ExecutionDescriptor.codec.reread x.envelope.descriptor,
    x.envelope.runtimeProfile.map WaitCapabilityProfile.codec.reread,
    ExecutionProgress.codec.reread x.envelope.progress,x.envelope.effectsPayload,x.envelope.journal,
    x.envelope.children,x.envelope.waits,RunMetadata.codec.reread x.envelope.runMeta,
    natCodec.reread x.envelope.activation,x.envelope.terminal.map ExecutionTerminal.codec.reread,
    x.envelope.migration.map MigrationProvenance.codec.reread,
    x.envelope.importProvenance.map ImportProvenance.codec.reread,
    x.envelope.rollover.map RolloverLineage.codec.reread,
    x.envelope.transfer.map RolloverReceipt.codec.reread,
    x.envelope.fork.map ForkLineage.codec.reread⟩,Codec.text.reread x.digest⟩)
  (by
    rintro ⟨⟨a,b,c,d,e,f,g,i,j,k,l,m,n,o,p,q,r⟩,s⟩ h
    simp only [List.all_cons,ok_field,Bool.and_eq_true] at h
    obtain ⟨ha,hb,hs,hc,hd,he,-,-,-,-,hk,hl,hm,hn,ho,hp,hq,hr,-⟩ := h
    simp [Codec.fixed,ha,hb,hc,he,hk,hl,hs,optional_fixed hd,optional_fixed hm,optional_fixed hn,
      optional_fixed ho,optional_fixed hp,optional_fixed hq,optional_fixed hr])
  (by simp [payloadCodec])

end Flowy
