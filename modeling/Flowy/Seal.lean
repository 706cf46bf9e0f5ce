import Flowy.Encoding
import Flowy.Lib.JsonSpelling

/-! The seal: a digest over the JSON text of the envelope, checked again on every load. -/
namespace Flowy

open Json

def RolloverLineage.marshals (l : RolloverLineage) : Bool := l.createdAt.marshals

def RawEnvelope.marshals (e : RawEnvelope) : Bool :=
  e.runMeta.segment.startTime.marshals && e.runMeta.segment.endTime.marshals &&
    e.runMeta.segmentStartTime.marshals && e.runMeta.handoffPendingAt.marshals &&
    (e.rollover.all fun l => l.marshals) && (e.transfer.all fun t => t.lineage.marshals) &&
    e.fork.all fun f => f.createdAt.marshals

def marshalError : Err := ⟨ascii "Time.MarshalJSON: year outside of range [0,9999]",[]⟩

/-- `json.Unmarshal` of the text of `x`. -/
def SealedEnvelope.reread (x : SealedEnvelope) : SealedEnvelope := SealedEnvelope.codec.reread x

/-- The digest of a seal and the encoder of the text that it is taken of. -/
class Sealing extends Sha256 where
  spelling : Spelling

@[reducible] def Sealing.hexAs (sp : Spelling) : Sealing := { Sha256.hex with spelling := sp }

-- Go 1.27 has the raw spelling, and the escape when it is built without its second JSON package.
@[reducible] def Sealing.hex : Sealing := .hexAs .raw

section Digest

variable [Sealing]

def SealedEnvelope.text (x : SealedEnvelope) : Bytes :=
  Sealing.spelling.render (SealedEnvelope.codec.tokens x)

/-- `json.Marshal`. -/
def SealedEnvelope.marshal (x : SealedEnvelope) : Result Bytes :=
  if RawEnvelope.marshals x.envelope then .ok x.text else .error marshalError

def envelopeDigest (x : SealedEnvelope) : Result Text := do
  let data ← { x with digest := [] }.marshal
  .ok (Sha256.sum data)

/-- Storage has assigned the revision when it calls this. -/
def sealExecutionEnvelope (e : RawEnvelope) : Result SealedEnvelope := do
  require (!(e.executionID == [] || e.revision == 0 || e.progress.executionPointer == [] ||
    !validRuntimeText [e.executionID] || !validMigrationText e.progress)) .executionCorrupt
  let digest ← envelopeDigest ⟨e,[]⟩
  .ok ⟨e,digest⟩

def validateExecutionIntegrity (x : SealedEnvelope) (id : Text) (revision : Nat) : Result Unit := do
  require (!(id == [] || revision == 0 || x.envelope.executionID != id ||
    x.envelope.revision != revision || !validRuntimeText [id] ||
    !validMigrationText x.envelope.progress || x.envelope.progress.executionPointer == [] ||
    x.digest == [])) .executionCorrupt
  let digest ← envelopeDigest x
  require (digest == x.digest) .executionCorrupt

end Digest

/-- Every string the envelope is written with is well-formed UTF-8, keys of maps included. -/
def RawEnvelope.wellFormedText (e : RawEnvelope) : Bool :=
  wellFormed (SealedEnvelope.codec.tokens ⟨e,[]⟩)

def RawEnvelope.keysKept (e : RawEnvelope) : Bool :=
  Json.keysKept e.progress.childCursors && Json.keysKept e.progress.journalReferences &&
    Json.keysKept e.progress.childGroupReferences && Json.keysKept e.runMeta.retryCounts &&
    Json.keysKept e.runMeta.budgetCounts && Json.keysKept e.runMeta.telemetryContext

/-- What the encoder asks of an envelope that is to be written twice. -/
def RawEnvelope.stable [Sealing] (e : RawEnvelope) : Bool :=
  match Sealing.spelling with
  | .escape => RawEnvelope.wellFormedText e
  | .raw => RawEnvelope.keysKept e

section Spelling

attribute [local simp] field_reread optional_reread omitting_text_reread

instance : payloadCodec.Plain := ⟨fun _ => rfl⟩
instance : natCodec.Plain := ⟨fun _ => rfl⟩
instance : intCodec.Plain := ⟨fun _ => rfl⟩
instance : timeCodec.Plain := ⟨fun _ => rfl⟩
instance : stepReplayModeCodec.Plain := ⟨fun _ => rfl⟩
instance : segmentEndReasonCodec.Plain := ⟨fun _ => rfl⟩
instance : runStatusCodec.Plain := ⟨fun _ => rfl⟩
instance : forkActivityModeCodec.Plain := ⟨fun _ => rfl⟩
instance : StepReplayPolicy.codec.Plain := .object (by simp)
instance : ExecutionDescriptor.codec.Plain := .object (by simp)
instance : WaitCapabilityProfile.codec.Plain := .object (by simp)
instance : SegmentInfo.codec.Plain := .object fun x => by
  have hreason := omitting_literal_reread (· == .unset) (ascii "end_reason")
    (fun r => quoted (SegmentEndReason.text r)) x.endReason
  simpa [segmentEndReasonCodec] using hreason
instance : ExecutionFailure.codec.Plain := .object (by simp)
instance : ExecutionTerminal.codec.Plain := .object (by simp)
instance : MigrationProvenance.codec.Plain := .object (by simp)
instance : LegacyExecutionSource.codec.Plain := .object (by simp)
instance : ImportProvenance.codec.Plain := .object (by simp)
instance : HistoricalCheckpointReference.codec.Plain := .object (by simp)
instance : RolloverPolicy.codec.Plain := .object (by simp)
instance : RolloverLineage.codec.Plain := .object (by simp)
instance : RolloverReceipt.codec.Plain := .object (by simp)
instance : ForkLineage.codec.Plain := .object (by simp)

theorem textMap_respelled (m : GoMap Text Text) :
    Respelled (Json.keysKept m) (mapTokens .text (rereadMap .text m)) (mapTokens .text m) :=
  mapTokens_respelled .text delimited_text Utf8.valid_coerce m

theorem intMap_respelled (m : GoMap Text Int) :
    Respelled (Json.keysKept m) (mapTokens intCodec (rereadMap intCodec m)) (mapTokens intCodec m) := by
  have hdelimited : Delimited intCodec fun _ => True :=
    delimited_literal (fun _ _ => intText_injective) intText_numeric (by unfold numeric; decide)
      (by unfold numeric; decide)
  exact mapTokens_respelled intCodec hdelimited (fun _ => trivial) m

theorem ExecutionProgress.respelled (p : ExecutionProgress) :
    Respelled (Json.keysKept p.childCursors && (Json.keysKept p.journalReferences &&
        (Json.keysKept p.childGroupReferences && true)))
      (ExecutionProgress.codec.tokens (ExecutionProgress.codec.reread p))
      (ExecutionProgress.codec.tokens p) := by
  refine MembersRespelled.object ?_
  refine .plain (field_reread _ _ _) (.plain (field_reread _ _ _) ?_)
  exact .omittingMap (textMap_respelled _) (.omittingMap (textMap_respelled _)
    (.omittingMap (textMap_respelled _) .nil))

theorem RunMetadata.respelled (m : RunMetadata) :
    Respelled (Json.keysKept m.retryCounts && (Json.keysKept m.budgetCounts &&
        (Json.keysKept m.telemetryContext && true)))
      (RunMetadata.codec.tokens (RunMetadata.codec.reread m)) (RunMetadata.codec.tokens m) := by
  refine MembersRespelled.object ?_
  refine .plain (field_reread _ _ _) (.plain (field_reread _ _ _) ?_)
  refine .field (c := Codec.map intCodec) (intMap_respelled _) (.omittingMap (intMap_respelled _) ?_)
  refine .plain (field_reread _ _ _) (.omittingMap (textMap_respelled _) ?_)
  exact .plain (omitting_literal_reread _ _ _ _) (.plain (omitting_literal_reread _ _ _ _) .nil)

theorem SealedEnvelope.respelled (e : RawEnvelope) :
    Respelled (RawEnvelope.keysKept e)
      (SealedEnvelope.codec.tokens (SealedEnvelope.reread ⟨e,[]⟩)) (SealedEnvelope.codec.tokens ⟨e,[]⟩) := by
  have hkept : RawEnvelope.keysKept e =
      ((Json.keysKept e.progress.childCursors && (Json.keysKept e.progress.journalReferences &&
        (Json.keysKept e.progress.childGroupReferences && true))) &&
      ((Json.keysKept e.runMeta.retryCounts && (Json.keysKept e.runMeta.budgetCounts &&
        (Json.keysKept e.runMeta.telemetryContext && true))) && true)) := by
    simp only [RawEnvelope.keysKept,Bool.and_true,Bool.and_assoc]
  rw [hkept]
  refine MembersRespelled.object ?_
  refine .plain (field_reread _ _ _) (.plain (field_reread _ _ _) (.plain (field_reread _ _ _) ?_))
  refine .plain (field_reread _ _ _) (.plain (optional_reread _ _ _) (.field e.progress.respelled ?_))
  refine .plain (omitting_literal_reread _ _ _ _) (.plain (omitting_literal_reread _ _ _ _) ?_)
  refine .plain (omitting_literal_reread _ _ _ _) (.plain (omitting_literal_reread _ _ _ _) ?_)
  refine .field e.runMeta.respelled (.plain (field_reread _ _ _) (.plain (optional_reread _ _ _) ?_))
  refine .plain (optional_reread _ _ _) (.plain (optional_reread _ _ _) (.plain (optional_reread _ _ _) ?_))
  exact .plain (optional_reread _ _ _) (.plain (optional_reread _ _ _) .nil)

end Spelling

theorem marshals_reread (x : SealedEnvelope) :
    RawEnvelope.marshals x.reread.envelope = RawEnvelope.marshals x.envelope := by
  simp only [RawEnvelope.marshals,SealedEnvelope.reread,SealedEnvelope.codec,Codec.object,Option.all_map]
  rfl

/-- Progress passes the seal only if its texts read back unchanged. -/
theorem progress_reread {p : ExecutionProgress} (h : validMigrationText p = true) :
    ExecutionProgress.codec.reread p = p := by
  have hmap : ∀ m : GoMap Text Text, (m.all fun key v => validRuntimeText [key,v]) = true →
      (Codec.map .text).reread m = m := by
    intro m hm
    refine rereadMap_fixed _ m ?_
    rw [wellFormed_mapTokens,List.all_eq_true]
    intro e he
    have hv := List.all_eq_true.mp hm e he
    simp only [validRuntimeText,List.all_cons,List.all_nil,Bool.and_true,Bool.and_eq_true] at hv
    simp [entryTokens,Codec.text,Token.valid,hv]
  simp only [validMigrationText,Bool.and_eq_true] at h
  obtain ⟨⟨⟨hp,hc⟩,hj⟩,hg⟩ := h
  have hptr : Codec.text.reread p.executionPointer = p.executionPointer :=
    Utf8.coerce_of_valid (by simpa [validRuntimeText] using hp)
  obtain ⟨a,b,c,d,e⟩ := p
  simp only [ExecutionProgress.codec,Codec.object,hmap c hc,hmap d hj,hmap e hg,hptr]
  rfl

section RoundTrip

variable [Sealing] {e : RawEnvelope} {x : SealedEnvelope}

structure SealFacts (e : RawEnvelope) (x : SealedEnvelope) : Prop where
  envelope : x.envelope = e
  named : e.executionID ≠ []
  revised : e.revision ≠ 0
  pointed : e.progress.executionPointer ≠ []
  text : Utf8.valid e.executionID = true
  progress : validMigrationText e.progress = true
  marshals : RawEnvelope.marshals e = true
  digest : x.digest = Sha256.sum (SealedEnvelope.text ⟨e,[]⟩)

theorem sealExecutionEnvelope_eq_ok (h : sealExecutionEnvelope e = .ok x) : SealFacts e x := by
  simp only [sealExecutionEnvelope,envelopeDigest,bind_eq_ok,require_eq_ok,exists_const,
    Except.ok.injEq,SealedEnvelope.marshal] at h
  obtain ⟨hc,digest,⟨data,hdata,rfl⟩,rfl⟩ := h
  simp only [validRuntimeText,List.all_cons,List.all_nil,Bool.and_true,Bool.not_eq_true',
    Bool.or_eq_false_iff,beq_eq_false_iff_ne,ne_eq,Bool.not_eq_false'] at hc
  obtain ⟨⟨⟨⟨h1,h2⟩,h3⟩,h4⟩,h5⟩ := hc
  split at hdata
  · rename_i hm
    cases hdata
    exact ⟨rfl,h1,h2,h3,h4,h5,hm,rfl⟩
  · cases hdata

theorem validateExecutionIntegrity_address {id : Text} {revision : Nat}
    (h : validateExecutionIntegrity x id revision = .ok ()) :
    x.envelope.executionID = id ∧ x.envelope.revision = revision := by
  simp only [validateExecutionIntegrity,bind_eq_ok,require_eq_ok,exists_const,Bool.not_eq_true',
    Bool.or_eq_false_iff,bne_eq_false_iff_eq] at h
  obtain ⟨⟨⟨⟨⟨⟨⟨⟨-,-⟩,hid⟩,hrev⟩,-⟩,-⟩,-⟩,-⟩,-⟩ := h
  exact ⟨hid,hrev⟩

theorem SealFacts.reread_digest (h : SealFacts e x) : x.reread.digest = x.digest := by
  change Utf8.coerce x.digest = x.digest
  rw [h.digest]
  exact Utf8.coerce_of_valid (Sha256.valid_sum _)

theorem SealFacts.reread_executionID (h : SealFacts e x) : x.reread.envelope.executionID = e.executionID := by
  change Utf8.coerce x.envelope.executionID = e.executionID
  rw [h.envelope]
  exact Utf8.coerce_of_valid h.text

theorem SealFacts.reread_progress (h : SealFacts e x) : x.reread.envelope.progress = e.progress := by
  change ExecutionProgress.codec.reread x.envelope.progress = e.progress
  rw [h.envelope]
  exact progress_reread h.progress

theorem SealFacts.reread_revision (h : SealFacts e x) : x.reread.envelope.revision = e.revision := by
  change x.envelope.revision = e.revision
  rw [h.envelope]

theorem SealFacts.envelopeDigest_reread (h : SealFacts e x) :
    envelopeDigest x.reread =
      .ok (Sha256.sum (SealedEnvelope.reread ⟨e,[]⟩).text) := by
  have hreset : ({ x.reread with digest := [] } : SealedEnvelope) = SealedEnvelope.reread ⟨e,[]⟩ := by
    obtain ⟨e',d⟩ := x
    obtain rfl : e' = e := h.envelope
    rfl
  have hm : RawEnvelope.marshals x.reread.envelope = true := by
    rw [marshals_reread,h.envelope]
    exact h.marshals
  simp only [envelopeDigest,hreset,SealedEnvelope.marshal,hm,if_true]
  rfl

theorem text_reread_iff (e : RawEnvelope) :
    (SealedEnvelope.reread ⟨e,[]⟩).text = SealedEnvelope.text ⟨e,[]⟩ ↔ RawEnvelope.stable e = true := by
  unfold SealedEnvelope.text RawEnvelope.stable
  cases Sealing.spelling with
  | escape =>
    rw [Spelling.render_escape,Spelling.render_escape]
    exact SealedEnvelope.codec.render_reread_iff _
  | raw => exact (SealedEnvelope.respelled e).render_iff

theorem stable_of_wellFormedText (h : RawEnvelope.wellFormedText e = true) : RawEnvelope.stable e = true := by
  have hfixed : SealedEnvelope.reread ⟨e,[]⟩ = ⟨e,[]⟩ := SealedEnvelope.codec.fixed _ h
  exact (text_reread_iff e).mp (congrArg SealedEnvelope.text hfixed)

/-- A sealed envelope passes its integrity check after a round trip exactly when it is stable: another
text has another digest. -/
theorem SealFacts.integrity_reread (h : SealFacts e x) :
    validateExecutionIntegrity x.reread e.executionID e.revision =
      require (RawEnvelope.stable e) .executionCorrupt := by
  have hdigest : x.digest ≠ [] := by
    rw [h.digest]
    exact Sha256.sum_ne_nil _
  have hguard : (!(e.executionID == [] || e.revision == 0 || e.executionID != e.executionID ||
      e.revision != e.revision || !validRuntimeText [e.executionID] ||
      !validMigrationText e.progress || e.progress.executionPointer == [] || x.digest == [])) = true := by
    simp [h.named,h.revised,h.pointed,h.text,h.progress,hdigest,validRuntimeText]
  have hsame : (Sha256.sum (SealedEnvelope.reread ⟨e,[]⟩).text == x.digest) = RawEnvelope.stable e := by
    rw [h.digest,Bool.eq_iff_iff,beq_iff_eq,Sha256.injective.eq_iff]
    exact text_reread_iff e
  simp only [validateExecutionIntegrity,h.reread_executionID,h.reread_revision,h.reread_progress,
    h.reread_digest,h.envelopeDigest_reread,hguard,require,if_true]
  exact congrArg (fun b => if b then .ok () else fail .executionCorrupt) hsame

end RoundTrip
end Flowy
