import Flowy.Anchors
import Flowy.Payloads
import Flowy.Wait.Delivery
import Flowy.Store.Postgres

/-! Due work of an execution: what discovery derives from a head, and the rows that keep it. -/
namespace Flowy.Postgres

open Json

inductive CandidateKind
  | wait | retry
deriving DecidableEq, Repr

structure DueCandidate where
  executionID : Text
  revision : Nat
  identity : Text
  profileDigest : Text
  kind : CandidateKind
  deadline : Time
deriving DecidableEq, Repr

abbrev CandidateKey := Text × CandidateKind × Text

def DueCandidate.key (c : DueCandidate) : CandidateKey := (c.executionID,c.kind,c.identity)

/-- `t.Truncate(time.Microsecond)`, which is also what a `TIMESTAMPTZ` parameter keeps. -/
def truncateMicroseconds (t : Time) : Time := ⟨t.ns - t.ns % 1000⟩

/-- Derived deadlines are rounded up. -/
def discoveryDeadline (deadline : Time) : Time :=
  let rounded := truncateMicroseconds deadline
  if rounded.before deadline then rounded.add 1000 else rounded

structure PendingActivityRetry where
  identity : Text
  node : ExecutionPointer
  activation : Nat
  resumeToken : ResumeToken
  descriptor : ExecutionDescriptor
  policy : ActivityRetryPolicy
  attempts : Nat
  deadline : Time
deriving DecidableEq, Repr

def retryPending (e : RawEnvelope) (record : ActivityRecord) : Bool :=
  record.activation == e.activation && record.state == .prepared && !record.attempts.isEmpty &&
    !record.nextAttemptAt.isZero && decide ((record.attempts.length : Int) < record.retry.maxAttempts) &&
    record.retry.safeRetryContract != []

def pendingRetry (e : RawEnvelope) (identity : Text) (record : ActivityRecord) : PendingActivityRetry :=
  ⟨identity,e.progress.executionPointer,e.activation,⟨e.executionID,e.revision⟩,e.descriptor,record.retry,
    record.attempts.length,record.nextAttemptAt⟩

section Inspection

variable [Sealing] (payloads : PayloadCodec)

def discoveryProfileDigest (profile : WaitCapabilityProfile) : Text :=
  Sha256.sum (render (WaitCapabilityProfile.codec.tokens profile))

def inspectExecutionWaits (x : SealedEnvelope) : Result (List DurableWaitRecord) := do
  validateExecutionIntegrity x x.envelope.executionID x.envelope.revision
  let waits ← payloads.validateExecutionCollectionsWithWaits x.envelope
  .ok ((sortedEntries waits).map fun e => e.2)

def inspectPendingActivityRetries (x : SealedEnvelope) : Result (List PendingActivityRetry) := do
  validateExecutionIntegrity x x.envelope.executionID x.envelope.revision
  x.envelope.descriptor.validate
  payloads.validateExecutionCollections x.envelope
  validateExecutionSourceMetadata x.envelope
  if x.envelope.terminal.isSome then .ok []
  else do
    let decoded ← payloads.readJournal x.envelope.journal
    let journal ← executionActivityJournal (RawEnvelope.withJournal x.envelope decoded)
    .ok (((sortedEntries journal).filter fun e => retryPending x.envelope e.2).map fun e =>
      pendingRetry x.envelope e.1 e.2)

def waitCandidate (e : RawEnvelope) (profile : WaitCapabilityProfile) (wait : DurableWaitRecord) :
    DueCandidate :=
  ⟨e.executionID,e.revision,wait.generation,discoveryProfileDigest profile,.wait,
    discoveryDeadline wait.spec.deadline⟩

def retryCandidate (e : RawEnvelope) (profile : WaitCapabilityProfile) (retry : PendingActivityRetry) :
    DueCandidate :=
  ⟨e.executionID,e.revision,retry.identity,discoveryProfileDigest profile,.retry,
    discoveryDeadline retry.deadline⟩

/-- Finished executions and those without a wait backend have no due work. -/
def executionCandidates (x : SealedEnvelope) : Result (List DueCandidate) :=
  match x.envelope.terminal, x.envelope.runtimeProfile with
  | none, some profile => do
    let waits ← inspectExecutionWaits payloads x
    let retries ← inspectPendingActivityRetries payloads x
    .ok ((waits.filter fun w => w.state == .armed).map (waitCandidate x.envelope profile) ++
      retries.map (retryCandidate x.envelope profile))
  | _, _ => .ok []

variable {payloads}

theorem executionCandidates_address {x : SealedEnvelope} {cs : List DueCandidate}
    (h : executionCandidates payloads x = .ok cs) {c : DueCandidate} (hc : c ∈ cs) :
    c.executionID = x.envelope.executionID ∧ c.revision = x.envelope.revision := by
  unfold executionCandidates at h
  split at h
  · simp only [bind_eq_ok,Except.ok.injEq] at h
    obtain ⟨waits,-,retries,-,rfl⟩ := h
    rcases List.mem_append.mp hc with hc | hc
    · obtain ⟨w,-,rfl⟩ := List.mem_map.mp hc
      exact ⟨rfl,rfl⟩
    · obtain ⟨r,-,rfl⟩ := List.mem_map.mp hc
      exact ⟨rfl,rfl⟩
  · cases h
    cases hc

/-- The metadata of a running execution reads back as it was, except for provenance that is only
checked not to be empty. -/
theorem reread_running {x : SealedEnvelope} {profile : WaitCapabilityProfile}
    (hx : SealFacts x.envelope x) (hterminal : x.envelope.terminal = none)
    (hprofile : x.envelope.runtimeProfile = some profile) (hvalid : profile.validate = .ok ())
    (hdescriptor : x.envelope.descriptor.validate = .ok ())
    (hmeta : validateExecutionSourceMetadata x.envelope = .ok ()) :
    ∃ m g p, x.reread.envelope = { x.envelope with runMeta := m, migration := g, importProvenance := p } ∧
      (p.all fun q : ImportProvenance => q.importerID != [] && q.source.validate.isOk) = true := by
  simp only [validateExecutionSourceMetadata,bind_eq_ok,require_eq_ok,exists_const,Option.all_eq_true,
    Bool.and_eq_true,isOk_iff] at hmeta
  obtain ⟨hrollover,htransfer,-,hfork,himport,-⟩ := hmeta
  have hid : Codec.text.reread x.envelope.executionID = x.envelope.executionID := text_reread hx.text
  have hd := ExecutionDescriptor.reread_of_valid hdescriptor
  have hp : x.envelope.runtimeProfile.map WaitCapabilityProfile.codec.reread = x.envelope.runtimeProfile := by
    rw [hprofile,Option.map_some,WaitCapabilityProfile.reread_of_valid hvalid]
  have hpr := progress_reread hx.progress
  have ht : x.envelope.terminal.map ExecutionTerminal.codec.reread = x.envelope.terminal := by
    rw [hterminal]
    rfl
  have hr := map_fixed fun l hl => RolloverLineage.reread_of_valid (hrollover l hl).1
  have hs := map_fixed fun s hs => RolloverReceipt.reread_of_valid (htransfer s hs).1.1.1
  have hf := map_fixed fun f hf => ForkLineage.reread_of_valid (hfork f hf).1
  refine ⟨RunMetadata.codec.reread x.envelope.runMeta,
    x.envelope.migration.map MigrationProvenance.codec.reread,
    x.envelope.importProvenance.map ImportProvenance.codec.reread,?_,?_⟩
  · simp only [SealedEnvelope.reread,SealedEnvelope.codec,Codec.object,hid,hd,hp,hpr,ht,hr,hs,hf]
    rfl
  · simp only [Option.all_map,Option.all_eq_true]
    intro q hq
    obtain ⟨hnamed,hsource⟩ := himport q hq
    have hread : (ImportProvenance.codec.reread q).source = q.source :=
      LegacyExecutionSource.reread_of_valid hsource
    have hempty : (ImportProvenance.codec.reread q).importerID ≠ [] := by
      change Utf8.coerce q.importerID ≠ []
      rwa [ne_eq,Utf8.coerce_eq_nil_iff,← ne_eq,← bne_iff_ne]
    simp [hread,hempty,isOk_iff.mpr hsource]

theorem executionCandidates_reread {x : SealedEnvelope} {cs : List DueCandidate}
    (hx : SealFacts x.envelope x) (hstable : RawEnvelope.stable x.envelope = true)
    (h : executionCandidates payloads x = .ok cs) : executionCandidates payloads x.reread = .ok cs := by
  have hterminal : x.reread.envelope.terminal =
      x.envelope.terminal.map ExecutionTerminal.codec.reread := rfl
  have hprofile : x.reread.envelope.runtimeProfile =
      x.envelope.runtimeProfile.map WaitCapabilityProfile.codec.reread := rfl
  unfold executionCandidates at h ⊢
  cases ht : x.envelope.terminal with
  | some terminal =>
    rw [ht] at h hterminal
    rw [hterminal]
    exact h
  | none =>
    cases hp : x.envelope.runtimeProfile with
    | none =>
      rw [ht,hp] at h
      rw [hterminal,hprofile,ht,hp]
      exact h
    | some profile =>
      simp only [ht,hp,bind_eq_ok] at h
      obtain ⟨waits,hwaits,retries,hretries,hcs⟩ := h
      simp only [inspectExecutionWaits,bind_eq_ok] at hwaits
      obtain ⟨_,-,decoded,hcollect,hwaits⟩ := hwaits
      simp only [inspectPendingActivityRetries,bind_eq_ok] at hretries
      obtain ⟨_,-,_,hdescriptor,_,hcollections,_,hmeta,hretries⟩ := hretries
      have hvalid : profile.validate = .ok () := by
        simp only [PayloadCodec.validateExecutionCollections,bind_eq_ok,require_eq_ok,exists_const,hp,
          Option.all_some,isOk_iff] at hcollections
        exact hcollections.2.1
      obtain ⟨m,g,p,henv,himport⟩ := reread_running hx ht hp hvalid hdescriptor hmeta
      have hint : validateExecutionIntegrity x.reread x.envelope.executionID x.envelope.revision = .ok () := by
        rw [hx.integrity_reread,hstable]
        rfl
      have hmeta' : validateExecutionSourceMetadata x.reread.envelope = .ok () := by
        rw [henv]
        simp only [validateExecutionSourceMetadata,bind_eq_ok,require_eq_ok,exists_const] at hmeta ⊢
        exact ⟨hmeta.1,hmeta.2.1,hmeta.2.2.1,hmeta.2.2.2.1,himport,hmeta.2.2.2.2.2⟩
      have hwaits' : inspectExecutionWaits payloads x.reread = .ok waits := by
        simp only [inspectExecutionWaits,henv]
        exact bind_eq_ok.mpr ⟨(),hint,bind_eq_ok.mpr ⟨decoded,hcollect,hwaits⟩⟩
      have hretries' : inspectPendingActivityRetries payloads x.reread = .ok retries := by
        simp only [inspectPendingActivityRetries,hmeta']
        simp only [henv]
        exact bind_eq_ok.mpr ⟨(),hint,bind_eq_ok.mpr ⟨(),hdescriptor,bind_eq_ok.mpr ⟨(),hcollections,
          bind_eq_ok.mpr ⟨(),rfl,hretries⟩⟩⟩⟩
      simp only [hwaits',hretries']
      simp only [henv,ht,hp]
      exact bind_eq_ok.mpr ⟨waits,rfl,bind_eq_ok.mpr ⟨retries,rfl,hcs⟩⟩

end Inspection

/-- What discovery keeps: the candidate rows, and for each execution whether it was projected and why
it was set aside. -/
structure Discovery where
  rows : GoMap CandidateKey DueCandidate
  projected : GoMap Text (Bool × Option Text)

/-- One `INSERT` after the other; the primary key refuses a second row. -/
def insertCandidates : GoMap CandidateKey DueCandidate → List DueCandidate →
    Result (GoMap CandidateKey DueCandidate)
  | rows, [] => .ok rows
  | rows, c :: rest =>
    if (rows.get? c.key).isSome then .error (sqlError "23505") else insertCandidates (rows.set c.key c) rest

def deleteCandidates (rows : GoMap CandidateKey DueCandidate) (id : Text) : GoMap CandidateKey DueCandidate :=
  rows.filter fun key _ => key.1 != id

def removeDiscoveryProjection (ix : Discovery) (id diagnostic : Text) : Discovery :=
  ⟨deleteCandidates ix.rows id,
    ix.projected.set id (true,if diagnostic = [] then none else some diagnostic)⟩

section Projection

variable [Sealing] (payloads : PayloadCodec)

/-- Runs inside the transaction that publishes `x`. -/
def replaceDiscoveryProjection (ix : Discovery) (x : SealedEnvelope) : Result Discovery := do
  let candidates ← executionCandidates payloads x
  let rows ← insertCandidates (deleteCandidates ix.rows x.envelope.executionID) candidates
  .ok ⟨rows,ix.projected.set x.envelope.executionID (true,none)⟩

end Projection

def RowsOf (ix : Discovery) (id : Text) (cs : List DueCandidate) : Prop :=
  ∀ k c, k.1 = id → (ix.rows.get? k = some c ↔ c ∈ cs ∧ c.key = k)

section Rows

variable {rows rows' : GoMap CandidateKey DueCandidate} {cs : List DueCandidate}

theorem get?_deleteCandidates (rows : GoMap CandidateKey DueCandidate) (id : Text) (k : CandidateKey) :
    (deleteCandidates rows id).get? k = if k.1 = id then none else rows.get? k := by
  rw [deleteCandidates,GoMap.get?_filter_key rows fun key : CandidateKey => key.1 != id]
  by_cases h : k.1 = id <;> simp [h]

theorem insertCandidates_eq_ok (h : insertCandidates rows cs = .ok rows') (k : CandidateKey) (c : DueCandidate) :
    rows'.get? k = some c ↔ (c ∈ cs ∧ c.key = k) ∨ rows.get? k = some c := by
  induction cs generalizing rows with
  | nil =>
    cases h
    simp
  | cons head rest ih =>
    unfold insertCandidates at h
    split at h
    · cases h
    · rename_i hfree
      rw [Bool.not_eq_true,Option.isSome_eq_false_iff,Option.isNone_iff_eq_none] at hfree
      rw [ih h,GoMap.get?_set,List.mem_cons]
      by_cases hk : k = head.key
      · subst hk
        rw [if_pos rfl,hfree]
        constructor
        · rintro (⟨hmem,hkey⟩ | heq)
          · exact .inl ⟨.inr hmem,hkey⟩
          · cases heq
            exact .inl ⟨.inl rfl,rfl⟩
        · rintro (⟨rfl | hmem,hkey⟩ | hnone)
          · exact .inr rfl
          · exact .inl ⟨hmem,hkey⟩
          · cases hnone
      · rw [if_neg hk]
        constructor
        · rintro (⟨hmem,hkey⟩ | heq)
          · exact .inl ⟨.inr hmem,hkey⟩
          · exact .inr heq
        · rintro (⟨rfl | hmem,hkey⟩ | heq)
          · exact absurd hkey.symm hk
          · exact .inl ⟨hmem,hkey⟩
          · exact .inr heq

theorem insertCandidates_isOk : (∃ rows', insertCandidates rows cs = .ok rows') ↔
    (∀ c ∈ cs, rows.get? c.key = none) ∧ (cs.map DueCandidate.key).Nodup := by
  induction cs generalizing rows with
  | nil => simp [insertCandidates]
  | cons head rest ih =>
    have hset : ∀ c : DueCandidate, (rows.set head.key head).get? c.key = none ↔
        c.key ≠ head.key ∧ rows.get? c.key = none := by
      intro c
      rw [GoMap.get?_set]
      by_cases hk : c.key = head.key <;> simp [hk]
    cases hhead : rows.get? head.key with
    | some c => simp [insertCandidates,hhead]
    | none =>
      simp only [insertCandidates,hhead,Option.isSome_none,Bool.false_eq_true,if_false,ih,hset,
        List.mem_cons,forall_eq_or_imp,List.map_cons,List.nodup_cons,List.mem_map,not_exists,not_and,
        true_and]
      exact ⟨fun h => ⟨fun c hc => (h.1 c hc).2,fun c hc => (h.1 c hc).1,h.2⟩,
        fun h => ⟨fun c hc => ⟨h.2.1 c hc,h.1 c hc⟩,h.2.2⟩⟩

variable {ix ix' : Discovery} {id id' : Text}

theorem removeDiscoveryProjection_rows (ix : Discovery) (id diagnostic : Text) :
    RowsOf (removeDiscoveryProjection ix id diagnostic) id [] := by
  intro k c hk
  simp [removeDiscoveryProjection,get?_deleteCandidates,hk]

theorem removeDiscoveryProjection_of_ne (diagnostic : Text) (hne : id' ≠ id) (h : RowsOf ix id' cs) :
    RowsOf (removeDiscoveryProjection ix id diagnostic) id' cs := by
  intro k c hk
  rw [removeDiscoveryProjection,get?_deleteCandidates,if_neg (hk ▸ hne)]
  exact h k c hk

variable [Sealing] {payloads : PayloadCodec} {x : SealedEnvelope}

theorem replaceDiscoveryProjection_eq_ok (h : replaceDiscoveryProjection payloads ix x = .ok ix') :
    ∃ cs, executionCandidates payloads x = .ok cs ∧ (cs.map DueCandidate.key).Nodup ∧
      RowsOf ix' x.envelope.executionID cs ∧
      ∀ id, id ≠ x.envelope.executionID → ∀ cs, RowsOf ix id cs → RowsOf ix' id cs := by
  simp only [replaceDiscoveryProjection,bind_eq_ok,Except.ok.injEq] at h
  obtain ⟨cs,hcs,rows,hrows,rfl⟩ := h
  have hget := insertCandidates_eq_ok hrows
  refine ⟨cs,hcs,(insertCandidates_isOk.mp ⟨rows,hrows⟩).2,?_,?_⟩
  · intro k c hk
    rw [hget k c,get?_deleteCandidates,if_pos hk]
    simp
  · intro id hne others hothers k c hk
    rw [hget k c,get?_deleteCandidates,if_neg (hk ▸ hne),hothers k c hk]
    have hnot : ¬ (c ∈ cs ∧ c.key = k) := by
      rintro ⟨hc,hkey⟩
      have hid := (executionCandidates_address hcs hc).1
      exact hne (hk.symm.trans ((congrArg Prod.fst hkey).symm.trans hid))
    simp [hnot]

theorem replaceDiscoveryProjection_isOk (ix : Discovery) {cs : List DueCandidate}
    (h : executionCandidates payloads x = .ok cs) (hnodup : (cs.map DueCandidate.key).Nodup) :
    ∃ ix', replaceDiscoveryProjection payloads ix x = .ok ix' := by
  have hfree : ∀ c ∈ cs, (deleteCandidates ix.rows x.envelope.executionID).get? c.key = none := by
    intro c hc
    rw [get?_deleteCandidates]
    exact if_pos (executionCandidates_address h hc).1
  obtain ⟨rows,hrows⟩ := insertCandidates_isOk.mpr ⟨hfree,hnodup⟩
  exact ⟨_,bind_eq_ok.mpr ⟨cs,h,bind_eq_ok.mpr ⟨rows,hrows,rfl⟩⟩⟩

end Rows
end Flowy.Postgres
