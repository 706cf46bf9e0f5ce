import Mathlib.Data.Prod.Lex
import Flowy.Store.Rebuild

/-! Polling for due work. The candidate rows are read page by page in the order of their deadlines, and
every row is checked against its head before its wait or retry is returned. -/
namespace Flowy.Postgres

open Json

structure ExecutionStore where
  waitProfile : Option WaitCapabilityProfile
  valid : ∀ profile ∈ waitProfile, profile.validate = .ok ()

def newExecutionStore : ExecutionStore := ⟨none,by simp⟩

def newWaitExecutionStore (profile : WaitCapabilityProfile) : Result ExecutionStore :=
  if h : profile.validate = .ok () then .ok ⟨some profile,fun p hp => by cases hp; exact h⟩
  else fail .executionCapability

structure DiscoveryCursor where
  upperDeadline : Time
  afterDeadline : Time
  afterExecutionID : Text
  afterIdentity : Text
  profileDigest : Text
  kind : Text
deriving DecidableEq, Repr

def DiscoveryCursor.empty : DiscoveryCursor := ⟨.zero,.zero,[],[],[],[]⟩

def CandidateKind.text : CandidateKind → Text
  | .wait => ascii "wait"
  | .retry => ascii "retry"

theorem CandidateKind.text_injective {k k' : CandidateKind} (h : k.text = k'.text) : k = k' := by
  revert h
  cases k <;> cases k' <;> decide

def discoveryRebuildRequired : Err := ⟨ascii "flowy postgres: discovery projection rebuild required",[]⟩
def discoveryCursorInvalid : Err := ⟨ascii "flowy postgres: invalid discovery cursor",[]⟩

/-- `(deadline,execution_id,work_identity)` as the database compares it. -/
abbrev DueKey (c : Collation) := Int ×ₗ Collated c ×ₗ Collated c

def dueKey (c : Collation) (deadline : Time) (id identity : Text) : DueKey c :=
  toLex (deadline.ns,toLex (collate c id,collate c identity))

def DueCandidate.dueKey (c : Collation) (r : DueCandidate) : DueKey c :=
  Postgres.dueKey c r.deadline r.executionID r.identity

structure ScanPage (ω : Type) where
  found : List ω
  cursor : DiscoveryCursor
  more : Bool
  diagnostics : List DiscoveryDiagnostic
deriving DecidableEq, Repr

/-- An observation, not a claimed lease or an accepted timer. -/
structure DueWait where
  wait : DurableWaitRecord
  revision : Nat
deriving DecidableEq

abbrev WaitScanPage := ScanPage DueWait
abbrev ActivityRetryScanPage := ScanPage PendingActivityRetry

section Scan

variable [Sealing] (payloads : PayloadCodec) (c : Collation) (s : ExecutionStore)

def ExecutionStore.discoveryPosition (now : Time) (cursor : DiscoveryCursor) (limit : Nat)
    (kind : CandidateKind) : Result DiscoveryCursor :=
  match s.waitProfile with
  | none => fail .executionCapability
  | some profile =>
    if now.isZero || limit == 0 || limit > maxWaitScanHeads then fail .waitInvalid
    else
      let digest := discoveryProfileDigest profile
      if cursor = .empty then .ok ⟨now,.zero,[],[],digest,kind.text⟩
      else if cursor.upperDeadline != now || cursor.profileDigest != digest || cursor.kind != kind.text ||
          cursor.afterDeadline.isZero || cursor.afterExecutionID == [] || cursor.afterIdentity == [] ||
          cursor.afterDeadline.after now then .error discoveryCursorInvalid
      else .ok cursor

def dueCandidates (rows : GoMap CandidateKey DueCandidate) (digest kind : Text) (upper : Time) :
    List DueCandidate :=
  Keyset.ordered (DueCandidate.dueKey c) (rows.values.filter fun r =>
    r.profileDigest == digest && r.kind.text == kind && r.deadline.ns ≤ (truncateMicroseconds upper).ns)

/-- Where the query starts; parameters are kept to microseconds. -/
def dueSelection (cursor : DiscoveryCursor) : Option (DueKey c) :=
  if cursor.afterDeadline.isZero then none
  else some (dueKey c (truncateMicroseconds cursor.afterDeadline) cursor.afterExecutionID
    cursor.afterIdentity)

/-- A live head that was never projected. -/
def unready (d : IndexedDatabase) : Bool :=
  d.database.executions.entries.any fun e => e.2.revision > 0 && !e.2.payloadDeleted &&
    !((d.discovery.projected.get? e.1).any fun p => p.1)

def readDueCandidates (d : IndexedDatabase) (cursor : DiscoveryCursor) (limit : Nat) :
    Result (List DueCandidate) :=
  if unready d then .error discoveryRebuildRequired
  else .ok ((Keyset.after (DueCandidate.dueKey c)
    (dueCandidates c d.discovery.rows cursor.profileDigest cursor.kind cursor.upperDeadline)
    (dueSelection c cursor)).take (limit + 1))

def validateDueCandidate (db : Database) (candidate : DueCandidate) : Result SealedEnvelope :=
  if candidate.revision = 0 then .error discoveryProjectionMismatch
  else do
    let x ← loadExecution db candidate.executionID
    if x.envelope.revision ≠ candidate.revision then .error discoveryStaleRevision
    else if !(x.envelope.runtimeProfile.any fun p => discoveryProfileDigest p == candidate.profileDigest) then
      .error discoveryProfileMismatch
    else do
      let expected ← (executionCandidates payloads x).mapError (Err.join (.of .executionCorrupt))
      if expected.any fun current => current.identity == candidate.identity &&
          current.kind == candidate.kind && current.deadline == candidate.deadline then .ok x
      else .error discoveryProjectionMismatch

variable {ω : Type}

def ScanPage.diagnose (page : ScanPage ω) (r : DueCandidate) (err : Err) : ScanPage ω :=
  { page with diagnostics := page.diagnostics ++ [⟨r.executionID,r.revision,r.identity,some r.kind,err.message⟩] }

def ScanPage.advance (page : ScanPage ω) (r : DueCandidate) : ScanPage ω :=
  { page with cursor := { page.cursor with
      afterDeadline := r.deadline, afterExecutionID := r.executionID, afterIdentity := r.identity } }

/-- The loop over the rows of a page. A row that cannot be read is reported and passed over; any other
error of its check ends the scan. -/
def visitDueCandidates (visit : SealedEnvelope → DueCandidate → Result ω) (db : Database) :
    List DueCandidate → ScanPage ω → Result (ScanPage ω)
  | [], page => .ok page
  | r :: rest, page =>
    match validateDueCandidate payloads db r with
    | .error err =>
      if discoveryRecordError err then visitDueCandidates visit db rest ((page.diagnose r err).advance r)
      else .error err
    | .ok x =>
      match visit x r with
      | .error err => visitDueCandidates visit db rest ((page.diagnose r err).advance r)
      | .ok item => visitDueCandidates visit db rest
          (ScanPage.advance { page with found := page.found ++ [item] } r)

def scanDueCandidates (d : IndexedDatabase) (now : Time) (cursor : DiscoveryCursor) (limit : Nat)
    (kind : CandidateKind) (visit : SealedEnvelope → DueCandidate → Result ω) : Result (ScanPage ω) := do
  let position ← s.discoveryPosition now cursor limit kind
  let candidates ← readDueCandidates c d position limit
  visitDueCandidates payloads visit d.database (candidates.take limit)
    ⟨[],position,decide (candidates.length > limit),[]⟩

def visitedRows (d : IndexedDatabase) (now : Time) (kind : CandidateKind) (cursor : DiscoveryCursor)
    (limit : Nat) : List DueCandidate :=
  ((s.discoveryPosition now cursor limit kind >>= fun position =>
    readDueCandidates c d position limit).toOption.getD []).take limit

def ExecutionStore.dueWaitCandidates (x : SealedEnvelope) (now : Time) : Result (List DueWait) :=
  if x.envelope.waits.isEmpty then .ok []
  else do
    let records ← inspectExecutionWaits payloads x
    .ok ((records.filter fun record => s.waitProfile == some record.profile && record.state == .armed &&
      !now.before record.spec.deadline).map fun record => ⟨record,x.envelope.revision⟩)

def ExecutionStore.visitWait (now : Time) (x : SealedEnvelope) (candidate : DueCandidate) :
    Result DueWait := do
  let waits ← s.dueWaitCandidates payloads x now
  match waits.find? fun w => w.wait.generation == candidate.identity with
  | some wait => .ok wait
  | none => fail .executionCorrupt

def visitRetry (now : Time) (x : SealedEnvelope) (candidate : DueCandidate) :
    Result PendingActivityRetry := do
  let retries ← inspectPendingActivityRetries payloads x
  match retries.find? fun r => r.identity == candidate.identity && !now.before r.deadline with
  | some retry => .ok retry
  | none => fail .executionCorrupt

def discoverDueWaits (d : IndexedDatabase) (now : Time) (cursor : DiscoveryCursor) (scanLimit : Nat) :
    Result WaitScanPage :=
  scanDueCandidates payloads c s d now cursor scanLimit .wait (s.visitWait payloads now)

def discoverDueActivityRetries (d : IndexedDatabase) (now : Time) (cursor : DiscoveryCursor)
    (scanLimit : Nat) : Result ActivityRetryScanPage :=
  scanDueCandidates payloads c s d now cursor scanLimit .retry (visitRetry payloads now)

end Scan

section Rounding

theorem truncateMicroseconds_le (t : Time) : (truncateMicroseconds t).ns ≤ t.ns := by
  simp only [truncateMicroseconds]
  omega

theorem truncateMicroseconds_of_dvd {t : Time} (h : t.ns % 1000 = 0) : truncateMicroseconds t = t := by
  simp [truncateMicroseconds,h]

theorem discoveryDeadline_spec (t : Time) :
    t.ns ≤ (discoveryDeadline t).ns ∧ (discoveryDeadline t).ns < t.ns + 1000 ∧
      (discoveryDeadline t).ns % 1000 = 0 := by
  simp only [discoveryDeadline,Time.before_iff,truncateMicroseconds,Time.add]
  by_cases h : t.ns - t.ns % 1000 < t.ns
  · rw [if_pos h]
    refine ⟨?_,?_,?_⟩ <;> simp only <;> omega
  · rw [if_neg h]
    refine ⟨?_,?_,?_⟩ <;> simp only <;> omega

theorem le_of_selected {t now : Time} (h : (discoveryDeadline t).ns ≤ (truncateMicroseconds now).ns) :
    t.ns ≤ now.ns :=
  ((discoveryDeadline_spec t).1.trans h).trans (truncateMicroseconds_le now)

theorem selected_of_le {t now : Time} (h : t.ns + 1000 ≤ now.ns) :
    (discoveryDeadline t).ns ≤ (truncateMicroseconds now).ns := by
  obtain ⟨-,hlt,hmod⟩ := discoveryDeadline_spec t
  simp only [truncateMicroseconds]
  omega

end Rounding

section Inspected

variable [Sealing] {payloads : PayloadCodec} {x : SealedEnvelope}

theorem discoveryProfileDigest_injective {p q : WaitCapabilityProfile} (hq : q.validate = .ok ())
    (h : discoveryProfileDigest p = discoveryProfileDigest q) : p = q := by
  have htext := Sha256.injective h
  simp only [WaitCapabilityProfile.validate,require_eq_ok,validRuntimeText,Bool.and_eq_true] at hq
  obtain ⟨⟨⟨⟨-,hvalid⟩,-⟩,-⟩,-⟩ := hq
  let names := [ascii "label",ascii "journal_owner",ascii "lease_owner",ascii "timer_owner",
    ascii "clock_owner",ascii "retry_owner",ascii "recovery_owner"]
  let texts := fun p : WaitCapabilityProfile =>
    [p.label,p.journalOwner,p.leaseOwner,p.timerOwner,p.clockOwner,p.retryOwner,p.recoveryOwner]
  have hrender : ∀ p : WaitCapabilityProfile, render (WaitCapabilityProfile.codec.tokens p) =
      0x7B :: (render (commaJoin (List.zipWith (fun n s => named n (Codec.text.tokens s)) names (texts p))) ++
        [0x7D]) := by
    intro p
    change render (.punct [0x7B] :: (_ ++ [.punct [0x7D]])) = _
    simp only [render,List.flatMap_cons,List.flatMap_append,List.flatMap_nil]
    rfl
  rw [hrender,hrender,List.cons.injEq] at htext
  obtain ⟨htexts,-⟩ := textMembers_append_inj names (texts p) (texts q) rfl rfl
    (List.all_eq_true.mp hvalid) _ _ htext.2
  obtain ⟨a,b,c,d,e,f,g⟩ := p
  obtain ⟨a',b',c',d',e',f',g'⟩ := q
  simpa [texts] using htexts

structure InspectedWaits (payloads : PayloadCodec) (x : SealedEnvelope) (ws : List DurableWaitRecord) :
    Prop where
  named : x.envelope.executionID ≠ []
  revised : x.envelope.revision ≠ 0
  profile : ∀ w ∈ ws, ∀ p, x.envelope.runtimeProfile = some p → w.profile = p
  bound : ∀ p, x.envelope.runtimeProfile = some p → p.validate = .ok ()
  generation : ∀ w ∈ ws, w.generation ≠ []
  unique : ∀ w ∈ ws, ∀ w' ∈ ws, w.generation = w'.generation → w = w'
  running : ∀ w ∈ ws, w.state = .armed → x.envelope.terminal = none
  written : ws ≠ [] → x.envelope.waits.isEmpty = false

theorem validateExecutionIntegrity_named {id : Text} {revision : Nat}
    (h : validateExecutionIntegrity x id revision = .ok ()) : id ≠ [] ∧ revision ≠ 0 := by
  simp only [validateExecutionIntegrity,bind_eq_ok,require_eq_ok,exists_const,Bool.not_eq_true',
    Bool.or_eq_false_iff,beq_eq_false_iff_ne] at h
  obtain ⟨⟨⟨⟨⟨⟨⟨⟨hid,hrev⟩,-⟩,-⟩,-⟩,-⟩,-⟩,-⟩,-⟩ := h
  exact ⟨hid,hrev⟩

theorem inspectExecutionWaits_facts {ws : List DurableWaitRecord}
    (h : inspectExecutionWaits payloads x = .ok ws) : InspectedWaits payloads x ws := by
  simp only [inspectExecutionWaits,PayloadCodec.validateExecutionCollectionsWithWaits,
    PayloadCodec.validateExecutionCollections,bind_eq_ok,require_eq_ok,exists_const,Except.ok.injEq] at h
  obtain ⟨_,hintegrity,waits,⟨⟨-,hbound,-⟩,hwaits⟩,rfl⟩ := h
  obtain ⟨hnamed,hrevised⟩ := validateExecutionIntegrity_named hintegrity
  simp only [PayloadCodec.executionWaits,bind_eq_ok] at hwaits
  obtain ⟨decoded,hread,hwaits⟩ := hwaits
  obtain ⟨hsame,hadmitted⟩ := executionWaits_iff.mp hwaits
  obtain rfl : decoded = waits := hsame.symm
  have hget : ∀ w ∈ (sortedEntries decoded).map (fun e => e.2), ∃ id, decoded.get? id = some w := by
    intro w hw
    obtain ⟨⟨id,w⟩,he,rfl⟩ := List.mem_map.mp hw
    exact ⟨id,(mem_sortedEntries decoded _).mp he⟩
  have haddress : ∀ id w, decoded.get? id = some w →
      w.generation = waitGeneration w.identity w.armRevision := by
    intro id w hw
    have := (hadmitted.valid id w hw).address
    simp only [validWaitAddress,Bool.and_eq_true,beq_iff_eq] at this
    exact this.2
  refine ⟨hnamed,hrevised,?_,?_,?_,?_,?_,?_⟩
  · intro w hw p hp
    obtain ⟨id,hid⟩ := hget w hw
    exact hadmitted.profile id w hid p hp
  · intro p hp
    have := hbound
    rw [hp] at this
    exact isOk_iff.mp this
  · intro w hw
    obtain ⟨id,hid⟩ := hget w hw
    rw [haddress id w hid]
    exact Sha256.sum_ne_nil _
  · intro w hw w' hw' hgen
    obtain ⟨id,hid⟩ := hget w hw
    obtain ⟨id',hid'⟩ := hget w' hw'
    rw [haddress id w hid,haddress id' w' hid'] at hgen
    obtain ⟨hidentity,-⟩ := waitGeneration_injective hgen
    have hkey : id = id' :=
      (hadmitted.keyed id w hid).trans (hidentity.trans (hadmitted.keyed id' w' hid').symm)
    rw [hkey,hid'] at hid
    exact (Option.some.inj hid).symm
  · intro w hw hs
    obtain ⟨id,hid⟩ := hget w hw
    exact (hadmitted.current id w hid hs).1
  · intro hne
    cases hempty : x.envelope.waits.isEmpty with
    | false => rfl
    | true =>
      simp only [PayloadCodec.readWaits,hempty,if_true,Except.ok.injEq] at hread
      subst hread
      exact absurd rfl hne

structure InspectedRetries (x : SealedEnvelope) (qs : List PendingActivityRetry) : Prop where
  identity : ∀ q ∈ qs, q.identity ≠ []
  unique : ∀ q ∈ qs, ∀ q' ∈ qs, q.identity = q'.identity → q = q'
  deadline : ∀ q ∈ qs, 0 < q.deadline.ns
  running : qs ≠ [] → x.envelope.terminal = none

theorem inspectPendingActivityRetries_facts {qs : List PendingActivityRetry}
    (h : inspectPendingActivityRetries payloads x = .ok qs) : InspectedRetries x qs := by
  simp only [inspectPendingActivityRetries,bind_eq_ok] at h
  obtain ⟨-,-,-,-,-,-,-,-,h⟩ := h
  cases hterminal : x.envelope.terminal with
  | some t =>
    simp only [hterminal,Option.isSome_some,if_true,Except.ok.injEq] at h
    subst h
    exact ⟨by simp,by simp,by simp,by simp⟩
  | none =>
    simp only [hterminal,Option.isSome_none,Bool.false_eq_true,if_false,bind_eq_ok,Except.ok.injEq] at h
    obtain ⟨decoded,hread,journal,hjournal,rfl⟩ := h
    obtain ⟨hsame,hadmitted⟩ := executionActivityJournal_iff.mp hjournal
    obtain rfl : decoded = journal := hsame.symm
    have hget : ∀ q ∈ ((sortedEntries decoded).filter fun e => retryPending x.envelope e.2).map
        (fun e => pendingRetry x.envelope e.1 e.2), ∃ id record, decoded.get? id = some record ∧
          retryPending x.envelope record = true ∧ q = pendingRetry x.envelope id record := by
      intro q hq
      obtain ⟨⟨id,record⟩,he,rfl⟩ := List.mem_map.mp hq
      obtain ⟨hmem,hpending⟩ := List.mem_filter.mp he
      exact ⟨id,record,(mem_sortedEntries decoded _).mp hmem,hpending,rfl⟩
    refine ⟨?_,?_,?_,fun _ => hterminal⟩
    · intro q hq
      obtain ⟨id,record,hid,-,rfl⟩ := hget q hq
      have haddress := (ValidRecord.of_valid (hadmitted.valid id record hid)).address
      simp only [validActivityAddress,Bool.and_eq_true,beq_iff_eq] at haddress
      change id ≠ []
      rw [← hadmitted.keyed id record hid,haddress.2]
      exact Sha256.sum_ne_nil _
    · intro q hq q' hq' hsame
      obtain ⟨id,record,hid,-,rfl⟩ := hget q hq
      obtain ⟨id',record',hid',-,rfl⟩ := hget q' hq'
      obtain rfl : id = id' := hsame
      rw [hid] at hid'
      cases hid'
      rfl
    · intro q hq
      obtain ⟨id,record,hid,hpending,rfl⟩ := hget q hq
      simp only [retryPending,Bool.and_eq_true,beq_iff_eq,Bool.not_eq_true'] at hpending
      have htime := (ValidRecord.of_valid (hadmitted.valid id record hid)).nextAttemptAt_valid
        hpending.1.1.1.1.2 hpending.1.1.2
      simp only [activityScheduleTimeValid,Time.isZero,Time.inYears1To9999,Bool.and_eq_true,
        Bool.not_eq_true',beq_eq_false_iff_ne,decide_eq_true_eq] at htime
      change 0 < record.nextAttemptAt.ns
      omega

end Inspected
end Flowy.Postgres
