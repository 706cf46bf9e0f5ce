import Mathlib.Data.List.Forall2
import Flowy.Lib.GoMap
import Flowy.Lib.CivilTime

/-! Texts, times, errors and digests as the runtime uses them. Texts are byte strings, since the
host may hand over any bytes; a time is the number of nanoseconds since Go's zero time. -/
namespace Flowy

/-- A Go `string`. -/
abbrev Text := Bytes

/-- A source literal; all of them are ASCII. -/
def ascii (s : String) : Text := s.toList.map fun c => UInt8.ofNat c.toNat

/-- JSON normalization must not alias runtime identities. -/
def validRuntimeText (values : List Text) : Bool := values.all Utf8.valid

def maxRevision : Nat := 2 ^ 64 - 1

/-- A `time.Time` as an instant; wall clock zones never reach a comparison. -/
structure Time where
  ns : Int
deriving DecidableEq, Repr

/-- A `time.Duration` in nanoseconds. -/
abbrev Duration := Int

namespace Time

def zero : Time := ⟨0⟩
def isZero (t : Time) : Bool := t.ns == 0
def before (t u : Time) : Bool := t.ns < u.ns
def after (t u : Time) : Bool := u.before t
def add (t : Time) (d : Duration) : Time := ⟨t.ns + d⟩

def year10000 : Int := 3652059 * CivilTime.nsPerDay

/-- `1 <= t.UTC().Year() && t.UTC().Year() <= 9999`. -/
def inYears1To9999 (t : Time) : Bool := 0 ≤ t.ns && t.ns < year10000

/-- `MarshalJSON` accepts the years 0 to 9999; year 0 has 366 days. -/
def marshals (t : Time) : Bool := -(366 * CivilTime.nsPerDay) ≤ t.ns && t.ns < year10000

/-- `t.UTC().Format(time.RFC3339Nano)`. -/
def format (t : Time) : Text := CivilTime.rfc3339Nano t.ns

/-- `UnmarshalJSON`, for a text in UTC. -/
def parse (s : Text) : Option Time := (CivilTime.parse s).map Time.mk

theorem parse_format {t : Time} (h : t.marshals = true) : parse t.format = some t := by
  simp only [marshals,Bool.and_eq_true,decide_eq_true_eq] at h
  rw [parse,format,CivilTime.parse_rfc3339Nano h.1 h.2]
  rfl

instance : LT Time := ⟨fun t u => t.ns < u.ns⟩

@[simp] theorem isZero_zero : zero.isZero = true := rfl

theorem isZero_iff (t : Time) : t.isZero = true ↔ t = zero := by
  cases t
  simp [isZero,zero]

@[simp] theorem before_iff (t u : Time) : t.before u = true ↔ t.ns < u.ns := by
  simp [before]

theorem after_iff (t u : Time) : t.after u = true ↔ u < t := before_iff u t

end Time

/-- The package's error values, and the two context errors. -/
inductive Sentinel
  | activityConflict | activityUnknown | activityBusy | activityJournalUnavailable
  | activityRetryPending | activityAttemptsExhausted | activityFailed | activityScheduleInvalid
  | childDuplicate | childInvalid | childRevision | childrenUnresolved | childMergeConflict | childBusy
  | waitInvalid | waitConflict | waitNotArmed | waitUnknown | waitStale | waitUnresolved
  | waitRegistration | waitCanceled | waitExpired
  | executionCapability | executionIncompatible | executionFailed | executionCorrupt
  | executionImportInvalid | executionTransferred | executionCheckpointUnavailable
  | executionLifecycleInvalid | executionLifecycleUnsafe | executionLifecycleLimit
  | executionLifecycleUnsupported | executionRolloverConflict | executionSourceDigest
  | migrationMissing | migrationInvalid | forkPolicy | forkTransform | forkTargetConflict | forkUnresolved
  | durableStateUnavailable | maxStepsExceeded | threadNotFound | leaseLost | leaseHeld
  | threadLeaseBusy | retryBudgetExceeded | budgetExceeded | invalidSnapshot | invalidResumePlan
  | resumeTargetPolicyFailed | resumeStartNodeNotFound | concurrencyConflict | invalidResumeToken
  | handoffRequested | checkpointSkipped | handoffEnqueueFailed | handoffPatchFailed | handoffPending
  | handoffOrphaned | handoffAlreadyEnqueued | handoffNotRecoverable | handoffOutboxRequired
  | invalidHandoffIntent | transactionalOutboxUnsupported | transactionalHandoffCommitFailed
  | snapshotEnvelopeInvalid | removedNext | overlayMergerRequired | configuration
  | threadAlreadyRunning | runCleanup
  | canceled | deadlineExceeded
deriving DecidableEq, Repr

def Sentinel.message : Sentinel → Text
  | .activityConflict => ascii "flowy: activity key conflict"
  | .activityUnknown => ascii "flowy: activity outcome unknown; reconciliation required"
  | .activityBusy => ascii "flowy: activity attempt still running"
  | .activityJournalUnavailable => ascii "flowy: activity journal unavailable"
  | .activityRetryPending => ascii "flowy: activity retry pending"
  | .activityAttemptsExhausted => ascii "flowy: activity attempts exhausted"
  | .activityFailed => ascii "flowy: activity failed without retry"
  | .activityScheduleInvalid => ascii "flowy: invalid activity retry schedule"
  | .childDuplicate => ascii "flowy: duplicate child identity"
  | .childInvalid => ascii "flowy: invalid child contract"
  | .childRevision => ascii "flowy: stale child revision"
  | .childrenUnresolved => ascii "flowy: children unresolved"
  | .childMergeConflict => ascii "flowy: child merge conflict"
  | .childBusy => ascii "flowy: child already running"
  | .waitInvalid => ascii "flowy: invalid durable wait"
  | .waitConflict => ascii "flowy: durable wait identity conflict"
  | .waitNotArmed => ascii "flowy: durable wait not armed"
  | .waitUnknown => ascii "flowy: unknown durable wait"
  | .waitStale => ascii "flowy: stale durable wait delivery"
  | .waitUnresolved => ascii "flowy: unresolved durable wait"
  | .waitRegistration => ascii "flowy: durable wait registration failed"
  | .waitCanceled => ascii "flowy: durable wait canceled"
  | .waitExpired => ascii "flowy: durable wait expired"
  | .executionCapability => ascii "flowy: execution capability unsupported"
  | .executionIncompatible => ascii "flowy: incompatible execution descriptor"
  | .executionFailed => ascii "flowy: persisted execution failed"
  | .executionCorrupt => ascii "flowy: corrupt execution envelope"
  | .executionImportInvalid => ascii "flowy: invalid execution import"
  | .executionTransferred => ascii "flowy: execution continuation transferred"
  | .executionCheckpointUnavailable => ascii "flowy: exact execution checkpoint absent or pruned"
  | .executionLifecycleInvalid => ascii "flowy: invalid execution lifecycle contract"
  | .executionLifecycleUnsafe => ascii "flowy: unsafe execution lifecycle boundary"
  | .executionLifecycleLimit => ascii "flowy: execution lifecycle limit"
  | .executionLifecycleUnsupported => ascii "flowy: execution lifecycle unsupported"
  | .executionRolloverConflict => ascii "flowy: conflicting execution rollover"
  | .executionSourceDigest => ascii "flowy: execution source digest mismatch"
  | .migrationMissing => ascii "flowy: migration chain missing"
  | .migrationInvalid => ascii "flowy: invalid migration"
  | .forkPolicy => ascii "flowy: fork execution policy required or incompatible"
  | .forkTransform => ascii "flowy: fork transform or projection failed"
  | .forkTargetConflict => ascii "flowy: fork target already exists"
  | .forkUnresolved => ascii "flowy: fork source has unresolved external work"
  | .durableStateUnavailable => ascii "flowy: committed state unavailable; diagnostic local result"
  | .maxStepsExceeded => ascii "flowy: max steps exceeded"
  | .threadNotFound => ascii "flowy: thread snapshot not found"
  | .leaseLost => ascii "flowy: thread lease lost or expired"
  | .leaseHeld => ascii "flowy: thread lease held by another owner"
  | .threadLeaseBusy => ascii "flowy: thread already has an active lease"
  | .retryBudgetExceeded => ascii "flowy: per-node retry budget exceeded"
  | .budgetExceeded => ascii "flowy: named budget exceeded"
  | .invalidSnapshot => ascii "flowy: snapshot has invalid or empty execution pointer"
  | .invalidResumePlan => ascii "flowy: invalid resume plan"
  | .resumeTargetPolicyFailed => ascii "flowy: resume target policy failed"
  | .resumeStartNodeNotFound => ascii "flowy: resume start node not found"
  | .concurrencyConflict => ascii "flowy: concurrency conflict"
  | .invalidResumeToken => ascii "flowy: invalid resume token"
  | .handoffRequested => ascii "flowy: handoff to background requested"
  | .checkpointSkipped => ascii "flowy: checkpoint skipped"
  | .handoffEnqueueFailed => ascii "flowy: handoff enqueue failed"
  | .handoffPatchFailed => ascii "flowy: handoff status patch failed"
  | .handoffPending => ascii "flowy: handoff pending"
  | .handoffOrphaned => ascii "flowy: handoff orphaned"
  | .handoffAlreadyEnqueued => ascii "flowy: handoff already enqueued"
  | .handoffNotRecoverable => ascii "flowy: handoff status not recoverable"
  | .handoffOutboxRequired => ascii "flowy: handoff outbox is required for recovery"
  | .invalidHandoffIntent => ascii "flowy: invalid handoff intent"
  | .transactionalOutboxUnsupported => ascii "flowy: checkpointer does not support SaveWithOutbox"
  | .transactionalHandoffCommitFailed => ascii "flowy: transactional handoff commit failed"
  | .snapshotEnvelopeInvalid =>
    ascii "flowy: snapshot has invalid or empty execution pointer: snapshot envelope invalid"
  | .removedNext => ascii "flowy: Next(nodeID) was removed; use Completed() and graph edges"
  | .overlayMergerRequired => ascii "flowy: WithStateOverlay requires a non-nil merger"
  | .configuration => ascii "flowy/patterns: invalid configuration"
  | .threadAlreadyRunning => ascii "flowy: thread already has an active in-process execution"
  | .runCleanup => ascii "flowy: run cleanup failed"
  | .canceled => ascii "context canceled"
  | .deadlineExceeded => ascii "context deadline exceeded"

/-- A Go `error`: its text, and the sentinels `errors.Is` finds in its chain. -/
structure Err where
  message : Text
  wraps : List Sentinel
deriving DecidableEq, Repr

namespace Err

def of (s : Sentinel) : Err := ⟨s.message,[s]⟩

/-- `errors.Is`. -/
def is (e : Err) (s : Sentinel) : Bool := e.wraps.contains s

/-- `errors.Join`. -/
def join (e f : Err) : Err := ⟨e.message ++ ascii "\n" ++ f.message,e.wraps ++ f.wraps⟩

/-- `fmt.Errorf("%w: %w", e, f)`. -/
def wrap (e f : Err) : Err := ⟨e.message ++ ascii ": " ++ f.message,e.wraps ++ f.wraps⟩

/-- `fmt.Errorf` with a literal before the wrapped error. -/
def label (s : String) (e : Err) : Err := ⟨ascii s ++ e.message,e.wraps⟩

@[simp] theorem is_of (s s' : Sentinel) : (of s).is s' = decide (s' = s) := by
  simp [of,is]

@[simp] theorem is_join (e f : Err) (s : Sentinel) : (e.join f).is s = (e.is s || f.is s) := by
  simp [is,join]

end Err

abbrev Result := Except Err

def fail {α : Type} (s : Sentinel) : Result α := .error (.of s)

def require (ok : Bool) (s : Sentinel) : Result Unit := if ok then .ok () else fail s

@[simp] theorem require_eq_ok (ok : Bool) (s : Sentinel) (u : Unit) :
    require ok s = .ok u ↔ ok = true := by
  cases ok <;> simp [require,fail]

theorem require_bind {α : Type} (ok : Bool) (s : Sentinel) (next : Unit → Result α) :
    (require ok s >>= next) = if ok then next () else fail s := by
  cases ok <;> rfl

theorem bind_eq_ok {α β : Type} {x : Result α} {f : α → Result β} {b : β} :
    (x >>= f) = .ok b ↔ ∃ a, x = .ok a ∧ f a = .ok b := by
  cases x <;> simp [bind,Except.bind]

theorem map_eq_ok {α β : Type} {x : Result α} {f : α → β} {b : β} :
    x.map f = .ok b ↔ ∃ a, x = .ok a ∧ f a = b := by
  cases x <;> simp [Except.map]

theorem mapError_eq_ok {α : Type} {x : Result α} {f : Err → Err} {a : α} :
    x.mapError f = .ok a ↔ x = .ok a := by
  cases x <;> simp [Except.mapError]

theorem exists_of_toOption_any {α : Type} {r : Result α} {p : α → Bool} (h : r.toOption.any p = true) :
    ∃ a, r = .ok a ∧ p a = true := by
  cases r with
  | error err => cases h
  | ok a => exact ⟨a,rfl,h⟩

theorem forall₂_mem_right {α β : Type} {R : α → β → Prop} {xs : List α} {ys : List β}
    (h : List.Forall₂ R xs ys) {y : β} (hy : y ∈ ys) : ∃ x ∈ xs, R x y := by
  induction h with
  | nil => cases hy
  | cons hr _ ih =>
    rcases List.mem_cons.mp hy with rfl | hy
    · exact ⟨_,List.mem_cons_self,hr⟩
    · obtain ⟨x,hx,hR⟩ := ih hy
      exact ⟨x,List.mem_cons_of_mem _ hx,hR⟩

theorem forall₂_mem_left {α β : Type} {R : α → β → Prop} {xs : List α} {ys : List β}
    (h : List.Forall₂ R xs ys) {x : α} (hx : x ∈ xs) : ∃ y ∈ ys, R x y :=
  forall₂_mem_right h.flip hx

theorem isOk_iff {r : Result Unit} : r.isOk = true ↔ r = .ok () := by
  cases r with
  | error err => simp [Except.isOk,Except.toBool]
  | ok u => simp [Except.isOk,Except.toBool]

/-- The hex SHA-256 digest, taken to be injective. `wellFormed` is the test for sixty-four
lower-case hex digits; only that every digest passes it and that it admits no ill-formed text is
used. -/
class Sha256 where
  sum : Bytes → Text
  injective : Function.Injective sum
  wellFormed : Text → Bool
  wellFormed_sum : ∀ b, wellFormed (sum b) = true
  valid_of_wellFormed : ∀ t, wellFormed t = true → Utf8.valid t = true
  sum_ne_nil : ∀ b, sum b ≠ []

theorem Sha256.valid_sum [Sha256] (b : Bytes) : Utf8.valid (Sha256.sum b) = true :=
  Sha256.valid_of_wellFormed _ (Sha256.wellFormed_sum b)

/-- Hex digits of the input itself: a digest with all these properties. -/
def hexSum (b : Bytes) : Text :=
  0x78 :: b.flatMap fun x => [Json.hexDigit (x / 16),Json.hexDigit (x % 16)]

theorem unhex_hexDigit (x : UInt8) :
    Json.unhexDigit (Json.hexDigit (x / 16)) * 16 + Json.unhexDigit (Json.hexDigit (x % 16)) = x := by
  refine Json.forall_byte (p := fun x => Json.unhexDigit (Json.hexDigit (x / 16)) * 16 +
    Json.unhexDigit (Json.hexDigit (x % 16)) = x) ?_ x
  decide +kernel

theorem hexSum_injective : Function.Injective hexSum := by
  intro b
  induction b with
  | nil =>
    intro c h
    cases c with
    | nil => rfl
    | cons y c => simp [hexSum] at h
  | cons x b ih =>
    intro c h
    cases c with
    | nil => simp [hexSum] at h
    | cons y c =>
      simp only [hexSum,List.flatMap_cons,List.cons_append,List.nil_append,List.cons.injEq,
        true_and] at h
      have hxy : x = y := by rw [← unhex_hexDigit x,h.1,h.2.1,unhex_hexDigit]
      rw [hxy,ih (show hexSum b = hexSum c by simp [hexSum,h.2.2])]

theorem hexSum_ascii (b : Bytes) : ∀ x ∈ hexSum b, x < 0x80 := by
  have hdigit : ∀ x : UInt8, Json.hexDigit (x / 16) < 0x80 ∧ Json.hexDigit (x % 16) < 0x80 :=
    Json.forall_byte (by decide +kernel)
  intro x hx
  rcases List.mem_cons.mp hx with rfl | hx
  · decide
  · obtain ⟨y,-,hy⟩ := List.mem_flatMap.mp hx
    rcases List.mem_cons.mp hy with rfl | hy
    · exact (hdigit y).1
    · rw [List.mem_singleton.mp hy]
      exact (hdigit y).2

/-- Not an instance, so that results hold for every digest function. -/
@[reducible] def Sha256.hex : Sha256 where
  sum := hexSum
  injective := hexSum_injective
  wellFormed := Utf8.valid
  wellFormed_sum := fun b => Utf8.valid_of_ascii (hexSum_ascii b)
  valid_of_wellFormed := fun _ h => h
  sum_ne_nil := fun _ => by simp [hexSum]

end Flowy
