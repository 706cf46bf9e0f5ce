import Flowy.Lib.Leased
import Flowy.Lifecycle

/-! What both execution stores share: their operations, retention requests, and the reading of a
store as a leased history. -/
namespace Flowy

open Leased

structure ExecutionRetentionPolicy where
  label : Text
  keepLast : Int
  deletePayload : Bool
  protectedRevisions : List Nat
deriving DecidableEq, Repr

structure ExecutionRetentionRequest where
  executionID : Text
  revision : Nat
  policy : ExecutionRetentionPolicy
deriving DecidableEq, Repr

structure ExecutionRetentionReceipt where
  executionID : Text
  revision : Nat
  deletedRevisions : Nat
  deletedBytes : Nat
deriving DecidableEq, Repr

/-- The loop over the protected revisions: increasing, from one, at most `revision`. -/
def validProtectedRevisions (revision : Nat) : Nat → List Nat → Bool
  | _, [] => true
  | prior, r :: rest => r != 0 && r ≤ revision && r != prior && validProtectedRevisions revision r rest

theorem validProtectedRevisions_bounds {revision prior : Nat} {rs : List Nat}
    (h : validProtectedRevisions revision prior rs = true) : ∀ r ∈ rs, r ≠ 0 ∧ r ≤ revision := by
  induction rs generalizing prior with
  | nil => simp
  | cons r rest ih =>
    simp only [validProtectedRevisions,Bool.and_eq_true,bne_iff_ne,decide_eq_true_eq] at h
    obtain ⟨⟨⟨hne,hle⟩,-⟩,hrest⟩ := h
    intro r' hr'
    rcases List.mem_cons.mp hr' with rfl | hr'
    · exact ⟨hne,hle⟩
    · exact ih hrest r' hr'

def ExecutionRetentionRequest.validate (request : ExecutionRetentionRequest) : Result Unit := do
  let p := request.policy
  require (request.executionID != [] && validRuntimeText [request.executionID,p.label] &&
    request.revision != 0 && p.label != [] && !(p.keepLast < 0) &&
    decide (p.protectedRevisions.Pairwise (· ≤ ·))) .executionLifecycleUnsafe
  require (!(p.deletePayload && (p.keepLast != 0 || !p.protectedRevisions.isEmpty)))
    .executionLifecycleUnsafe
  require (validProtectedRevisions request.revision 0 p.protectedRevisions) .executionLifecycleUnsafe

def executionRevisionRetained (request : ExecutionRetentionRequest) (revision : Nat) : Bool :=
  if request.policy.deletePayload then false
  else if revision == request.revision || request.policy.protectedRevisions.contains revision then true
  else if request.policy.keepLast < 0 then false
  else revision ≤ request.revision &&
    ((request.revision : Int) - revision < request.policy.keepLast)

inductive StoreOp
  | acquire (executionID owner : Text) (ttl : Duration)
  | renew (lease : ExecutionLease) (ttl : Duration)
  | release (lease : ExecutionLease)
  | commit (expectedRevision : Nat) (lease : ExecutionLease) (envelope : RawEnvelope)
  | rollover (lease : ExecutionLease) (source : HistoricalCheckpointReference) (target : SealedEnvelope)
  | retain (request : ExecutionRetentionRequest)

inductive StoreReply
  | lease (lease : ExecutionLease)
  | released
  | envelope (x : SealedEnvelope)
  | rolledOver (receipt : RolloverReceipt)
  | retained (receipt : ExecutionRetentionReceipt)

def StoreOp.lease? : StoreOp → Option ExecutionLease
  | .renew lease _ | .release lease | .commit _ lease _ | .rollover lease _ _ => some lease
  | .acquire _ _ _ | .retain _ => none

/-- What an operation and its reply mean for the leased history; a failed operation means nothing. -/
def StoreOp.event : StoreOp → Result StoreReply → Event Text Text
  | .acquire id owner _, .ok (.lease l) => .acquired id owner l.incarnation
  | .renew l _, .ok _ => .renewed l.executionID l.owner l.incarnation
  | .release l, .ok _ => .released l.executionID l.owner l.incarnation
  | .commit _ l _, .ok _ => .committed l.executionID l.owner l.incarnation
  | .rollover l _ t, .ok _ => .transferred l.executionID l.owner l.incarnation t.envelope.executionID
  | .retain request, .ok _ => .retained request.executionID
  | _, _ => .refused

/-- A store: transactions are atomic, so an operation is a function of the state, its arguments and
its readings of the storage clock. -/
structure Store where
  State : Type
  init : State
  step : (Nat → Time) → StoreOp → State → State × Result StoreReply
  view : State → Leased.State Text Text Time SealedEnvelope

inductive Store.Steps (M : Store) (s₀ : M.State) : List (StoreOp × Result StoreReply) → M.State → Prop
  | refl : M.Steps s₀ [] s₀
  | step {tr : List (StoreOp × Result StoreReply)} {s : M.State} (clock : Nat → Time) (op : StoreOp) :
      M.Steps s₀ tr s → M.Steps s₀ (tr ++ [(op,(M.step clock op s).2)]) (M.step clock op s).1

abbrev Store.Run (M : Store) (tr : List (StoreOp × Result StoreReply)) (s : M.State) : Prop :=
  M.Steps M.init tr s

def Store.script (M : Store) : List ((Nat → Time) × StoreOp) → M.State → M.State
  | [], s => s
  | (clock,op) :: rest, s => M.script rest (M.step clock op s).1

theorem Store.Steps.of_script {M : Store} {s₀ s : M.State} {tr : List (StoreOp × Result StoreReply)}
    (ops : List ((Nat → Time) × StoreOp)) (h : M.Steps s₀ tr s) :
    ∃ tr', M.Steps s₀ tr' (M.script ops s) := by
  induction ops generalizing tr s with
  | nil => exact ⟨tr,h⟩
  | cons op ops ih => exact ih (.step op.1 op.2 h)

def events (tr : List (StoreOp × Result StoreReply)) : List (Event Text Text) :=
  tr.map fun r => r.1.event r.2

/-- A transaction either commits a new state with its reply or leaves everything as it was. -/
def transact {S α : Type} (s : S) (tx : Result (S × α)) (reply : α → StoreReply) :
    S × Result StoreReply :=
  match tx with
  | .ok (s',a) => (s',.ok (reply a))
  | .error err => (s,.error err)

section Sample

def sampleChecks : PayloadChecks :=
  ⟨fun _ => .ok (),fun _ => .ok (),fun _ => .ok (0,[],0),fun _ => .ok ()⟩

def sampleLease : ExecutionLease := ⟨ascii "x",ascii "w",1,⟨1001⟩⟩

def rawStart (id : Text) (profile : Option WaitCapabilityProfile) : RawEnvelope :=
  { prepareStart (J := GoMap Text Unit) (C := GoMap Text Unit) (W := GoMap Text Unit) id .sample profile
      (ascii "n") [] [] (newRunMetadata (ascii "s") ⟨1⟩) with
    journal := [], children := [], waits := [] }

end Sample
end Flowy
