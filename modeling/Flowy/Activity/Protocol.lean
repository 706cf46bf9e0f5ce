import Flowy.Lib.Fencing
import Flowy.Activity.Resolution

/-! Activity calls as sessions over the fenced log. A session runs any number of calls under one
mutex, or is the session of one manual resolution; every other commit of the runtime is taken to
keep the journal. The trace records acknowledged running attempts and invocations of the host. -/
namespace Flowy

open Fencing

/-- One `CallActivity` in flight: `holding` keeps the mutex between its two commits, `committed`
has its running attempt acknowledged but has not yet invoked the dispatcher. -/
inductive Call
  | idle
  | holding (journal : Journal) (record : ActivityRecord)
  | committed (identity : Text) (attempt : Nat)
  | dispatching (identity : Text) (attempt : Nat)
  | reconciling (identity : Text)
  | done

structure Calls where
  call : Nat → Call
  lock : Option Nat
  use : SessionUse

def Calls.initial : Calls := ⟨fun _ => .idle,none,.unused⟩

def Calls.set (l : Calls) (k : Nat) (c : Call) : Calls := ⟨Function.update l.call k c,none,.calls⟩

def Calls.hold (l : Calls) (k : Nat) (c : Call) : Calls := ⟨Function.update l.call k c,some k,.calls⟩

inductive ActivityEvent
  | intent (session call : Nat) (identity : Text) (attempt revision : Nat)
  | dispatch (session call : Nat) (identity : Text) (attempt : Nat)
deriving DecidableEq

inductive ActivityAction (C W : Type)
  | call (k : Nat) (request : ActivityRequest) (now started : Time)
  | run (k : Nat) (started : Time)
  | dispatch (k : Nat)
  | finish (k : Nat) (callback : Callback) (now : Time) (sample : Option Nat)
  | reconcile (k : Nat) (payload : Option Bytes) (now : Time)
  | resolve (resolution : ActivityResolution) (now : Time) (sample : Option Nat)
  | other (target : ExecutionEnvelope Journal C W)

section Acts

variable [Sha256] {C W : Type}

/-- Persist a record: a refused record ends the call without reaching storage. -/
def persistAct (e : ExecutionEnvelope Journal C W) (journal : Journal) (record : ActivityRecord)
    (acked failed : Calls) (events : List ActivityEvent) :
    Act (ExecutionEnvelope Journal C W) Calls ActivityEvent :=
  match persistActivity e journal record with
  | .error _ => .move failed []
  | .ok target => .commit target acked failed events

def startAct (i k : Nat) (e : ExecutionEnvelope Journal C W) (l : Calls) (journal : Journal)
    (record : ActivityRecord) (started : Time) :
    Act (ExecutionEnvelope Journal C W) Calls ActivityEvent :=
  persistAct e journal (startAttempt i started record)
    (l.set k (.committed record.identity (record.attempts.length + 1))) (l.set k .done)
    [.intent i k record.identity (record.attempts.length + 1) (e.revision + 1)]

def callAct (i k : Nat) (e : ExecutionEnvelope Journal C W) (l : Calls) (request : ActivityRequest)
    (now started : Time) : Act (ExecutionEnvelope Journal C W) Calls ActivityEvent :=
  match request.check with
  | .error _ => .move (l.set k .done) []
  | .ok () =>
    match callActivity i e request now with
    | .ret _ => .move (l.set k .done) []
    | .prepare journal record =>
      persistAct e journal record (l.hold k (.holding (journal.set record.identity record) record))
        (l.set k .done) []
    | .start journal record => startAct i k e l journal record started
    | .abandon journal record =>
      persistAct e journal (abandonAttempt record)
        (l.set k (if request.reconcile then .reconciling record.identity else .done))
        (l.set k .done) []
    | .reconcile record => .move (l.set k (.reconciling record.identity)) []

def finishAct (k : Nat) (e : ExecutionEnvelope Journal C W) (l : Calls) (identity : Text)
    (callback : Callback) (origin : ActivityOrigin) (now : Time) (sample : Option Nat) :
    Act (ExecutionEnvelope Journal C W) Calls ActivityEvent :=
  match finishActivity e identity callback origin now sample with
  | .error _ | .ok (.inl _) => .move (l.set k .done) []
  | .ok (.inr (journal,record)) => persistAct e journal record (l.set k .done) (l.set k .done) []

def resolveActivityTarget (i : Nat) (e : ExecutionEnvelope Journal C W)
    (resolution : ActivityResolution) (now : Time) (sample : Option Nat) :
    Result (ExecutionEnvelope Journal C W) := do
  resolution.check
  let (journal,record) ← resolutionActivityRecord e resolution
  prepareActivityResolutionTarget i e journal record resolution now sample

def activityAct (a : ActivityAction C W) (i : Nat) (cache : Option (ExecutionEnvelope Journal C W))
    (l : Calls) : Option (Act (ExecutionEnvelope Journal C W) Calls ActivityEvent) :=
  match a, cache with
  | .other target, cache =>
    if l.lock = none ∧ target.journal = cache.elim ∅ (fun e => e.journal) then
      some (.commit target l l [])
    else none
  | .call k request now started, some e =>
    match l.call k with
    | .idle =>
      if l.lock = none ∧ l.use ≠ .resolution then some (callAct i k e l request now started) else none
    | _ => none
  | .run k started, some e =>
    match l.call k with
    | .holding journal record => some (startAct i k e l journal record started)
    | _ => none
  | .dispatch k, some _ =>
    match l.call k with
    -- the host runs outside the mutex
    | .committed identity attempt =>
      some (.move { l with call := Function.update l.call k (.dispatching identity attempt) }
        [.dispatch i k identity attempt])
    | _ => none
  | .finish k callback now sample, some e =>
    match l.call k with
    | .dispatching identity _ =>
      if l.lock = none then
        some (finishAct k e l identity callback (activityDispatchOrigin e) now sample)
      else none
    | _ => none
  | .reconcile k payload now, some e =>
    match l.call k, payload with
    | .reconciling identity, some payload =>
      if l.lock = none then some (finishAct k e l identity (.returned payload) .reconciled now none)
      else none
    | .reconciling _, none =>
      some (.move { l with call := Function.update l.call k .done } [])
    | _, _ => none
  | .resolve resolution now sample, some e =>
    if l.use = .unused then
      match resolveActivityTarget i e resolution now sample with
      | .error _ => some (.move { l with use := .resolution } [])
      | .ok target => some (.commit target { l with use := .resolution } { l with use := .resolution } [])
    else none
  | _, none => none

/-- The activity protocol; the store's seal shows here as the revision it assigns. -/
def activityProtocol (C W : Type) :
    Protocol (ExecutionEnvelope Journal C W) Calls (ActivityAction C W) ActivityEvent where
  revision := fun e => e.revision
  stamp := fun n e => { e with revision := n }
  revision_stamp := fun _ _ => rfl
  fresh := .initial
  act := activityAct

end Acts
end Flowy
