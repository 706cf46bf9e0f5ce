import Flowy.Checkpoint
import Flowy.Child.AtMostOnce
import Flowy.Activity.AtMostOnce
import Flowy.Activity.Readmit

/-! What the runtime publishes, its next reader admits. The operations on activities and children
check their own records at most; that the whole collection still passes its validator at the next
revision is shown here. -/
namespace Flowy

open Fencing

section Activities

variable [Sha256] {T E : Type}

/-- Every commit of a session that calls or resolves activities, and every step of the execution
that carries the journal. -/
theorem activity_journal_readmitted (codecs : Codecs T E) {clock : Time → Bool}
    (hclock : ∀ t, clock t = true → t.isZero = false) {s : State Execution Calls ActivityEvent}
    (hs : Reachable (activityProtocol ChildGroups Waits) s) {i : Nat} {e target : Execution} {l : Calls}
    (hx : s.session i = some ⟨some e,l⟩) {journal : Journal} (h : executionActivityJournal e = .ok journal)
    (hduration : ∀ id r, e.journal.get? id = some r → r.retry.schedule.maxDelay < 2 ^ 63)
    (hop : (∃ a la lf ev, a.clocked clock = true ∧ (∀ t, a ≠ .other t) ∧
        activityAct a i (some e) l = some (.commit target la lf ev)) ∨
      CheckpointCommit codecs e target) :
    executionActivityJournal { target with revision := e.revision + 1 } = .ok target.journal := by
  obtain ⟨-,hadm⟩ := executionActivityJournal_iff.mp h
  refine executionActivityJournal_iff.mpr ⟨rfl,?_⟩
  rcases hop with ⟨a,la,lf,ev,hc,hother,hact⟩ | hop
  · have hholds := activityRule.reachable hs
    have hmem : e ∈ s.log := hs.sound.cached i _ e hx rfl
    have hK := hholds.entry e hmem
    obtain ⟨k,hk⟩ := List.getElem?_of_mem hmem
    have hrev : e.revision = k + 1 := hs.sound.stamped k e hk
    rcases activityAct_commit hK (hholds.session i _ hx) hc hact with ⟨ho,-⟩ | hcommit
    · exact (hother target ho).elim
    · exact hcommit.admitted hK (hs.sound.issued i _ hx).1 (by omega) hclock hduration hadm
        (decisions_past hs e hmem)
  · obtain ⟨hres,hcar⟩ := hop.carried
    exact hcar.admittedJournal hres (Nat.le_succ _)

end Activities

section Children

variable [Sha256] {T E : Type}

/-- Every commit of the child runtime, and every step of the execution that carries the groups. -/
theorem child_groups_readmitted (codecs : Codecs T E) {clock : Time → Bool} {i : Nat} {e target : Execution}
    {groups : ChildGroups} (hclock : ∀ t, clock t = true → t.isZero = false) (hi : 0 < i)
    (hrev : 0 < e.revision) (h : executionChildGroups e = .ok groups)
    (hop : (∃ identity scope, ChildOperation clock i e identity scope target) ∨
      CheckpointCommit codecs e target) :
    executionChildGroups { target with revision := e.revision + 1 } = .ok target.children := by
  obtain ⟨-,hadm⟩ := executionChildGroups_iff.mp h
  refine executionChildGroups_iff.mpr ⟨rfl,?_⟩
  rcases hop with ⟨identity,scope,hop⟩ | hop
  · exact hop.commit.admitted hi hrev hclock hadm
  · obtain ⟨hres,hcar⟩ := hop.carried
    exact hcar.admittedGroups hres (Nat.le_succ _)

end Children

section Example

attribute [local instance] Sha256.hex

def startedExecution : Execution :=
  { prepareStart (ascii "x") .sample none (ascii "n") [] [] (newRunMetadata [] ⟨1⟩) with revision := 1 }

def readmissionScript : List (Command (ActivityAction ChildGroups Waits)) :=
  [.acquire,.act 1 (.other startedExecution),.act 1 (.call 0 sampleRequest ⟨1⟩ ⟨1⟩)]

def startsAttempt (s : State Execution Calls ActivityEvent) : Bool :=
  (s.session 1).any fun x => x.cache.any fun e =>
    (executionActivityJournal e).isOk &&
    e.journal.all (fun _ r => r.retry.schedule.maxDelay < 2 ^ 63) &&
    match activityAct (.run 0 ⟨2⟩) 1 (some e) x.loc with
    | some (.commit t _ _ _) => t.journal != e.journal
    | _ => false

theorem readmissionScript_startsAttempt :
    ((activityProtocol ChildGroups Waits).script readmissionScript).any startsAttempt = true := by
  decide +kernel

def unitCodecs : Codecs Unit Unit := ⟨fun _ => .ok [],fun _ => .ok (),fun _ => .ok [],fun _ => .ok []⟩

theorem activity_journal_readmitted_when_started :
    ∃ (s : State Execution Calls ActivityEvent) (e t : Execution) (l la lf : Calls)
      (ev : List ActivityEvent), Reachable (activityProtocol ChildGroups Waits) s ∧
      s.session 1 = some ⟨some e,l⟩ ∧
      activityAct (.run 0 ⟨2⟩) 1 (some e) l = some (.commit t la lf ev) ∧ t.journal ≠ e.journal ∧
      executionActivityJournal { t with revision := e.revision + 1 } = .ok t.journal := by
  obtain ⟨s,hs,hok⟩ := (Option.any_eq_true _ _).mp readmissionScript_startsAttempt
  obtain ⟨⟨c,l⟩,hx,hok⟩ := (Option.any_eq_true _ _).mp hok
  obtain ⟨e,rfl,hok⟩ := (Option.any_eq_true _ _).mp hok
  simp only [Bool.and_eq_true,GoMap.all_iff,decide_eq_true_eq] at hok
  obtain ⟨⟨hok,hduration⟩,hcommit⟩ := hok
  obtain ⟨journal,hread⟩ : ∃ journal, executionActivityJournal e = .ok journal := by
    cases hread : executionActivityJournal e with
    | error err => simp [hread,Except.isOk,Except.toBool] at hok
    | ok journal => exact ⟨journal,rfl⟩
  split at hcommit
  · rename_i t la lf ev hact
    refine ⟨s,e,t,l,la,lf,ev,.of_script hs,hx,hact,by simpa using hcommit,?_⟩
    exact activity_journal_readmitted unitCodecs
      (fun t (h : (!t.isZero) = true) => by simpa using h) (.of_script hs) hx hread hduration
      (.inl ⟨_,la,lf,ev,rfl,(fun _ h => by cases h),hact⟩)
  · cases hcommit

/-- A record that no run writes: it waits for an outcome that an operator has already decided. -/
def decidedRecord : ActivityRecord :=
  { prepareActivity startedExecution sampleRequest with
    state := .unknown, classification := some .ambiguous
    attempts := [⟨1,1,.unknown,[],some .ambiguous,⟨1⟩,none,.zero⟩]
    resolutions := [⟨ascii "d1",1,.complete,.unknown,1,1,ascii "r",ascii "e",[],none,⟨2⟩⟩] }

def decidedExecution : Execution :=
  { startedExecution with revision := 2, journal := GoMap.set ∅ decidedRecord.identity decidedRecord }

def secondDecision : ActivityResolution :=
  ⟨decidedRecord.identity,decidedRecord.inputDigest,decidedRecord.implementation,ascii "d2",.complete,
    ascii "r",ascii "e",[],[],.zero⟩

/-- The validator admits the record, the resolution commits, and the result is corrupt. -/
theorem decided_record_not_readmitted :
    executionActivityJournal decidedExecution = .ok decidedExecution.journal ∧
      ∃ t, resolveActivityTarget 1 decidedExecution secondDecision ⟨3⟩ none = .ok t ∧
        executionActivityJournal { t with revision := decidedExecution.revision + 1 } =
          fail .executionCorrupt := by
  refine ⟨by decide +kernel,?_⟩
  have hok : (resolveActivityTarget 1 decidedExecution secondDecision ⟨3⟩ none).toOption.any
      (fun t => decide (executionActivityJournal { t with revision := 3 } = fail .executionCorrupt)) =
        true := by
    decide +kernel
  obtain ⟨t,ht,hbad⟩ := exists_of_toOption_any hok
  exact ⟨t,ht,of_decide_eq_true hbad⟩

theorem child_groups_readmitted_when_prepared :
    ∃ g t, prepareChildren startedExecution samplePlan ∅ = .ok (g,some t) ∧ t.children ≠ ∅ ∧
      executionChildGroups { t with revision := 2 } = .ok t.children := by
  have hsome : (prepareChildren startedExecution samplePlan ∅).toOption.any
      (fun p => p.2.any fun t => decide (t.children ≠ ∅)) = true := by
    decide +kernel
  obtain ⟨⟨g,t⟩,hp,hany⟩ := exists_of_toOption_any hsome
  obtain ⟨t,rfl,hne⟩ := (Option.any_eq_true _ _).mp hany
  have hstart : executionChildGroups startedExecution = .ok ∅ := by decide +kernel
  have hread := child_groups_readmitted unitCodecs
    (fun t (h : (!t.isZero) = true) => by simpa using h) Nat.one_pos
    (show 0 < startedExecution.revision from Nat.one_pos) hstart
    (.inl ⟨_,_,.prepare samplePlan ∅ g t hp⟩)
  exact ⟨g,t,hp,of_decide_eq_true hne,hread⟩

end Example
end Flowy
