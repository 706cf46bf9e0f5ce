import Flowy.Child.Acts

/-! A child is dispatched at most once, after the commit that made it running, and no committed
group runs more children than its plan allows. -/
namespace Flowy

open Fencing
open scoped List

section Runs

variable {J W : Type} [Sha256] {clock : Time → Bool}

structure ChildSession (i : Nat) (cache : Option (ExecutionEnvelope J ChildGroups W)) (l : Launches) :
    Prop where
  positive : 0 < i
  launches : LaunchesOk cache l

omit [Sha256] in
theorem LaunchesOk.load {e : ExecutionEnvelope J ChildGroups W} {l : Launches}
    (h : LaunchesOk (none : Option (ExecutionEnvelope J ChildGroups W)) l) : LaunchesOk (some e) l := by
  have hcalls := h.unloaded rfl
  refine ⟨(fun h => by cases h),?_,h.mutex,h.idle⟩
  intro e' _ k c hk
  simp [hcalls] at hk

omit [Sha256] in
theorem createsNoGroups_children {e : ExecutionEnvelope J ChildGroups W} (h : createsNoGroups e = true) :
    e.children = ∅ := by
  simp only [createsNoGroups,Bool.and_eq_true,decide_eq_true_eq] at h
  exact h.1

theorem childAct_none {a : ChildAction J W} {i : Nat} {l : Launches} {act : ChildAct J W}
    (h : childAct clock a i none l = some act) :
    ∃ target, act = .commit target l l [] ∧ createsNoGroups target = true := by
  cases a with
  | other target =>
    simp only [childAct] at h
    split at h
    · rename_i hguard
      cases h
      exact ⟨target,rfl,hguard.2⟩
    · cases h
  | prepare | recover | begin | run | stop | receive | dispatch | skip | finish | mutate | decide =>
    simp [childAct] at h

theorem childRule : Rule (childProtocol J W clock) SoundGroups ChildSession (ChildLink clock) where
  fresh i hi := ⟨hi,⟨fun _ => rfl,(fun _ h => by cases h),(fun k launch p hk => by cases hk),
    fun _ => ⟨rfl,rfl⟩⟩⟩
  load i l e _ hJ := ⟨hJ.positive,hJ.launches.load⟩
  move a i c l l' ev hK hJ ha := by
    cases c with
    | none =>
      obtain ⟨target,hact,-⟩ := childAct_none ha
      cases hact
    | some e => exact ⟨hJ.positive,(childAct_ok hJ.positive (hK e rfl) hJ.launches ha).ok⟩
  commit a i c l la lf t ev hK hJ ha := by
    cases c with
    | none =>
      obtain ⟨target,hact,hempty⟩ := childAct_none ha
      cases hact
      exact ⟨⟨rfl,hempty⟩,⟨hJ.positive,hJ.launches.load⟩,hJ⟩
    | some e =>
      have hok := childAct_ok hJ.positive (hK e rfl) hJ.launches ha
      exact ⟨hok.link,⟨hJ.positive,hok.acked⟩,⟨hJ.positive,hok.failed⟩⟩
  first e hR identity g hg := by
    rw [createsNoGroups_children hR.2] at hg
    cases hg
  next e e' _ hR := hR.sound

end Runs

section Example

attribute [local instance] Sha256.hex

def samplePlan : ChildGroupPlan :=
  ⟨ascii "g",ascii "l",ascii "m",ascii "b",ascii "c",1,.collectErrors,
    [⟨ascii "b",some [],some ∅⟩,⟨ascii "a",some [],some ∅⟩]⟩

abbrev SampleEnvelope := ExecutionEnvelope (GoMap Text Unit) ChildGroups (GoMap Text Unit)

def sampleStart : SampleEnvelope :=
  prepareStart (ascii "x") .sample none (ascii "n") [] [] (newRunMetadata [] ⟨1⟩)

def launchScript : List (Command (ChildAction (GoMap Text Unit) (GoMap Text Unit))) :=
  [.acquire,.act 1 (.other sampleStart),.act 1 (.prepare samplePlan ∅),.act 1 (.recover 0),
    .act 1 (.begin 0),.act 1 (.run 0),.act 1 (.dispatch 0 0),
    .act 1 (.finish 0 0 ⟨.completed,[],[],[]⟩ none),.act 1 (.receive 0 0),
    .act 1 (.begin 0),.act 1 (.run 0),.act 1 (.dispatch 0 0)]

def sampleChildID (id : String) : Text :=
  childExecutionIdentity (ascii "x") (ascii "n") 1 (ascii "g") (ascii id)

end Example
end Flowy
