import Flowy.Graph.Runs

/-! Compiled graphs cannot get lost. The checks of `Compile` make every node that a run chooses next a
registered one, and the step limit makes the run return. -/
namespace Flowy

section Routing

variable {W A T E : Type}

/-- The point lies in the graph: no unknown node, no unknown target, and only an exempt node ends in the
open. -/
def Point.InGraph (g : Graph W A T) (exempt : Text → Bool) : Point W A T → Prop
  | .missing _ => False
  | .invoked node _ _ _ => (g.nodes.get? node).isSome = true
  | .applied node _ => (g.nodes.get? node).isSome = true
  | .stranded node => exempt node = true
  | .followed node _ target => (g.nodes.get? node).isSome = true ∧
      (target = endNode ∨ (g.nodes.get? target).isSome = true)

def Point.isInvoked : Point W A T → Bool
  | .invoked _ _ _ _ => true
  | .missing _ | .applied _ _ | .stranded _ | .followed _ _ _ => false

def invocations (points : List (Point W A T)) : Nat := points.countP Point.isInvoked

structure Segment.Stays (g : Graph W A T) (exempt : Text → Bool) (segment : Segment W A T E) : Prop where
  inside : ∀ p ∈ segment.points, p.InGraph g exempt
  bounded : (invocations segment.points : Int) ≤ g.defaults.maxSteps

theorem invocations_append (xs ys : List (Point W A T)) :
    invocations (xs ++ ys) = invocations xs + invocations ys := List.countP_append

theorem invocations_applied (node : Text) (base : Directive A) (points : List (Point W A T)) :
    invocations (.applied node base :: points) = invocations points := rfl

variable {g : Graph W A T} {exempt : Text → Bool}

theorem Routed.target {node target : Text} {base : Directive A} {count : Int} {route : Route}
    (hg : g.WellRouted exempt) (h : Routed g node base count route target) :
    target = endNode ∨ (g.nodes.get? target).isSome = true := by
  cases h with
  | edge completed found => exact hg.edge node target found
  | conditional completed found known => exact known
  | retry retries found within => exact .inr (hg.retry node target found)

theorem LastPoints.uninvoked {node : Text} {base : Directive A} {count : Int} {points : List (Point W A T)}
    (h : LastPoints g node base count points) : invocations points = 0 := by
  cases h with
  | none => rfl
  | stranded completed edge router => rfl
  | followed routed completed => rfl

theorem LastPoints.inGraph {node : Text} {base : Directive A} {count : Int} {points : List (Point W A T)}
    (hg : g.WellRouted exempt) (hnode : (g.nodes.get? node).isSome = true)
    (h : LastPoints g node base count points) : ∀ p ∈ points, p.InGraph g exempt := by
  intro p hp
  cases h with
  | none => cases hp
  | stranded completed edge router =>
    rw [List.mem_singleton.mp hp]
    -- a node that is not exempt has a static or a conditional edge
    show exempt node = true
    by_contra hexempt
    have hsome := hg.outgoing node hnode (Bool.not_eq_true _ ▸ hexempt)
    rw [edge,router] at hsome
    simp at hsome
  | followed routed completed =>
    rw [List.mem_singleton.mp hp]
    exact ⟨hnode,.inl rfl⟩

variable [AnyValue A E] {limit : Nat} {threadID : Text} {c c' : Cursor T E} {env env' : Env W T E}
  {points : List (Point W A T)}

theorem Visit.invocations_le {base : Option (Directive A)} (h : Visit g threadID c points c' base) :
    invocations points ≤ 1 ∧ c'.current = c.current := by
  cases h with
  | skipped => exact ⟨Nat.zero_le 1,rfl⟩
  | missing unregistered => exact ⟨Nat.zero_le 1,rfl⟩
  | ran registered current steps retries effects answered => exact ⟨le_refl 1,current⟩

theorem Visit.inGraph (exempt : Text → Bool) {base : Option (Directive A)}
    (hnode : (g.nodes.get? c.current).isSome = true) (h : Visit g threadID c points c' base) :
    ∀ p ∈ points, p.InGraph g exempt := by
  intro p hp
  cases h with
  | skipped => cases hp
  | missing unregistered =>
    rw [unregistered] at hnode
    cases hnode
  | ran registered current steps retries effects answered =>
    rw [List.mem_singleton.mp hp]
    exact hnode

structure TurnStays (g : Graph W A T) (exempt : Text → Bool) (limit : Nat) (c : Cursor T E) (turn : Turn T E)
    (points : List (Point W A T)) : Prop where
  inside : ∀ p ∈ points, p.InGraph g exempt
  counted : invocations points ≤ 1
  bounded : invocations points = 1 → c.runMeta.stepCount < limit
  next : ∀ c', turn = .again c' → (g.nodes.get? c'.current).isSome = true

theorem Turned.stays {turn : Turn T E} (hg : g.WellRouted exempt)
    (hnode : (g.nodes.get? c.current).isSome = true)
    (h : Turned g limit threadID c env ((turn,points),env')) : TurnStays g exempt limit c turn points := by
  cases h with
  | stopped visit bounded saved =>
    have hpoints := visit.inGraph exempt hnode
    have hcounted := visit.invocations_le.1
    refine ⟨hpoints,hcounted,fun hone => bounded ?_,nofun⟩
    intro hnil
    rw [hnil] at hone
    cases hone
  | finished visit bounded quiet enacted =>
    have hpoints := visit.inGraph exempt hnode
    obtain ⟨hcounted,hcurrent⟩ := visit.invocations_le
    cases enacted with
    | finish last saved exhausted unstored =>
      rw [hcurrent] at last ⊢
      have hlast := last.inGraph hg hnode
      constructor
      case inside =>
        intro p hp
        rw [List.mem_append,List.mem_cons] at hp
        obtain hp | rfl | hp := hp
        · exact hpoints p hp
        · exact hnode
        · exact hlast p hp
      case counted =>
        rw [invocations_append,invocations_applied,last.uninvoked]
        exact hcounted
      case bounded => exact fun _ => bounded
      case next => exact nofun
  | continued visit bounded quiet enacted =>
    have hpoints := visit.inGraph exempt hnode
    obtain ⟨hcounted,hcurrent⟩ := visit.invocations_le
    cases enacted with
    | proceed routed inside steps retries quiet' =>
      rw [hcurrent] at routed ⊢
      have htarget := routed.target hg
      constructor
      case inside =>
        intro p hp
        rw [List.mem_append,List.mem_cons,List.mem_singleton] at hp
        obtain hp | rfl | rfl := hp
        · exact hpoints p hp
        · exact hnode
        · exact ⟨hnode,htarget⟩
      case counted =>
        rw [invocations_append]
        exact hcounted
      case bounded => exact fun _ => bounded
      case next =>
        intro c'' hc
        cases hc
        cases routed with
        | edge completed found => exact htarget.resolve_left (inside nofun)
        | conditional completed found known => exact htarget.resolve_left (inside nofun)
        | retry counted found within => exact hg.retry _ _ found

theorem Run.stays {out : (ThreadResult T E × Option Err) × Env W T E} (hg : g.WellRouted exempt)
    (h : Run g limit threadID c env points out) (hnode : (g.nodes.get? c.current).isSome = true) :
    (∀ p ∈ points, p.InGraph g exempt) ∧
      (c.runMeta.stepCount ≤ limit → c.runMeta.stepCount + invocations points ≤ limit) := by
  induction h with
  | last turned =>
    have hstays := turned.stays hg hnode
    refine ⟨hstays.inside,fun hle => ?_⟩
    have hcounted := hstays.counted
    have hbounded := hstays.bounded
    omega
  | more turned run ih =>
    have hstays := turned.stays hg hnode
    obtain ⟨hrest,hlimit⟩ := ih (hstays.next _ rfl)
    obtain ⟨hsteps,hbelow⟩ := turned.again_steps
    constructor
    · intro p hp
      cases List.mem_append.mp hp with
      | inl hp => exact hstays.inside p hp
      | inr hp => exact hrest p hp
    · intro hle
      have hcounted := hstays.counted
      have hmore := hlimit (by omega)
      rw [invocations_append]
      omega

theorem Performed.stays {segment : Segment W A T E} {r : Runner W A T E} {opens : Cursor T E → Nat → Prop}
    (hg : r.graph.WellRouted exempt)
    (hopens : ∀ c revision, opens c revision →
      (r.graph.nodes.get? c.current).isSome = true ∧ c.runMeta.stepCount = 0)
    (h : Performed r.graph r.limit threadID opens env (segment,env')) : segment.Stays r.graph exempt := by
  have hlimit : (r.limit : Int) = r.graph.defaults.maxSteps := by
    have hpositive := hg.bounded
    simp only [Runner.limit,if_neg (not_le.mpr hpositive)]
    omega
  cases h with
  | refused quiet => exact ⟨nofun,le_of_lt hg.bounded⟩
  | ran opened quiet run kept =>
    obtain ⟨hnode,hsteps⟩ := hopens _ _ opened
    obtain ⟨hpoints,hbounded⟩ := run.stays hg hnode
    refine ⟨hpoints,?_⟩
    have hcount := hbounded (by omega)
    dsimp only
    omega

/-- Every `Start` and every `Resume` of a compiled graph returns, stays in the graph and invokes at most
`maxSteps` handlers. -/
theorem compiled_segments_stay_in_graph [Quoting] [Inhabited T] {b : GraphBuilder W A T}
    {opts : List BuildOption} (hcompile : b.compile opts = .ok g) (r : Runner W A T E) (hr : r.graph = g)
    (inv : Invocation W T) (sink : EventSink W T E) :
    (∀ threadID state env, ∃ segment env', r.start inv sink threadID state env = some (segment,env') ∧
      segment.Stays g b.exempt) ∧
    (∀ token env, ∃ segment env', r.resume inv sink token env = some (segment,env') ∧
      segment.Stays g b.exempt) := by
  subst hr
  have hg := GraphBuilder.compile_wellRouted hcompile
  constructor
  · intro threadID state env
    obtain ⟨⟨segment,env'⟩,hout,hperformed⟩ := r.start_performed inv sink threadID state env
    refine ⟨segment,env',hout,hperformed.stays hg fun c revision hc => ?_⟩
    exact ⟨by rw [hc.current]; exact hg.entry,hc.steps⟩
  · intro token env
    obtain ⟨⟨segment,env'⟩,hout,hperformed⟩ := r.resume_performed inv sink token env
    exact ⟨segment,env',hout,hperformed.stays hg fun c revision hc => ⟨hc.registered,hc.steps⟩⟩

end Routing

section Example

attribute [local instance] Quoting.plain AnyValue.numbers

def loopBuilder : GraphBuilder Unit Nat Nat :=
  (newGraph (some fun _ update => update)).calls
    [.addNode [110] (some fun ctx state w => (⟨.ok (state,.completed),ctx.budgets⟩,w)),
      .addEdge [110] [110],.setEntryPoint [110]]

def loopGraph : Graph Unit Nat Nat := loopBuilder.buildGraph (applyBuildOptions [.withMaxSteps 3])

def loopRunner : Runner Unit Nat Nat Nat := { refusedHandoff with graph := loopGraph }

def plainInvocation : Invocation Unit Nat := ⟨none,none,none,none,∅,∅,none,false,.hardFail⟩

theorem loop_compiles : loopBuilder.compile [.withMaxSteps 3] = .ok loopGraph := by
  have hclean : loopBuilder.collectCompileErrors = [] := by decide +kernel
  rw [GraphBuilder.compile,hclean]
  rfl

theorem loop_segment_stays : loopBuilder.compile [.withMaxSteps 3] = .ok loopGraph ∧
    ∃ segment env', loopRunner.start plainInvocation none [116] 0 ⟨(),fun _ => [],[]⟩ = some (segment,env') ∧
      segment.Stays loopGraph loopBuilder.exempt :=
  ⟨loop_compiles,(compiled_segments_stay_in_graph loop_compiles loopRunner rfl plainInvocation none).1 [116] 0
    ⟨(),fun _ => [],[]⟩⟩

-- the loop is stopped by its limit
example : (loopRunner.start plainInvocation none [116] 0 ⟨(),fun _ => [],[]⟩).map
    (fun out => (invocations out.1.points,out.1.err)) = some (3,some (.of .maxStepsExceeded)) := by decide +kernel

end Example
end Flowy
