import Flowy.Graph.Directive

/-! Graphs of ordinary runs: the builder, the checks of `Compile` and what a compiled graph guarantees.
Host callbacks are arbitrary functions that read and change a world `W`, so a node may answer
differently each time it runs. -/
namespace Flowy

/-- What `%q` prints for a text. -/
class Quoting where
  quoted : Text → Text

/-- The values a handler finds in its context; `UseBudget` changes the budget counters in place. -/
structure NodeContext where
  threadID : Text
  nodeName : Text
  budgets : GoMap Text Int

structure NodeReturn (A T : Type) where
  answer : Result (T × Directive A)
  budgets : GoMap Text Int

abbrev Node (W A T : Type) := NodeContext → T → W → NodeReturn A T × W

structure RouterReturn where
  answer : Result Text
  budgets : GoMap Text Int

/-- Returns the next node for a completed node; it runs in the context of that node. -/
abbrev EdgeRouter (W T : Type) := NodeContext → T → W → RouterReturn × W

abbrev NodeMiddleware (W A T : Type) := Node W A T → Node W A T

def endNode : Text := ascii "__end__"

def defaultMaxSteps : Int := 1000

structure RunConfig where
  maxSteps : Int
  deleteOnSuccess : Bool
  retentionLimit : Int
  budgetLimits : GoMap Text Int

inductive BuildOption
  | withMaxSteps (limit : Int)
  | withNamedBudget (name : Text) (limit : Int)
  | withDeleteOnSuccess (enabled : Bool)
  | withRetentionLimit (limit : Int)

def BuildOption.apply (o : RunConfig) : BuildOption → RunConfig
  | .withMaxSteps limit => { o with maxSteps := limit }
  | .withNamedBudget name limit => { o with budgetLimits := o.budgetLimits.set name limit }
  | .withDeleteOnSuccess enabled => { o with deleteOnSuccess := enabled }
  | .withRetentionLimit limit => { o with retentionLimit := limit }

def applyBuildOptions (opts : List BuildOption) : RunConfig :=
  let o := opts.foldl BuildOption.apply ⟨defaultMaxSteps,false,0,∅⟩
  if o.maxSteps ≤ 0 then { o with maxSteps := defaultMaxSteps } else o

theorem applyBuildOptions_pos (opts : List BuildOption) : 0 < (applyBuildOptions opts).maxSteps := by
  unfold applyBuildOptions
  simp only
  split
  · simp [defaultMaxSteps]
  · omega

/-- A router and its declared targets; a nil router is `none`. -/
structure ConditionalEdgeDef (W T : Type) where
  router : Option (EdgeRouter W T)
  allowed : List Text

structure GraphBuilder (W A T : Type) where
  reducer : Option (T → T → T)
  nodes : GoMap Text (Option (Node W A T))
  edges : GoMap Text Text
  conditionalEdges : GoMap Text (ConditionalEdgeDef W T)
  retryRoutes : GoMap Text Text
  middlewares : List (Option (NodeMiddleware W A T))
  entryPoint : Text
  overwrittenNodes : GoMap Text Bool
  overwrittenEdgeFrom : GoMap Text Bool
  overwrittenRouterFrom : GoMap Text Bool
  overwrittenRetryFrom : GoMap Text Bool
  noOutgoingRoute : GoMap Text Bool

structure Graph (W A T : Type) where
  nodes : GoMap Text (Node W A T)
  edges : GoMap Text Text
  conditionalEdges : GoMap Text (EdgeRouter W T)
  conditionalAllowed : GoMap Text (List Text)
  retryRoutes : GoMap Text Text
  entryPoint : Text
  reducer : T → T → T
  defaults : RunConfig

inductive BuilderCall (W A T : Type)
  | allowNoOutgoingRoute (name : Text)
  | addNode (name : Text) (fn : Option (Node W A T))
  | addEdge (source target : Text)
  | addConditionalEdge (source : Text) (router : Option (EdgeRouter W T)) (allowedTargets : List Text)
  | addRetryRoute (source fallback : Text)
  | use (middlewares : List (Option (NodeMiddleware W A T)))
  | setEntryPoint (name : Text)

section Build

variable {W A T : Type}

def newGraph (reducer : Option (T → T → T)) : GraphBuilder W A T :=
  ⟨reducer,∅,∅,∅,∅,[],[],∅,∅,∅,∅,∅⟩

namespace GraphBuilder

def mark (present : Bool) (name : Text) (marks : GoMap Text Bool) : GoMap Text Bool :=
  if present then marks.set name true else marks

def call (b : GraphBuilder W A T) : BuilderCall W A T → GraphBuilder W A T
  | .allowNoOutgoingRoute name => { b with noOutgoingRoute := b.noOutgoingRoute.set name true }
  | .addNode name fn => { b with
      overwrittenNodes := mark (b.nodes.get? name).isSome name b.overwrittenNodes
      nodes := b.nodes.set name fn }
  | .addEdge source target => { b with
      overwrittenEdgeFrom := mark (b.edges.get? source).isSome source b.overwrittenEdgeFrom
      edges := b.edges.set source target }
  | .addConditionalEdge source router allowedTargets => { b with
      overwrittenRouterFrom := mark (b.conditionalEdges.get? source).isSome source b.overwrittenRouterFrom
      conditionalEdges := b.conditionalEdges.set source ⟨router,allowedTargets⟩ }
  | .addRetryRoute source fallback => { b with
      overwrittenRetryFrom := mark (b.retryRoutes.get? source).isSome source b.overwrittenRetryFrom
      retryRoutes := b.retryRoutes.set source fallback }
  | .use middlewares => { b with middlewares := b.middlewares ++ middlewares }
  | .setEntryPoint name => { b with entryPoint := name }

def calls (b : GraphBuilder W A T) (cs : List (BuilderCall W A T)) : GraphBuilder W A T := cs.foldl call b

/-- `b.noOutgoingRoute[name]`. -/
def exempt (b : GraphBuilder W A T) (name : Text) : Bool := (b.noOutgoingRoute.get? name).getD false

end GraphBuilder

def wrapNodeWithMiddlewares (node : Node W A T) (middlewares : List (Option (NodeMiddleware W A T))) :
    Node W A T :=
  middlewares.foldr (fun mw wrapped => mw.elim wrapped fun mw => mw wrapped) node

section Checks

variable [Quoting]

def naming (before : String) (name : Text) (after : String) : Err :=
  ⟨ascii before ++ Quoting.quoted name ++ ascii after,[]⟩

def naming₂ (before : String) (name : Text) (between : String) (other : Text) : Err :=
  ⟨ascii before ++ Quoting.quoted name ++ ascii between ++ Quoting.quoted other,[]⟩

namespace GraphBuilder

variable (b : GraphBuilder W A T)

def forEach {V : Type} (m : GoMap Text V) (f : Text → V → List Err) : List Err :=
  m.entries.flatMap fun e => f e.1 e.2

def registered (name : Text) : Bool := (b.nodes.get? name).isSome

def validateOverwriteConflicts : List Err :=
  forEach b.overwrittenNodes (fun name _ => [naming "flowy: node " name " registered more than once"]) ++
  forEach b.overwrittenEdgeFrom (fun name _ =>
    [naming "flowy: edge from " name " registered more than once"]) ++
  forEach b.overwrittenRouterFrom (fun name _ =>
    [naming "flowy: conditional edge from " name " registered more than once"]) ++
  forEach b.overwrittenRetryFrom (fun name _ =>
    [naming "flowy: retry route from " name " registered more than once"])

def validateTopology : List Err :=
  (if b.reducer.isNone then [⟨ascii "flowy: reducer must not be nil",[]⟩] else []) ++
  (if b.entryPoint = [] then [⟨ascii "flowy: entry point not set",[]⟩]
   else if b.registered b.entryPoint then []
   else [naming "flowy: entry point " b.entryPoint " is not a registered node"])

def referenced : List Text :=
  ((b.edges.entries.flatMap fun e => if e.2 = endNode then [e.1] else [e.1,e.2]) ++
    (b.conditionalEdges.entries.map fun e => e.1) ++ b.nodes.entries.map fun e => e.1).dedup

def validateReferences : List Err :=
  b.referenced.flatMap fun name =>
    if name = [] then [⟨ascii "flowy: node name must not be empty",[]⟩]
    else if name = endNode then []
    else if b.registered name then []
    else [naming "flowy: node " name " not registered"]

def validateHandlers : List Err :=
  forEach b.nodes (fun name handler =>
    (if name = endNode then [naming "flowy: node " name " is reserved for terminal routing"] else []) ++
    if handler.isNone then [naming "flowy: node " name " has nil handler"] else []) ++
  forEach b.conditionalEdges (fun source edge =>
    if edge.router.isNone then [naming "flowy: conditional edge from " source " has nil router"] else [])

def validateRoutingConflicts : List Err :=
  forEach b.edges fun source _ =>
    if (b.conditionalEdges.get? source).isSome then
      [naming "flowy: node " source " has both edge and conditional edge"]
    else []

def validateOutgoingRoutes : List Err :=
  forEach b.nodes fun name _ =>
    if b.exempt name then []
    else if (b.edges.get? name).isNone && (b.conditionalEdges.get? name).isNone then
      [naming "flowy: node " name
        " has no outgoing edge or conditional edge (required for Completed() routing)"]
    else []

def validateConditionalAllowedTargets : List Err :=
  forEach b.conditionalEdges fun source edge =>
    if edge.allowed = [] then
      [naming "flowy: conditional edge from " source " requires allowedTargets at compile time"]
    else edge.allowed.dedup.flatMap fun target =>
      if target = endNode then []
      else if b.registered target then []
      else [naming₂ "flowy: conditional edge from " source " allows unknown target " target]

def validateRetryRoutes : List Err :=
  forEach b.retryRoutes fun source fallback =>
    (if b.registered source then []
     else [naming "flowy: retry route source " source " is not registered"]) ++
    if fallback = [] then [naming "flowy: retry route from " source " has empty fallback"]
    else if b.registered fallback then []
    else [naming₂ "flowy: retry route from " source " references unknown fallback " fallback]

def validateNoOutgoingRouteMisuse : List Err :=
  forEach b.noOutgoingRoute fun name _ =>
    (if (b.edges.get? name).isSome then
      [naming "flowy: node " name " has AllowNoOutgoingRoute but also has a static edge"] else []) ++
    if (b.conditionalEdges.get? name).isSome then
      [naming "flowy: node " name " has AllowNoOutgoingRoute but also has a conditional edge"] else []

def validateNoOutgoingRouteReferences : List Err :=
  forEach b.noOutgoingRoute fun name _ =>
    if b.registered name then [] else [naming "flowy: AllowNoOutgoingRoute for unknown node " name ""]

def validateRetryRouteExemptions : List Err :=
  forEach b.retryRoutes fun source _ =>
    if b.exempt source then []
    else [naming "flowy: node " source
      " has AddRetryRoute but is not exempt via AllowNoOutgoingRoute"]

def collectCompileErrors : List Err :=
  b.validateOverwriteConflicts ++ b.validateTopology ++ b.validateReferences ++ b.validateHandlers ++
    b.validateRoutingConflicts ++ b.validateOutgoingRoutes ++ b.validateConditionalAllowedTargets ++
    b.validateRetryRoutes ++ b.validateNoOutgoingRouteMisuse ++ b.validateNoOutgoingRouteReferences ++
    b.validateRetryRouteExemptions

omit [Quoting] in
/-- Nil handlers, routers and reducers never get here: `Compile` refuses them. -/
def buildGraph (o : RunConfig) : Graph W A T where
  nodes := b.nodes.mapValues fun handler => wrapNodeWithMiddlewares
    (handler.getD fun ctx _ w => (⟨.error ⟨[],[]⟩,ctx.budgets⟩,w)) b.middlewares
  edges := b.edges
  conditionalEdges := b.conditionalEdges.mapValues fun edge =>
    edge.router.getD fun ctx _ w => (⟨.ok [],ctx.budgets⟩,w)
  conditionalAllowed := (b.conditionalEdges.filter fun _ edge => edge.allowed ≠ []).mapValues
    fun edge => edge.allowed
  retryRoutes := b.retryRoutes
  entryPoint := b.entryPoint
  reducer := b.reducer.getD fun current _ => current
  defaults := o

def compile (opts : List BuildOption) : Result (Graph W A T) :=
  match b.collectCompileErrors.insertionSort fun x y => x.message ≤ y.message with
  | [] => .ok (b.buildGraph (applyBuildOptions opts))
  | err :: errs => .error (errs.foldl Err.join err)

end GraphBuilder
end Checks
end Build

/-- What a run relies on; `exempt` are the nodes without a route for `Completed()`. -/
structure Graph.WellRouted {W A T : Type} (g : Graph W A T) (exempt : Text → Bool) : Prop where
  entry : (g.nodes.get? g.entryPoint).isSome = true
  named : (g.nodes.get? []).isSome = false
  reserved : (g.nodes.get? endNode).isSome = false
  edge : ∀ source target, g.edges.get? source = some target →
    target = endNode ∨ (g.nodes.get? target).isSome = true
  declared : ∀ source router, g.conditionalEdges.get? source = some router →
    ∃ allowed, g.conditionalAllowed.get? source = some allowed ∧
      ∀ target ∈ allowed, target = endNode ∨ (g.nodes.get? target).isSome = true
  retry : ∀ source target, g.retryRoutes.get? source = some target → (g.nodes.get? target).isSome = true
  outgoing : ∀ name, (g.nodes.get? name).isSome = true → exempt name = false →
    (g.edges.get? name).isSome = true ∨ (g.conditionalEdges.get? name).isSome = true
  bounded : 0 < g.defaults.maxSteps

section Compiled

variable [Quoting] {W A T : Type} {b : GraphBuilder W A T} {opts : List BuildOption} {g : Graph W A T}

namespace GraphBuilder

omit [Quoting] in
theorem forEach_eq_nil {V : Type} {m : GoMap Text V} {f : Text → V → List Err} (h : forEach m f = []) {k : Text}
    {v : V} (hk : m.get? k = some v) : f k v = [] :=
  List.flatMap_eq_nil_iff.mp h _ ((GoMap.mem_entries_iff m k v).mpr hk)

omit [Quoting] in
theorem registered_iff {name : Text} : b.registered name = true ↔ ∃ handler, b.nodes.get? name = some handler :=
  Option.isSome_iff_exists

omit [Quoting] in
theorem isSome_buildGraph (o : RunConfig) (name : Text) :
    ((b.buildGraph o).nodes.get? name).isSome = b.registered name := by
  rw [buildGraph,GoMap.get?_mapValues,Option.isSome_map,registered]

theorem compile_eq_ok (h : b.compile opts = .ok g) :
    b.collectCompileErrors = [] ∧ g = b.buildGraph (applyBuildOptions opts) := by
  unfold compile at h
  split at h
  · next hsorted =>
    have hperm := List.perm_insertionSort (fun x y : Err => x.message ≤ y.message) b.collectCompileErrors
    rw [hsorted] at hperm
    cases h
    exact ⟨hperm.symm.eq_nil,rfl⟩
  · cases h

theorem referenced_ok (h : b.validateReferences = []) {name : Text} (hname : name ∈ b.referenced) :
    name ≠ [] ∧ (name = endNode ∨ b.registered name = true) := by
  have hcheck := List.flatMap_eq_nil_iff.mp h name hname
  split at hcheck
  · cases hcheck
  · next hne =>
    refine ⟨hne,?_⟩
    split at hcheck
    · next hend => exact .inl hend
    · split at hcheck
      · next hreg => exact .inr hreg
      · cases hcheck

omit [Quoting] in
theorem edge_target_referenced {source target : Text} (h : b.edges.get? source = some target)
    (hne : target ≠ endNode) : target ∈ b.referenced := by
  refine List.mem_dedup.mpr (List.mem_append_left _ (List.mem_append_left _ ?_))
  exact List.mem_flatMap.mpr ⟨⟨source,target⟩,(GoMap.mem_entries_iff _ _ _).mpr h,by simp [hne]⟩

omit [Quoting] in
theorem node_referenced {name : Text} (h : b.registered name = true) : name ∈ b.referenced := by
  obtain ⟨handler,hname⟩ := registered_iff.mp h
  refine List.mem_dedup.mpr (List.mem_append_right _ ?_)
  exact List.mem_map.mpr ⟨⟨name,handler⟩,(GoMap.mem_entries_iff _ _ _).mpr hname,rfl⟩

theorem allowed_ok (h : b.validateConditionalAllowedTargets = []) {source : Text}
    {edge : ConditionalEdgeDef W T} (hedge : b.conditionalEdges.get? source = some edge) :
    edge.allowed ≠ [] ∧ ∀ target ∈ edge.allowed, target = endNode ∨ b.registered target = true := by
  have hcheck := forEach_eq_nil h hedge
  split at hcheck
  · cases hcheck
  · next hne =>
    refine ⟨hne,fun target htarget => ?_⟩
    have hone := List.flatMap_eq_nil_iff.mp hcheck target (List.mem_dedup.mpr htarget)
    split at hone
    · next hend => exact .inl hend
    · split at hone
      · next hreg => exact .inr hreg
      · cases hone

theorem retry_ok (h : b.validateRetryRoutes = []) {source fallback : Text}
    (hroute : b.retryRoutes.get? source = some fallback) : b.registered fallback = true := by
  have hcheck := (List.append_eq_nil_iff.mp (forEach_eq_nil h hroute)).2
  split at hcheck
  · cases hcheck
  · split at hcheck
    · next hreg => exact hreg
    · cases hcheck

theorem outgoing_ok (h : b.validateOutgoingRoutes = []) {name : Text} (hname : b.registered name = true)
    (hexempt : b.exempt name = false) :
    (b.edges.get? name).isSome = true ∨ (b.conditionalEdges.get? name).isSome = true := by
  obtain ⟨handler,hhandler⟩ := registered_iff.mp hname
  have hcheck := forEach_eq_nil h hhandler
  simp only [hexempt,Bool.false_eq_true,if_false] at hcheck
  split at hcheck
  · cases hcheck
  · next hroute =>
    cases hedge : b.edges.get? name with
    | some target => exact .inl rfl
    | none =>
      cases hcond : b.conditionalEdges.get? name with
      | some edge => exact .inr rfl
      | none => simp [hedge,hcond] at hroute

theorem entry_ok (h : b.validateTopology = []) : b.registered b.entryPoint = true := by
  have hcheck := (List.append_eq_nil_iff.mp h).2
  split at hcheck
  · cases hcheck
  · split at hcheck
    · next hreg => exact hreg
    · cases hcheck

theorem handlers_ok (h : b.validateHandlers = []) : b.registered endNode = false := by
  have hnodes := (List.append_eq_nil_iff.mp h).1
  rw [← Bool.not_eq_true,registered_iff]
  intro ⟨handler,hhandler⟩
  have hcheck := (List.append_eq_nil_iff.mp (forEach_eq_nil hnodes hhandler)).1
  simp at hcheck

theorem compile_wellRouted (h : b.compile opts = .ok g) : g.WellRouted b.exempt := by
  obtain ⟨herrs,rfl⟩ := compile_eq_ok h
  simp only [collectCompileErrors,List.append_eq_nil_iff] at herrs
  obtain ⟨⟨⟨⟨⟨⟨⟨⟨⟨⟨-,htopology⟩,hrefs⟩,hhandlers⟩,-⟩,houtgoing⟩,hallowed⟩,hretry⟩,-⟩,-⟩,-⟩ := herrs
  constructor
  case entry => rw [isSome_buildGraph]; exact entry_ok htopology
  case named =>
    rw [isSome_buildGraph,← Bool.not_eq_true]
    exact fun hreg => (referenced_ok hrefs (node_referenced hreg)).1 rfl
  case reserved => rw [isSome_buildGraph]; exact handlers_ok hhandlers
  case edge =>
    intro source target hedge
    by_cases hend : target = endNode
    · exact .inl hend
    · rw [isSome_buildGraph]
      exact (referenced_ok hrefs (edge_target_referenced hedge hend)).2
  case declared =>
    intro source router hrouter
    rw [buildGraph,GoMap.get?_mapValues,Option.map_eq_some_iff] at hrouter
    obtain ⟨edge,hedge,-⟩ := hrouter
    obtain ⟨hne,htargets⟩ := allowed_ok hallowed hedge
    refine ⟨edge.allowed,?_,fun target htarget => ?_⟩
    · rw [buildGraph,GoMap.get?_mapValues,GoMap.get?_filter,hedge]
      simp [Option.filter,hne]
    · rw [isSome_buildGraph]
      exact htargets target htarget
  case retry =>
    intro source target hroute
    rw [isSome_buildGraph]
    exact retry_ok hretry hroute
  case outgoing =>
    intro name hname hexempt
    rw [isSome_buildGraph] at hname
    refine (outgoing_ok houtgoing hname hexempt).imp id fun hcond => ?_
    rw [buildGraph,GoMap.get?_mapValues,Option.isSome_map]
    exact hcond
  case bounded => exact applyBuildOptions_pos opts

end GraphBuilder
end Compiled
end Flowy
