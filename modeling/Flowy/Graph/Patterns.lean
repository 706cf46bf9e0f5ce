import Flowy.Graph.RetryBudget
import Flowy.Graph.Routing

/-! The graphs of package `patterns`. Their nodes run a callback and replace its `Completed` by the directive of
the pattern; every other directive of a callback passes unchanged. -/
namespace Flowy

section Patterns

variable {W A T : Type} (E : Type) [AnyValue A E]

/-- The handler all patterns give to a node: `Completed` becomes `finish` of the update, with the effects of
the callback. -/
def replaceCompleted (callback : Node W A T) (finish : T → Directive A) : Node W A T := fun ctx state w =>
  let out := callback ctx state w
  match out.1.answer with
  | .error err => (⟨.error err,out.1.budgets⟩,out.2)
  | .ok (update,directive) =>
    match unwrapDirective (E := E) directive with
    | .error err => (⟨.error err,out.1.budgets⟩,out.2)
    | .ok (base,effects) =>
      if base.isCompleted then (⟨.ok (update,withEffects (finish update) effects),out.1.budgets⟩,out.2)
      else (⟨.ok (update,directive),out.1.budgets⟩,out.2)

def replaceState : T → T → T := fun _ update => update

def buildReAct (reasonNode actionNode : Option (Node W A T)) (hasPendingActions : Option (T → Bool))
    (maxActionRetries : Int) : Result (GraphBuilder W A T) :=
  match reasonNode, actionNode, hasPendingActions with
  | some reason, some action, some pending =>
    if maxActionRetries ≤ 0 then fail .configuration
    else .ok ((newGraph (some replaceState)).calls
      [.addNode (ascii "react_reason") (some (replaceCompleted E reason fun _ => .completed)),
        .addNode (ascii "react_action") (some (replaceCompleted E action fun _ => .retry maxActionRetries)),
        .allowNoOutgoingRoute (ascii "react_action"),
        .addConditionalEdge (ascii "react_reason")
          (some fun ctx state w =>
            (⟨.ok (if pending state then ascii "react_action" else endNode),ctx.budgets⟩,w))
          [ascii "react_action",endNode],
        .addRetryRoute (ascii "react_action") (ascii "react_reason"),
        .setEntryPoint (ascii "react_reason")])
  | _, _, _ => fail .configuration

def buildEvaluatorOptimizer (generatorNode evaluatorNode : Option (Node W A T)) (isValid : Option (T → Bool))
    (maxCorrectionRetries : Int) : Result (GraphBuilder W A T) :=
  match generatorNode, evaluatorNode, isValid with
  | some generator, some evaluator, some valid =>
    if maxCorrectionRetries ≤ 0 then fail .configuration
    else .ok ((newGraph (some replaceState)).calls
      [.addNode (ascii "generator") (some (replaceCompleted E generator fun _ => .completed)),
        .addNode (ascii "evaluator") (some (replaceCompleted E evaluator fun update =>
          if valid update then .finish else .retry maxCorrectionRetries)),
        .allowNoOutgoingRoute (ascii "evaluator"),
        .addRetryRoute (ascii "evaluator") (ascii "generator"),
        .addEdge (ascii "generator") (ascii "evaluator"),
        .setEntryPoint (ascii "generator")])
  | _, _, _ => fail .configuration

def workerCalls (workerNodes : GoMap Text (Option (Node W A T))) : List (BuilderCall W A T) :=
  workerNodes.entries.flatMap fun e =>
    [.addNode e.1 (e.2.map fun worker => replaceCompleted E worker fun _ => .finish),
      .allowNoOutgoingRoute e.1]

def buildDispatchGraph [Quoting] (dispatchNode : Option (Node W A T))
    (workerNodes : GoMap Text (Option (Node W A T))) (routeAccessor : Option (T → Text))
    (routes : GoMap Text Text) : Result (GraphBuilder W A T) :=
  match dispatchNode, routeAccessor with
  | some dispatch, some accessor =>
    if workerNodes.all (fun id worker => id ≠ ascii "dispatch" && id ≠ endNode && worker.isSome) then
      .ok ((newGraph (some replaceState)).calls
        ([.addNode (ascii "dispatch") (some (replaceCompleted E dispatch fun _ => .completed))] ++
          workerCalls E workerNodes ++
          [.addConditionalEdge (ascii "dispatch")
            (some fun ctx state w =>
              (⟨(routes.get? (accessor state)).elim
                (.error ⟨ascii "flowy/patterns: unknown dispatch intent " ++
                  Quoting.quoted (accessor state),[]⟩) .ok,ctx.budgets⟩,w))
            ((routes.entries.map fun e => e.2).dedup ++ [endNode]),
            .setEntryPoint (ascii "dispatch")]))
    else fail .configuration
  | _, _ => fail .configuration

end Patterns

/-! Callbacks charged against the retry counter of their node. -/
section Charges

variable {W A T E : Type}

def Point.charged (n : Text) (charge : NodeContext → T → W → Bool) : Point W A T → Bool
  | .invoked node ctx state w => decide (node = n) && charge ctx state w
  | .missing _ | .applied _ _ | .stranded _ | .followed _ _ _ => false

def chargesOf (n : Text) (charge : NodeContext → T → W → Bool) (points : List (Point W A T)) : Nat :=
  points.countP (Point.charged n charge)

def Pays [AnyValue A E] (g : Graph W A T) (n : Text) (k : Nat) (charge : NodeContext → T → W → Bool) : Prop :=
  ∀ handler, g.nodes.get? n = some handler → ∀ ctx state w, charge ctx state w = true →
    ∀ update d base (effects : List E), (handler ctx state w).1.answer = .ok (update,d) →
      unwrapDirective d = .ok (base,effects) →
      base.kind = .end ∨ base.kind = .retry ∧ base.maxAttempts = (k : Int)

/-- A thread that may go on has paid a retry for each charged call. -/
structure Paid (n : Text) (k : Nat) (charge : NodeContext → T → W → Bool) (points : List (Point W A T))
    (counts : GoMap Text Int) : Prop where
  paid : (chargesOf n charge points : Int) ≤ (counts.get? n).getD 0
  bounded : chargesOf n charge points ≤ k

/-- The segment ended by the `Suspend` or `Handoff` of a node. -/
def EndedByDirective (points : List (Point W A T)) : Prop :=
  ∃ node base, points.getLast? = some (.applied node base) ∧ (base.kind = .suspend ∨ base.kind = .handoff)

variable {n : Text} {k : Nat} {charge : NodeContext → T → W → Bool}

theorem chargesOf_append (xs ys : List (Point W A T)) :
    chargesOf n charge (xs ++ ys) = chargesOf n charge xs + chargesOf n charge ys := List.countP_append

theorem chargesOf_applied (node : Text) (base : Directive A) (xs : List (Point W A T)) :
    chargesOf n charge (.applied node base :: xs) = chargesOf n charge xs := rfl

theorem Paid.empty : Paid n k charge ([] : List (Point W A T)) ∅ := by
  constructor
  · exact le_refl 0
  · exact Nat.zero_le k

theorem LastPoints.uncharged {g : Graph W A T} {node : Text} {base : Directive A} {count : Int}
    {points : List (Point W A T)} (h : LastPoints g node base count points) : chargesOf n charge points = 0 := by
  cases h with
  | none => rfl
  | stranded completed edge router => rfl
  | followed routed completed => rfl

variable [AnyValue A E] {g : Graph W A T} {limit : Nat} {threadID : Text} {c c' : Cursor T E}
  {env env' : Env W T E} {points new : List (Point W A T)}

theorem Visit.charges (hpays : Pays (E := E) g n k charge) {base : Option (Directive A)}
    (h : Visit g threadID c points c' base) :
    chargesOf n charge points = 0 ∨ chargesOf n charge points = 1 ∧ c.current = n ∧
      ∀ b, base = some b → b.kind = .end ∨ b.kind = .retry ∧ b.maxAttempts = (k : Int) := by
  cases h with
  | skipped => exact .inl rfl
  | missing unregistered => exact .inl rfl
  | @ran handler w _ _ registered current steps retries effects answered =>
    by_cases hcharged : c.current = n ∧
        charge ⟨threadID,c.current,c.runMeta.budgetCounts⟩ c.state w = true
    · obtain ⟨hn,hcharge⟩ := hcharged
      refine .inr ⟨by simp [chargesOf,Point.charged,hn,hn ▸ hcharge],hn,fun b hb => ?_⟩
      obtain ⟨update,d,effects',hanswer,hunwrap,-⟩ := answered b hb
      exact hpays handler (hn ▸ registered) _ _ _ hcharge update d b effects' hanswer hunwrap
    · refine .inl ?_
      by_cases hn : c.current = n
      · have hfree : charge ⟨threadID,c.current,c.runMeta.budgetCounts⟩ c.state w = false :=
          Bool.eq_false_iff.mpr fun htrue => hcharged ⟨hn,htrue⟩
        simp [chargesOf,Point.charged,hfree]
      · simp [chargesOf,Point.charged,hn]

theorem Paid.again (hpays : Pays (E := E) g n k charge) (hpaid : Paid n k charge points c.runMeta.retryCounts)
    (h : Turned g limit threadID c env ((.again c',new),env')) :
    Paid n k charge (points ++ new) c'.runMeta.retryCounts := by
  have hbefore := hpaid.paid
  have hbounded := hpaid.bounded
  cases h with
  | @continued visited more c₁ base target runMeta mid _ visit bounded quiet enacted =>
    obtain ⟨-,-,hcounts,hcurrent⟩ := visit.uncounted n
    have hget := c₁.counted_get base n
    rw [hcounts] at hget
    cases enacted with
    | @proceed _ _ route _ routed inside steps kept quiet' =>
      have hsum : chargesOf n charge (points ++ (visited ++ .applied c₁.current base ::
          [.followed c₁.current route target])) = chargesOf n charge points + chargesOf n charge visited := by
        rw [chargesOf_append,chargesOf_append,chargesOf_applied]
        rfl
      obtain hfree | ⟨hone,hn,hbase⟩ := visit.charges hpays
      · constructor
        case paid =>
          rw [hsum,kept,hget,hfree]
          split
          · omega
          · omega
        case bounded =>
          rw [hsum,hfree]
          exact hbounded
      · -- the directive is the retry that pays, and it was within the budget
        have hretry : base.kind = .retry ∧ base.maxAttempts = (k : Int) := by
          obtain hend | hretry := hbase base rfl
          · cases routed with
            | edge completed found => rw [hend] at completed; cases completed
            | conditional completed found known => rw [hend] at completed; cases completed
            | retry retries found within => simp [Directive.retries,hend] at retries
          · exact hretry
        cases routed with
        | edge completed found => rw [hretry.1] at completed; cases completed
        | conditional completed found known => rw [hretry.1] at completed; cases completed
        | retry retries found within =>
          have hhere : c₁.current = n := hcurrent.trans hn
          rw [if_pos ⟨hhere,retries⟩] at hget
          have hcount : (c₁.after base).retryCount = (c.runMeta.retryCounts.get? n).getD 0 + 1 := by
            rw [Cursor.retryCount_after retries,Cursor.retryCount,hcounts,hhere]
          constructor
          case paid =>
            rw [hsum,kept,hget,hone]
            push_cast
            omega
          case bounded =>
            rw [hsum,hone]
            omega

structure Charged (threadID : Text) (n : Text) (k : Nat) (charge : NodeContext → T → W → Bool)
    (points : List (Point W A T)) (ended : Prop) (result : ThreadResult T E) (env : Env W T E) : Prop where
  bounded : chargesOf n charge points ≤ k + 1
  resumable : ended → result.resumeToken.snapshotRevision ≠ 0 → result.resumeToken.threadID = threadID ∧
    ∃ head, (env.threads threadID).getLast? = some head ∧
      head.revision = result.resumeToken.snapshotRevision ∧ Paid n k charge points head.runMeta.retryCounts

theorem Visit.not_ended {base : Option (Directive A)} (h : Visit g threadID c points c' base) :
    ¬EndedByDirective points := by
  rintro ⟨node,b,hlast,-⟩
  cases h with
  | skipped => cases hlast
  | missing unregistered => cases hlast
  | ran registered current steps retries effects answered => cases hlast

theorem Paid.done {result : ThreadResult T E} {err : Option Err} (hpays : Pays (E := E) g n k charge)
    (hpaid : Paid n k charge points c.runMeta.retryCounts)
    (h : Turned g limit threadID c env ((.done result err,new),env')) :
    Charged threadID n k charge (points ++ new) (EndedByDirective new) result env' := by
  have hbefore := hpaid.paid
  have hbounded := hpaid.bounded
  cases h with
  | stopped visit bounded saved =>
    refine ⟨?_,fun hended => absurd hended visit.not_ended⟩
    have hcharges := visit.charges hpays
    rw [chargesOf_append]
    omega
  | @finished visited more c₁ base _ _ mid _ visit bounded quiet enacted =>
    obtain ⟨-,-,hcounts,hcurrent⟩ := visit.uncounted n
    cases enacted with
    | finish last saved exhausted unstored =>
      have hsum : chargesOf n charge (points ++ (visited ++ .applied c₁.current base :: more)) =
          chargesOf n charge points + chargesOf n charge visited := by
        rw [chargesOf_append,chargesOf_append,chargesOf_applied,last.uncharged]
        rfl
      have hcharges := visit.charges hpays
      refine ⟨by omega,fun _ hne => ?_⟩
      obtain ⟨hid,head,hlast,hrev,-,hhead⟩ := saved.stored hne
      refine ⟨hid,head,hlast,hrev,?_⟩
      -- neither an end nor a retry is stored, so nothing was charged here
      have hfree : chargesOf n charge visited = 0 := by
        obtain hfree | ⟨-,-,hbase⟩ := hcharges
        · exact hfree
        · have hother : base.kind ≠ .suspend ∧ base.kind ≠ .handoff := by
            obtain hend | ⟨hretry,-⟩ := hbase base rfl
            · rw [hend]; decide
            · rw [hretry]; decide
          have hunset := unstored hother.1 hother.2
          exact absurd (congrArg ResumeToken.snapshotRevision hunset) hne
      have hget := c₁.counted_get base n
      rw [hcounts] at hget
      rw [hhead]
      constructor
      case paid =>
        rw [hsum,hfree]
        refine le_trans hbefore ?_
        change _ ≤ ((c₁.counted base).get? n).getD 0
        rw [hget]
        split
        · omega
        · omega
      case bounded =>
        rw [hsum,hfree]
        exact hbounded

theorem Turned.again_last (h : Turned g limit threadID c env ((.again c',new),env')) :
    ¬EndedByDirective new := by
  rintro ⟨node,b,hlast,-⟩
  cases h with
  | continued visit bounded quiet enacted =>
    cases enacted with
    | proceed routed inside steps retries quiet' => simp at hlast

theorem Paid.run {out : (ThreadResult T E × Option Err) × Env W T E} (hpays : Pays (E := E) g n k charge)
    (h : Run g limit threadID c env new out) (points : List (Point W A T))
    (hpaid : Paid n k charge points c.runMeta.retryCounts) :
    Charged threadID n k charge (points ++ new) (EndedByDirective new) out.1.1 out.2 := by
  induction h generalizing points with
  | last turned => exact hpaid.done hpays turned
  | @more c c' env mid first rest out turned run ih =>
    have hcharged := ih _ (hpaid.again hpays turned)
    rw [List.append_assoc] at hcharged
    refine ⟨hcharged.bounded,fun hended => hcharged.resumable ?_⟩
    obtain ⟨node,base,hlast,hkind⟩ := hended
    cases hrest : rest.getLast? with
    | none =>
      rw [List.getLast?_eq_none_iff.mp hrest,List.append_nil] at hlast
      exact absurd ⟨node,base,hlast,hkind⟩ turned.again_last
    | some p =>
      rw [List.getLast?_append,hrest] at hlast
      cases hlast
      exact ⟨node,base,hrest,hkind⟩

theorem Thread.charges [Quoting] [Inhabited T] {last : Segment W A T E} (hpays : Pays (E := E) g n k charge)
    (h : Thread g threadID (fun segment => EndedByDirective segment.points) points last env) :
    chargesOf n charge points ≤ k + 1 := by
  suffices hcharged : chargesOf n charge points ≤ k + 1 ∧ ∀ result, last.result = some result →
      Charged threadID n k charge points (EndedByDirective last.points) result env from hcharged.1
  induction h with
  | @start r inv sink state env env' segment graph started =>
    subst graph
    obtain ⟨out,hout,hperformed⟩ := r.start_performed inv sink threadID state env
    rw [started] at hout
    cases hout
    cases hperformed with
    | refused quiet =>
      refine ⟨Nat.zero_le (k + 1),fun result hresult => ?_⟩
      cases hresult
    | @ran c revision mid _ new result err cleanup done opened quiet run kept =>
      have hempty : Paid n k charge ([] : List (Point W A T)) c.runMeta.retryCounts := by
        rw [opened.retries]
        exact .empty
      have hcharged := Paid.run hpays run [] hempty
      refine ⟨hcharged.bounded,fun result' hresult => ⟨hcharged.bounded,fun hended hne => ?_⟩⟩
      cases hresult
      obtain ⟨hid,head,hlast,hrev,hpaid⟩ := hcharged.resumable hended hne
      exact ⟨hid,head,(kept (run.paused hne)).trans hlast,hrev,hpaid⟩
  | @resume points last segment env mid env' r inv sink result before ok returned same graph resumed ran ih =>
    subst graph
    obtain ⟨hbefore,hlast⟩ := ih
    obtain ⟨out,hout,hperformed⟩ := r.resume_performed inv sink result.resumeToken mid
    rw [resumed] at hout
    cases hout
    cases hperformed with
    | refused quiet => exact absurd rfl ran
    | @ran c revision mid' _ new result' err cleanup done opened quiet run kept =>
      obtain ⟨hid,head,hhead,hrev,hpaid⟩ := (hlast result returned).resumable ok opened.positive
      obtain ⟨head',hhead',-,-,hretries⟩ := opened.head
      rw [hid,same,hhead] at hhead'
      cases hhead'
      rw [hid] at run kept
      have hcharged := Paid.run hpays run points (hretries ▸ hpaid)
      refine ⟨hcharged.bounded,fun result'' hresult => ⟨hcharged.bounded,fun hended hne => ?_⟩⟩
      cases hresult
      obtain ⟨hid',head',hhead',hrev',hpaid'⟩ := hcharged.resumable hended hne
      exact ⟨hid',head',(kept (run.paused hne)).trans hhead',hrev',hpaid'⟩
  | @refused points last segment env mid env' r inv sink result before returned same graph resumed none ih =>
    obtain ⟨hbefore,hlast⟩ := ih
    obtain ⟨out,hout,hperformed⟩ := r.resume_performed inv sink result.resumeToken mid
    rw [resumed] at hout
    cases hout
    have hquiet := (hperformed.quiet_of_refused none).2
    refine ⟨hbefore,fun result' hresult => ⟨hbefore,fun hended hne => ?_⟩⟩
    rw [hquiet,same]
    exact (hlast result' hresult).resumable hended hne

end Charges

/-! Nodes that never complete without a route. -/
section Strands

variable {W A T E : Type} [AnyValue A E] {g : Graph W A T} {limit : Nat} {threadID : Text} {c c' : Cursor T E}
  {env env' : Env W T E} {points : List (Point W A T)}

def NeverStrands (E : Type) [AnyValue A E] (g : Graph W A T) : Prop :=
  ∀ node handler, g.nodes.get? node = some handler → g.edges.get? node = none →
    g.conditionalEdges.get? node = none → ∀ ctx state w update d base (effects : List E),
      (handler ctx state w).1.answer = .ok (update,d) → unwrapDirective d = .ok (base,effects) →
      base.kind ≠ .completed

def Point.isStranded : Point W A T → Bool
  | .stranded _ => true
  | .missing _ | .applied _ _ | .invoked _ _ _ _ | .followed _ _ _ => false

theorem Visit.unstranded {base : Option (Directive A)} (h : Visit g threadID c points c' base) :
    points.any Point.isStranded = false := by
  cases h with
  | skipped => rfl
  | missing unregistered => rfl
  | ran registered current steps retries effects answered => rfl

theorem Turned.unstranded {turn : Turn T E} (hg : NeverStrands E g)
    (h : Turned g limit threadID c env ((turn,points),env')) : points.any Point.isStranded = false := by
  cases h with
  | stopped visit bounded saved => exact visit.unstranded
  | @finished visited more c₁ base _ _ mid _ visit bounded quiet enacted =>
    have hvisit := visit.unstranded
    cases enacted with
    | finish last saved exhausted unstored =>
      cases last with
      | none => simp [hvisit,Point.isStranded]
      | followed routed completed => simp [hvisit,Point.isStranded]
      | stranded completed edge router =>
        cases visit with
        | ran registered current steps retries effects answered =>
          obtain ⟨update,d,effects',hanswer,hunwrap,-⟩ := answered base rfl
          rw [current] at edge router
          exact absurd completed (hg _ _ registered edge router _ _ _ _ _ _ _ hanswer hunwrap)
  | continued visit bounded quiet enacted =>
    have hvisit := visit.unstranded
    cases enacted with
    | proceed routed inside steps retries quiet' => simp [hvisit,Point.isStranded]

theorem Run.unstranded {out : (ThreadResult T E × Option Err) × Env W T E} (hg : NeverStrands E g)
    (h : Run g limit threadID c env points out) : points.any Point.isStranded = false := by
  induction h with
  | last turned => exact turned.unstranded hg
  | more turned run ih =>
    rw [List.any_append,ih,turned.unstranded hg]
    rfl

theorem Performed.unstranded {opens : Cursor T E → Nat → Prop} {segment : Segment W A T E}
    (hg : NeverStrands E g) (h : Performed g limit threadID opens env (segment,env')) :
    segment.points.any Point.isStranded = false := by
  cases h with
  | refused quiet => rfl
  | ran opened quiet run kept => exact run.unstranded hg

end Strands

/-! What the callbacks of a pattern become. -/
section Callbacks

variable {W A T : Type} (E : Type) [AnyValue A E]

/-- The callback answers `Completed`, with or without effects. -/
def completes (callback : Node W A T) (ctx : NodeContext) (state : T) (w : W) : Bool :=
  match (callback ctx state w).1.answer with
  | .error _ => false
  | .ok (_,directive) =>
    match unwrapDirective (E := E) directive with
    | .error _ => false
    | .ok (base,_) => base.isCompleted

variable {E}

theorem unwrapLoop_withEffects_base (ys : List E) (d base : Directive A)
    (hbase : ∀ effects (r : Directive A × List E), unwrapLoop d effects = .ok r → r.1 = base)
    (effects : List E) (r : Directive A × List E) (h : unwrapLoop (withEffects d ys) effects = .ok r) :
    r.1 = base := by
  induction ys generalizing d with
  | nil => exact hbase effects r h
  | cons y ys ih =>
    refine ih (d.effect y) (fun effects' r' h' => ?_) h
    simp only [Directive.effect,unwrapLoop,if_true] at h'
    split at h'
    · cases h'
    · exact hbase _ r' h'

theorem unwrapDirective_withEffects_base {d base : Directive A} {ys effects : List E}
    (hd : d.kind ≠ .effect) (h : unwrapDirective (withEffects d ys) = .ok (base,effects)) : base = d := by
  refine unwrapLoop_withEffects_base ys d d (fun effects' r h' => ?_) [] (base,effects) h
  by_cases hset : d.kind = .unset
  · cases d
    simp [Directive.kind] at hset
    simp [unwrapLoop,hset] at h'
  · rw [unwrapLoop_plain hd hset] at h'
    cases h'
    rfl

theorem replaceCompleted_answer {callback : Node W A T} {finish : T → Directive A} {ctx : NodeContext}
    {state update : T} {w : W} {d base : Directive A} {effects : List E}
    (hfinish : ∀ t, (finish t).kind ≠ .effect)
    (h : (replaceCompleted E callback finish ctx state w).1.answer = .ok (update,d))
    (hunwrap : unwrapDirective d = .ok (base,effects)) :
    completes E callback ctx state w = true ∧ base = finish update ∨
      completes E callback ctx state w = false ∧ base.kind ≠ .completed := by
  unfold replaceCompleted at h
  unfold completes
  dsimp only at h
  split at h
  · cases h
  · next update' directive hanswer =>
    split at h
    · cases h
    · next base' effects' hinner =>
      split at h
      · next hcompleted =>
        cases h
        exact .inl ⟨hcompleted,unwrapDirective_withEffects_base (hfinish update) hunwrap⟩
      · next hother =>
        cases h
        rw [hinner] at hunwrap
        cases hunwrap
        refine .inr ⟨Bool.eq_false_iff.mpr hother,fun hkind => hother ?_⟩
        simp [Directive.isCompleted,hkind]

end Callbacks

/-! The two correction loops. -/
section Corrections

variable {W A T E : Type} [AnyValue A E]

structure Corrects (b : GraphBuilder W A T) (n : Text) (callback : Node W A T) (k : Nat)
    (finish : T → Directive A) : Prop where
  bare : b.middlewares = []
  node : b.nodes.get? n = some (some (replaceCompleted E callback finish))
  ends : ∀ update, (finish update).kind = .end ∨ finish update = .retry k
  exempt : b.noOutgoingRoute = (∅ : GoMap Text Bool).set n true

/-- The built graph compiles, over a thread whose segments ended by directives the callback completes at most
`k + 1` times, and no `Start` or `Resume` is stranded. -/
structure BoundsCompletions (E : Type) [AnyValue A E] [Quoting] [Inhabited T] (b : GraphBuilder W A T) (n : Text)
    (callback : Node W A T) (k : Nat) : Prop where
  compiles : ∀ opts, b.compile opts = .ok (b.buildGraph (applyBuildOptions opts))
  bounded : ∀ opts threadID points (last : Segment W A T E) env,
    Thread (b.buildGraph (applyBuildOptions opts)) threadID (fun segment => EndedByDirective segment.points)
      points last env → chargesOf n (completes E callback) points ≤ k + 1
  routed : ∀ opts (r : Runner W A T E), r.graph = b.buildGraph (applyBuildOptions opts) → ∀ inv sink,
    (∀ threadID state env, ∃ segment env', r.start inv sink threadID state env = some (segment,env') ∧
      segment.points.any Point.isStranded = false) ∧
    (∀ token env, ∃ segment env', r.resume inv sink token env = some (segment,env') ∧
      segment.points.any Point.isStranded = false)

section Corrects

variable {b : GraphBuilder W A T} {n : Text} {callback : Node W A T} {k : Nat} {finish : T → Directive A}

theorem Corrects.handler (h : Corrects (E := E) b n callback k finish) (o : RunConfig) :
    (b.buildGraph o).nodes.get? n = some (replaceCompleted E callback finish) := by
  rw [GraphBuilder.buildGraph,GoMap.get?_mapValues,h.node,h.bare]
  rfl

theorem Corrects.plain (h : Corrects (E := E) b n callback k finish) (update : T) :
    (finish update).kind ≠ .effect ∧ (finish update).kind ≠ .completed := by
  obtain hend | hretry := h.ends update
  · rw [hend]
    decide
  · rw [hretry]
    exact ⟨nofun,nofun⟩

theorem Corrects.pays (h : Corrects (E := E) b n callback k finish) (o : RunConfig) :
    Pays (E := E) (b.buildGraph o) n k (completes E callback) := by
  intro handler hhandler ctx state w hcharge update d base effects hanswer hunwrap
  rw [h.handler] at hhandler
  cases hhandler
  obtain ⟨-,rfl⟩ | ⟨hfree,-⟩ := replaceCompleted_answer (fun t => (h.plain t).1) hanswer hunwrap
  · obtain hend | hretry := h.ends update
    · exact .inl hend
    · rw [hretry]
      exact .inr ⟨rfl,rfl⟩
  · rw [hfree] at hcharge
    cases hcharge

theorem Corrects.neverStrands [Quoting] {opts : List BuildOption} {g : Graph W A T}
    (h : Corrects (E := E) b n callback k finish) (hcompile : b.compile opts = .ok g) : NeverStrands E g := by
  have hg := GraphBuilder.compile_wellRouted hcompile
  obtain ⟨-,rfl⟩ := GraphBuilder.compile_eq_ok hcompile
  intro node handler hhandler hedge hrouter ctx state w update d base effects hanswer hunwrap
  by_cases hn : node = n
  · subst hn
    rw [h.handler] at hhandler
    cases hhandler
    obtain ⟨-,rfl⟩ | ⟨-,hother⟩ := replaceCompleted_answer (fun t => (h.plain t).1) hanswer hunwrap
    · exact (h.plain update).2
    · exact hother
  · -- every other node has a route
    have hexempt : b.exempt node = false := by
      rw [GraphBuilder.exempt,h.exempt,GoMap.get?_set_of_ne _ _ hn]
      rfl
    have hroute := hg.outgoing node (by rw [hhandler]; rfl) hexempt
    rw [hedge,hrouter] at hroute
    simp at hroute

theorem Corrects.bounds [Quoting] [Inhabited T] (h : Corrects (E := E) b n callback k finish)
    (hclean : b.collectCompileErrors = []) : BoundsCompletions E b n callback k := by
  have hcompiles : ∀ opts, b.compile opts = .ok (b.buildGraph (applyBuildOptions opts)) := by
    intro opts
    rw [GraphBuilder.compile,hclean]
    rfl
  constructor
  case compiles => exact hcompiles
  case bounded =>
    intro opts threadID points last env hthread
    exact hthread.charges (h.pays (applyBuildOptions opts))
  case routed =>
    intro opts r hr inv sink
    have hg : NeverStrands E r.graph := hr ▸ h.neverStrands (hcompiles opts)
    constructor
    · intro threadID state env
      obtain ⟨⟨segment,env'⟩,hout,hperformed⟩ := r.start_performed inv sink threadID state env
      exact ⟨segment,env',hout,hperformed.unstranded hg⟩
    · intro token env
      obtain ⟨⟨segment,env'⟩,hout,hperformed⟩ := r.resume_performed inv sink token env
      exact ⟨segment,env',hout,hperformed.unstranded hg⟩

end Corrects

variable [Quoting] [Inhabited T]

/-- Both loops, for all callbacks: at most one more completion than the retries they were given. -/
theorem correction_loops_bounded (first second : Node W A T) (test : T → Bool) (k : Nat) (hk : 0 < k) :
    (∃ b, buildReAct E (some first) (some second) (some test) k = .ok b ∧
      BoundsCompletions E b (ascii "react_action") second k) ∧
    (∃ b, buildEvaluatorOptimizer E (some first) (some second) (some test) k = .ok b ∧
      BoundsCompletions E b (ascii "evaluator") second k) := by
  have hpositive : ¬(k : Int) ≤ 0 := by omega
  constructor
  · refine ⟨_,if_neg hpositive,?_⟩
    refine Corrects.bounds (?_ : Corrects _ _ _ _ fun _ => .retry k) ?_
    · exact ⟨rfl,rfl,fun _ => .inr rfl,rfl⟩
    · simp only [GraphBuilder.collectCompileErrors,List.append_eq_nil_iff]
      exact ⟨⟨⟨⟨⟨⟨⟨⟨⟨⟨rfl,rfl⟩,rfl⟩,rfl⟩,rfl⟩,rfl⟩,rfl⟩,rfl⟩,rfl⟩,rfl⟩,rfl⟩
  · refine ⟨_,if_neg hpositive,?_⟩
    refine Corrects.bounds (?_ : Corrects _ _ _ _ fun update => if test update then .finish else .retry k) ?_
    · refine ⟨rfl,rfl,fun update => ?_,rfl⟩
      split
      · exact .inl rfl
      · exact .inr rfl
    · simp only [GraphBuilder.collectCompileErrors,List.append_eq_nil_iff]
      exact ⟨⟨⟨⟨⟨⟨⟨⟨⟨⟨rfl,rfl⟩,rfl⟩,rfl⟩,rfl⟩,rfl⟩,rfl⟩,rfl⟩,rfl⟩,rfl⟩,rfl⟩

end Corrections

section CorrectionExample

attribute [local instance] Quoting.plain AnyValue.numbers

def completing : Node Unit Nat Nat := fun ctx state w => (⟨.ok (state,.completed),ctx.budgets⟩,w)

def runnerOf (b : GraphBuilder Unit Nat Nat) (opts : List BuildOption) : Runner Unit Nat Nat Nat :=
  { refusedHandoff with graph := b.buildGraph (applyBuildOptions opts) }

theorem react_completes_twice : ∃ b points last env, 0 < 1 ∧
    buildReAct Nat (some completing) (some completing) (some fun _ => true) 1 = .ok b ∧
    Thread (E := Nat) (b.buildGraph (applyBuildOptions [])) [116]
      (fun segment => EndedByDirective segment.points) points last env ∧
    chargesOf (ascii "react_action") (completes Nat completing) points = 1 + 1 ∧
    chargesOf (ascii "react_action") (completes Nat completing) points ≤ 1 + 1 := by
  have hcount : ((buildReAct Nat (some completing) (some completing) (some fun _ => true) 1).toOption.bind
      fun b => (runnerOf b []).start plainInvocation none [116] 0 ⟨(),fun _ => [],[]⟩).map
        (fun out => chargesOf (ascii "react_action") (completes Nat completing) out.1.points) = some 2 := by
    decide +kernel
  obtain ⟨b,hbuild,hbounds⟩ :=
    (correction_loops_bounded (E := Nat) completing completing (fun _ => true) 1 (by decide)).1
  rw [show ((1 : Nat) : Int) = 1 from rfl] at hbuild
  rw [hbuild,Except.toOption,Option.bind_some,Option.map_eq_some_iff] at hcount
  obtain ⟨⟨segment,env⟩,hstart,htwo⟩ := hcount
  have hthread : Thread (E := Nat) (b.buildGraph (applyBuildOptions [])) [116]
      (fun segment => EndedByDirective segment.points) segment.points segment env := .start rfl hstart
  exact ⟨b,segment.points,segment,env,by decide,hbuild,hthread,htwo,hbounds.bounded [] _ _ _ _ hthread⟩

end CorrectionExample

/-! The dispatch graph. -/
section Dispatch

variable {W A T E : Type} [AnyValue A E]

structure AddsWorkers (E : Type) [AnyValue A E] (b b' : GraphBuilder W A T) : Prop where
  edges : b'.edges = b.edges
  retries : b'.retryRoutes = b.retryRoutes
  routers : b'.conditionalEdges = b.conditionalEdges
  middlewares : b'.middlewares = b.middlewares
  nodes : ∀ id handler, b'.nodes.get? id = some handler → b.nodes.get? id = some handler ∨
    ∃ worker, handler = Option.map (fun worker => replaceCompleted E worker fun _ => .finish) worker

theorem AddsWorkers.refl (b : GraphBuilder W A T) : AddsWorkers E b b :=
  ⟨rfl,rfl,rfl,rfl,fun _ _ h => .inl h⟩

theorem AddsWorkers.worker (b : GraphBuilder W A T) (id : Text) (worker : Option (Node W A T)) :
    AddsWorkers E b (b.calls [.addNode id (worker.map fun worker => replaceCompleted E worker fun _ => .finish),
      .allowNoOutgoingRoute id]) := by
  refine ⟨rfl,rfl,rfl,rfl,fun id' handler h => ?_⟩
  have hset : (b.nodes.set id (worker.map fun worker => replaceCompleted E worker fun _ => .finish)).get? id' =
      some handler := h
  rw [GoMap.get?_set] at hset
  split at hset
  · cases hset
    exact .inr ⟨worker,rfl⟩
  · exact .inl hset

theorem AddsWorkers.trans {b b' b'' : GraphBuilder W A T} (h : AddsWorkers E b b') (h' : AddsWorkers E b' b'') :
    AddsWorkers E b b'' := by
  constructor
  case edges => exact h'.edges.trans h.edges
  case retries => exact h'.retries.trans h.retries
  case routers => exact h'.routers.trans h.routers
  case middlewares => exact h'.middlewares.trans h.middlewares
  case nodes =>
    intro id handler hget
    cases h'.nodes id handler hget with
    | inl hbefore => exact h.nodes id handler hbefore
    | inr hworker => exact .inr hworker

theorem workerCalls_adds (workers : GoMap Text (Option (Node W A T))) (b : GraphBuilder W A T) :
    AddsWorkers E b (b.calls (workerCalls E workers)) := by
  unfold workerCalls
  induction workers.entries generalizing b with
  | nil => exact .refl b
  | cons e es ih =>
    rw [List.flatMap_cons,GraphBuilder.calls,List.foldl_append]
    exact (AddsWorkers.worker b e.1 e.2).trans (ih _)

/-- The routes of a dispatch graph: all start at `dispatch`, and none leads back to it. -/
structure Dispatches (E : Type) [AnyValue A E] (g : Graph W A T) : Prop where
  edges : ∀ node, g.edges.get? node = none
  retries : ∀ node, g.retryRoutes.get? node = none
  routers : ∀ node router, g.conditionalEdges.get? node = some router → node = ascii "dispatch"
  router : (g.conditionalEdges.get? (ascii "dispatch")).isSome = true
  targets : ∃ targets, g.conditionalAllowed.get? (ascii "dispatch") = some targets ∧ ascii "dispatch" ∉ targets
  workers : ∀ node handler, g.nodes.get? node = some handler → node ≠ ascii "dispatch" →
    ∀ ctx state w update d base (effects : List E), (handler ctx state w).1.answer = .ok (update,d) →
      unwrapDirective d = .ok (base,effects) → base.kind ≠ .completed

theorem AddsWorkers.dispatches {b' : GraphBuilder W A T} {dispatch : Node W A T}
    (h : AddsWorkers E ((newGraph (some replaceState)).calls [.addNode (ascii "dispatch") (some dispatch)]) b')
    {allowed : List Text} (hne : allowed ≠ []) (hout : ascii "dispatch" ∉ allowed) (router : EdgeRouter W T)
    (o : RunConfig) : Dispatches E ((b'.calls [.addConditionalEdge (ascii "dispatch") (some router) allowed,
      .setEntryPoint (ascii "dispatch")]).buildGraph o) := by
  have hrouters : (b'.calls [.addConditionalEdge (ascii "dispatch") (some router) allowed,
      .setEntryPoint (ascii "dispatch")]).conditionalEdges =
        (∅ : GoMap Text (ConditionalEdgeDef W T)).set (ascii "dispatch") ⟨some router,allowed⟩ := by
    change b'.conditionalEdges.set _ _ = _
    rw [h.routers]
    rfl
  constructor
  case edges =>
    intro node
    change b'.edges.get? node = none
    rw [h.edges]
    rfl
  case retries =>
    intro node
    change b'.retryRoutes.get? node = none
    rw [h.retries]
    rfl
  case routers =>
    intro node router' hrouter
    rw [GraphBuilder.buildGraph,GoMap.get?_mapValues,hrouters,GoMap.get?_set] at hrouter
    split at hrouter
    · assumption
    · cases hrouter
  case router =>
    rw [GraphBuilder.buildGraph,GoMap.get?_mapValues,hrouters,GoMap.get?_set_self]
    rfl
  case targets =>
    refine ⟨allowed,?_,hout⟩
    rw [GraphBuilder.buildGraph,GoMap.get?_mapValues,GoMap.get?_filter,hrouters,GoMap.get?_set_self]
    simp [Option.filter,hne]
  case workers =>
    intro node handler hhandler hnode ctx state w update d base effects hanswer hunwrap
    change (b'.nodes.mapValues fun handler => wrapNodeWithMiddlewares _ b'.middlewares).get? node = _ at hhandler
    rw [GoMap.get?_mapValues,h.middlewares,Option.map_eq_some_iff] at hhandler
    obtain ⟨added,hadded,rfl⟩ := hhandler
    obtain hfirst | ⟨worker,rfl⟩ := h.nodes node added hadded
    · change ((∅ : GoMap Text (Option (Node W A T))).set _ _).get? node = _ at hfirst
      rw [GoMap.get?_set_of_ne _ _ hnode] at hfirst
      cases hfirst
    · cases worker with
      | none => cases hanswer
      | some worker =>
        have hfinish : ∀ _ : T, (Directive.finish : Directive A).kind ≠ .effect := by
          intro _ hkind
          cases hkind
        obtain ⟨-,rfl⟩ | ⟨-,hother⟩ := replaceCompleted_answer hfinish hanswer hunwrap
        · intro hkind
          cases hkind
        · exact hother

theorem buildDispatchGraph_dispatches [Quoting] {dispatch : Option (Node W A T)}
    {workers : GoMap Text (Option (Node W A T))} {accessor : Option (T → Text)} {routes : GoMap Text Text}
    {b : GraphBuilder W A T} (h : buildDispatchGraph E dispatch workers accessor routes = .ok b)
    (hroutes : ∀ intent, routes.get? intent ≠ some (ascii "dispatch")) (o : RunConfig) :
    Dispatches E (b.buildGraph o) := by
  unfold buildDispatchGraph at h
  split at h
  · next dispatch accessor =>
    split at h
    · cases h
      simp only [GraphBuilder.calls,List.foldl_append]
      refine (workerCalls_adds workers _).dispatches (by simp) (fun hmem => ?_) _ o
      rw [List.mem_append,List.mem_dedup,List.mem_map,List.mem_singleton] at hmem
      obtain ⟨e,he,hdispatch⟩ | hend := hmem
      · exact hroutes e.1 (hdispatch ▸ (GoMap.mem_entries_iff routes e.1 e.2).mp he)
      · exact absurd hend (by decide)
    · cases h
  · cases h

variable {g : Graph W A T} {limit : Nat} {threadID : Text} {c c' : Cursor T E} {env env' : Env W T E}
  {points : List (Point W A T)}

theorem Dispatches.neverStrands (hg : Dispatches E g) : NeverStrands E g := by
  intro node handler hhandler hedge hrouter
  refine hg.workers node handler hhandler fun hnode => ?_
  subst hnode
  have hsome := hg.router
  rw [hrouter] at hsome
  cases hsome

theorem Dispatches.routed {node target : Text} {base : Directive A} {count : Int} {route : Route}
    (hg : Dispatches E g) (h : Routed g node base count route target) :
    node = ascii "dispatch" ∧ target ≠ ascii "dispatch" := by
  cases h with
  | edge completed found => rw [hg.edges] at found; cases found
  | retry retries found within => rw [hg.retries] at found; cases found
  | conditional completed found known allowed =>
    have hnode := hg.routers node _ found
    subst hnode
    refine ⟨rfl,fun htarget => ?_⟩
    obtain ⟨targets,htargets,hout⟩ := hg.targets
    exact hout (htarget ▸ allowed targets htargets)

theorem Dispatches.again (hg : Dispatches E g) (h : Turned g limit threadID c env ((.again c',points),env')) :
    c.current = ascii "dispatch" ∧ c'.current ≠ ascii "dispatch" ∧ invocations points ≤ 1 := by
  cases h with
  | continued visit bounded quiet enacted =>
    obtain ⟨hcount,hcurrent⟩ := visit.invocations_le
    cases enacted with
    | proceed routed inside steps retries quiet' =>
      obtain ⟨hnode,htarget⟩ := hg.routed routed
      refine ⟨hcurrent ▸ hnode,htarget,?_⟩
      rw [invocations_append,invocations_applied]
      exact hcount

theorem Turned.done_invocations {result : ThreadResult T E} {err : Option Err}
    (h : Turned g limit threadID c env ((.done result err,points),env')) : invocations points ≤ 1 := by
  cases h with
  | stopped visit bounded saved => exact visit.invocations_le.1
  | finished visit bounded quiet enacted =>
    have hcount := visit.invocations_le.1
    cases enacted with
    | finish last saved exhausted unstored =>
      rw [invocations_append,invocations_applied,last.uninvoked]
      exact hcount

theorem Dispatches.run {out : (ThreadResult T E × Option Err) × Env W T E} (hg : Dispatches E g)
    (h : Run g limit threadID c env points out) :
    invocations points ≤ 2 ∧ (c.current ≠ ascii "dispatch" → invocations points ≤ 1) := by
  induction h with
  | last turned =>
    have hone := turned.done_invocations
    exact ⟨by omega,fun _ => hone⟩
  | more turned run ih =>
    obtain ⟨hhere,hnext,hone⟩ := hg.again turned
    have hrest := ih.2 hnext
    rw [invocations_append]
    exact ⟨by omega,fun hother => absurd hhere hother⟩

structure Segment.RoutesOnce (segment : Segment W A T E) : Prop where
  once : invocations segment.points ≤ 2
  routed : segment.points.any Point.isStranded = false

theorem Performed.routesOnce {opens : Cursor T E → Nat → Prop} {segment : Segment W A T E}
    (hg : Dispatches E g) (h : Performed g limit threadID opens env (segment,env')) : segment.RoutesOnce := by
  refine ⟨?_,h.unstranded hg.neverStrands⟩
  cases h with
  | refused quiet => exact Nat.zero_le 2
  | ran opened quiet run kept => exact (hg.run run).1

/-- A dispatch graph none of whose routes names `dispatch` itself routes once in every `Start` and `Resume`,
whatever its callbacks do. With such a route it would run up to its step limit. -/
theorem dispatch_routes_once [Quoting] [Inhabited T] {dispatch : Option (Node W A T)}
    {workers : GoMap Text (Option (Node W A T))} {accessor : Option (T → Text)} {routes : GoMap Text Text}
    {b : GraphBuilder W A T} {opts : List BuildOption}
    (hbuild : buildDispatchGraph E dispatch workers accessor routes = .ok b)
    (hroutes : ∀ intent, routes.get? intent ≠ some (ascii "dispatch")) (hcompile : b.compile opts = .ok g)
    (r : Runner W A T E) (hr : r.graph = g) (inv : Invocation W T) (sink : EventSink W T E) :
    (∀ threadID state env, ∃ segment env', r.start inv sink threadID state env = some (segment,env') ∧
      segment.RoutesOnce) ∧
    (∀ token env, ∃ segment env', r.resume inv sink token env = some (segment,env') ∧ segment.RoutesOnce) := by
  subst hr
  have hg : Dispatches E r.graph := by
    rw [(GraphBuilder.compile_eq_ok hcompile).2]
    exact buildDispatchGraph_dispatches hbuild hroutes _
  constructor
  · intro threadID state env
    obtain ⟨⟨segment,env'⟩,hout,hperformed⟩ := r.start_performed inv sink threadID state env
    exact ⟨segment,env',hout,hperformed.routesOnce hg⟩
  · intro token env
    obtain ⟨⟨segment,env'⟩,hout,hperformed⟩ := r.resume_performed inv sink token env
    exact ⟨segment,env',hout,hperformed.routesOnce hg⟩

end Dispatch

section DispatchExample

attribute [local instance] Quoting.plain AnyValue.numbers

def oneWorker (routes : GoMap Text Text) : Result (GraphBuilder Unit Nat Nat) :=
  buildDispatchGraph Nat (some completing) ((∅ : GoMap Text (Option (Node Unit Nat Nat))).set [119] (some completing))
    (some fun _ => []) routes

theorem dispatch_one_worker : ∃ b g segment env', oneWorker ((∅ : GoMap Text Text).set [] [119]) = .ok b ∧
    b.compile [] = .ok g ∧
    (runnerOf b []).start plainInvocation none [116] 0 ⟨(),fun _ => [],[]⟩ = some (segment,env') ∧
    segment.RoutesOnce := by
  have hroutes : ∀ intent, ((∅ : GoMap Text Text).set [] [119]).get? intent ≠ some (ascii "dispatch") := by
    intro intent
    rw [GoMap.get?_set]
    split
    · decide
    · intro hget
      cases hget
  have hok : ((oneWorker ((∅ : GoMap Text Text).set [] [119])).toOption.map
      fun b => b.collectCompileErrors.isEmpty) = some true := by decide +kernel
  obtain ⟨b,hbuild,hclean⟩ := Option.map_eq_some_iff.mp hok
  have hbuilt : oneWorker ((∅ : GoMap Text Text).set [] [119]) = .ok b := by
    cases hcase : oneWorker ((∅ : GoMap Text Text).set [] [119]) with
    | error err => rw [hcase] at hbuild; cases hbuild
    | ok b' => rw [hcase] at hbuild; cases hbuild; rfl
  have hcompile : b.compile [] = .ok (b.buildGraph (applyBuildOptions [])) := by
    rw [GraphBuilder.compile,List.isEmpty_iff.mp hclean]
    rfl
  obtain ⟨segment,env',hstart,honce⟩ := (dispatch_routes_once hbuilt hroutes hcompile (runnerOf b []) rfl
    plainInvocation none).1 [116] 0 ⟨(),fun _ => [],[]⟩
  exact ⟨b,_,segment,env',hbuilt,hcompile,hstart,honce⟩

-- a route back to the dispatcher runs into the step limit
example : ((oneWorker ((∅ : GoMap Text Text).set [] (ascii "dispatch"))).toOption.bind
    fun b => (runnerOf b [.withMaxSteps 3]).start plainInvocation none [116] 0 ⟨(),fun _ => [],[]⟩).map
      (fun out => out.1.err) = some (some (.of .maxStepsExceeded)) := by decide +kernel

end DispatchExample
end Flowy
