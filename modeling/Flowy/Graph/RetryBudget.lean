import Flowy.Graph.Runs

/-! Retry budgets over whole threads. The counter of a node is kept in the metadata of every snapshot, so it
counts the retries of all segments, and the budget of a node holds for the thread and not for one call. -/
namespace Flowy

section Threads

variable {W A T E : Type}

/-- The segments of one thread: a `Start`, then `Resume`s with the token of the segment before. Each call has
its own runner over the same graph, and between two calls the world may change but not the thread. -/
inductive Thread [Quoting] [AnyValue A E] [Inhabited T] (g : Graph W A T) (threadID : Text)
    (resumable : Segment W A T E → Prop) : List (Point W A T) → Segment W A T E → Env W T E → Prop
  | start {r : Runner W A T E} {inv : Invocation W T} {sink : EventSink W T E} {state : T}
      {env env' : Env W T E} {segment : Segment W A T E} (graph : r.graph = g)
      (started : r.start inv sink threadID state env = some (segment,env')) :
      Thread g threadID resumable segment.points segment env'
  | resume {points : List (Point W A T)} {last segment : Segment W A T E} {env mid env' : Env W T E}
      {r : Runner W A T E} {inv : Invocation W T} {sink : EventSink W T E} {result : ThreadResult T E}
      (before : Thread g threadID resumable points last env) (ok : resumable last)
      (returned : last.result = some result) (same : mid.threads threadID = env.threads threadID)
      (graph : r.graph = g) (resumed : r.resume inv sink result.resumeToken mid = some (segment,env'))
      (ran : segment.result ≠ none) : Thread g threadID resumable (points ++ segment.points) segment env'
  | refused {points : List (Point W A T)} {last segment : Segment W A T E} {env mid env' : Env W T E}
      {r : Runner W A T E} {inv : Invocation W T} {sink : EventSink W T E} {result : ThreadResult T E}
      (before : Thread g threadID resumable points last env)
      (returned : last.result = some result) (same : mid.threads threadID = env.threads threadID)
      (graph : r.graph = g) (resumed : r.resume inv sink result.resumeToken mid = some (segment,env'))
      (none : segment.result = none) : Thread g threadID resumable points last env'

def Point.retriesAt (n : Text) : Point W A T → Bool
  | .applied node base => decide (node = n) && base.retries
  | .missing _ | .invoked _ _ _ _ | .stranded _ | .followed _ _ _ => false

def Point.followsRetryOf (n : Text) : Point W A T → Bool
  | .followed node route _ => decide (node = n) && decide (route = .retry)
  | .missing _ | .invoked _ _ _ _ | .stranded _ | .applied _ _ => false

def retriesOf (n : Text) (points : List (Point W A T)) : Nat := points.countP (Point.retriesAt n)

def followsOf (n : Text) (points : List (Point W A T)) : Nat := points.countP (Point.followsRetryOf n)

section Counts

variable (n : Text) (xs ys : List (Point W A T))

theorem retriesOf_append : retriesOf n (xs ++ ys) = retriesOf n xs + retriesOf n ys := List.countP_append

theorem followsOf_append : followsOf n (xs ++ ys) = followsOf n xs + followsOf n ys := List.countP_append

theorem retriesOf_applied (node : Text) (base : Directive A) :
    retriesOf n (.applied node base :: xs) =
      retriesOf n xs + if node = n ∧ base.retries = true then 1 else 0 := by
  simp [retriesOf,List.countP_cons,Point.retriesAt]

theorem followsOf_applied (node : Text) (base : Directive A) :
    followsOf n (.applied node base :: xs) = followsOf n xs := rfl

end Counts

/-- A thread that may go on has followed the route of every retry it has counted. -/
structure Balanced (n : Text) (k : Nat) (points : List (Point W A T)) (counts : GoMap Text Int) : Prop where
  count : (counts.get? n).getD 0 = retriesOf n points
  followed : followsOf n points = retriesOf n points
  bounded : retriesOf n points ≤ k

theorem Balanced.empty (n : Text) (k : Nat) : Balanced n k ([] : List (Point W A T)) ∅ :=
  ⟨rfl,rfl,Nat.zero_le k⟩

variable [AnyValue A E] {g : Graph W A T} {limit : Nat} {threadID : Text} {c c' : Cursor T E}
  {env env' : Env W T E} {points new : List (Point W A T)} {n : Text} {k : Nat}

theorem Visit.uncounted {base : Option (Directive A)} (h : Visit g threadID c points c' base) (n : Text) :
    retriesOf n points = 0 ∧ followsOf n points = 0 ∧ c'.runMeta.retryCounts = c.runMeta.retryCounts ∧
      c'.current = c.current := by
  cases h with
  | skipped => exact ⟨rfl,rfl,rfl,rfl⟩
  | missing unregistered => exact ⟨rfl,rfl,rfl,rfl⟩
  | ran registered current steps retries effects answered => exact ⟨rfl,rfl,retries,current⟩

omit [AnyValue A E] in
theorem Cursor.counted_get (c : Cursor T E) (base : Directive A) (n : Text) :
    ((c.counted base).get? n).getD 0 = (c.runMeta.retryCounts.get? n).getD 0 +
      if c.current = n ∧ base.retries = true then 1 else 0 := by
  cases hretries : base.retries with
  | false => simp [Cursor.counted,hretries]
  | true =>
    rw [Cursor.counted_of_retries hretries,GoMap.get?_set]
    by_cases hn : n = c.current
    · subst hn
      simp [Cursor.retryCount]
    · simp [hn,Ne.symm hn]

omit [AnyValue A E] in
theorem LastPoints.uncounted {node : Text} {base : Directive A} {count : Int}
    (h : LastPoints g node base count points) (n : Text) : retriesOf n points = 0 ∧ followsOf n points = 0 := by
  cases h with
  | none => exact ⟨rfl,rfl⟩
  | stranded completed edge router => exact ⟨rfl,rfl⟩
  | @followed route routed completed =>
    refine ⟨rfl,?_⟩
    cases routed with
    | edge completed' found => simp [followsOf,Point.followsRetryOf]
    | conditional completed' found known => simp [followsOf,Point.followsRetryOf]
    | retry retries found within => simp [Directive.retries,completed] at retries

theorem Balanced.again (hbal : Balanced n k points c.runMeta.retryCounts)
    (hk : ∀ base : Directive A, .applied n base ∈ new → base.maxAttempts ≤ (k : Int))
    (h : Turned g limit threadID c env ((.again c',new),env')) :
    Balanced n k (points ++ new) c'.runMeta.retryCounts := by
  cases h with
  | @continued visited more c₁ base target runMeta mid _ visit bounded quiet enacted =>
    obtain ⟨hretries,hfollows,hcounts,hcurrent⟩ := visit.uncounted n
    cases enacted with
    | @proceed _ _ route _ routed inside steps kept quiet' =>
      have hget := c₁.counted_get base n
      rw [hcounts,hbal.count] at hget
      have happlied := hk base
      -- the route is the retry route exactly when the directive is a counted retry
      have hroute : followsOf n [Point.followed (W := W) (A := A) (T := T) c₁.current route target] =
          if c₁.current = n ∧ base.retries = true then 1 else 0 := by
        cases routed with
        | edge completed found => simp [followsOf,Point.followsRetryOf,Directive.retries,completed]
        | conditional completed found known =>
          simp [followsOf,Point.followsRetryOf,Directive.retries,completed]
        | retry retries found within => simp [followsOf,Point.followsRetryOf,retries]
      have hmore : retriesOf n [Point.followed (W := W) (A := A) (T := T) c₁.current route target] = 0 := rfl
      have hbalanced := hbal.followed
      have hbounded := hbal.bounded
      constructor
      case count =>
        rw [kept,hget,retriesOf_append,retriesOf_append,retriesOf_applied,hretries,hmore]
        push_cast
        omega
      case followed =>
        rw [followsOf_append,followsOf_append,followsOf_applied,retriesOf_append,retriesOf_append,
          retriesOf_applied,hretries,hfollows,hroute,hmore]
        omega
      case bounded =>
        rw [retriesOf_append,retriesOf_append,retriesOf_applied,hretries,hmore]
        split
        · next hhere =>
          obtain ⟨rfl,hretry⟩ := hhere
          have hmax := happlied (by simp)
          cases routed with
          | edge completed found => simp [Directive.retries,completed] at hretry
          | conditional completed found known => simp [Directive.retries,completed] at hretry
          | retry retries found within =>
            have hcount : (c₁.after base).retryCount = retriesOf c₁.current points + 1 := by
              rw [Cursor.retryCount_after retries,Cursor.retryCount,hcounts,hbal.count]
            omega
        · omega

structure Settled (threadID : Text) (n : Text) (k : Nat) (points : List (Point W A T)) (err : Option Err)
    (result : ThreadResult T E) (env : Env W T E) : Prop where
  followed : followsOf n points ≤ k
  retried : retriesOf n points ≤ k ∨ retriesOf n points = k + 1 ∧
    err = some (.of .retryBudgetExceeded) ∧ ∃ base, points.getLast? = some (.applied n base)
  resumable : result.resumeToken.snapshotRevision ≠ 0 → result.resumeToken.threadID = threadID ∧
    ∃ head, (env.threads threadID).getLast? = some head ∧
      head.revision = result.resumeToken.snapshotRevision ∧ Balanced n k points head.runMeta.retryCounts

theorem Balanced.done {result : ThreadResult T E} {err : Option Err}
    (hbal : Balanced n k points c.runMeta.retryCounts)
    (hk : ∀ base : Directive A, .applied n base ∈ new → base.maxAttempts ≤ (k : Int))
    (h : Turned g limit threadID c env ((.done result err,new),env')) :
    Settled threadID n k (points ++ new) err result env' := by
  have hfollowed := hbal.followed
  have hbounded := hbal.bounded
  cases h with
  | stopped visit bounded saved =>
    obtain ⟨hretries,hfollows,hcounts,-⟩ := visit.uncounted n
    constructor
    case followed =>
      rw [followsOf_append]
      omega
    case retried =>
      rw [retriesOf_append]
      omega
    case resumable =>
      intro hne
      obtain ⟨hid,head,hlast,hrev,-,hhead⟩ := saved.stored hne
      refine ⟨hid,head,hlast,hrev,?_⟩
      rw [hhead,hcounts]
      exact ⟨by rw [hbal.count,retriesOf_append,hretries]; rfl,
        by rw [followsOf_append,retriesOf_append]; omega,by rw [retriesOf_append]; omega⟩
  | @finished visited more c₁ base _ _ mid _ visit bounded quiet enacted =>
    obtain ⟨hretries,hfollows,hcounts,hcurrent⟩ := visit.uncounted n
    cases enacted with
    | finish last saved exhausted unstored =>
      obtain ⟨hmore,hnone⟩ := last.uncounted n
      have hget := c₁.counted_get base n
      rw [hcounts,hbal.count] at hget
      have hsum : retriesOf n (points ++ (visited ++ .applied c₁.current base :: more)) =
          retriesOf n points + if c₁.current = n ∧ base.retries = true then 1 else 0 := by
        rw [retriesOf_append,retriesOf_append,retriesOf_applied,hretries,hmore]
        omega
      have hfollow : followsOf n (points ++ (visited ++ .applied c₁.current base :: more)) =
          followsOf n points := by
        rw [followsOf_append,followsOf_append,followsOf_applied,hfollows,hnone]
        rfl
      constructor
      case followed => omega
      case retried =>
        rw [hsum]
        split
        · next hhere =>
          obtain ⟨rfl,hretry⟩ := hhere
          by_cases hfull : retriesOf c₁.current points + 1 ≤ k
          · exact .inl hfull
          · have hmax := hk base (by simp)
            have hcount : (c₁.after base).retryCount = retriesOf c₁.current points + 1 := by
              rw [Cursor.retryCount_after hretry,Cursor.retryCount,hcounts,hbal.count]
            refine .inr ⟨by omega,exhausted hretry (by omega),base,?_⟩
            cases last with
            | none => simp
            | stranded completed edge router => simp [Directive.retries,completed] at hretry
            | followed routed completed => simp [Directive.retries,completed] at hretry
        · exact .inl hbounded
      case resumable =>
        intro hne
        obtain ⟨hid,head,hlast,hrev,-,hhead⟩ := saved.stored hne
        refine ⟨hid,head,hlast,hrev,?_⟩
        -- a stored result comes from a suspend or a handoff, which count nothing
        have hretry : base.retries = false := by
          by_contra htrue
          have hkind : base.kind = .retry := by
            simp [Directive.retries] at htrue
            exact htrue.1
          have hunset := unstored (by rw [hkind]; decide) (by rw [hkind]; decide)
          exact hne (congrArg ResumeToken.snapshotRevision hunset)
        rw [if_neg (by simp [hretry])] at hsum hget
        rw [hhead]
        refine ⟨?_,by omega,by omega⟩
        rw [hsum]
        exact hget.trans (add_zero _)

theorem Balanced.run {out : (ThreadResult T E × Option Err) × Env W T E}
    (h : Run g limit threadID c env new out) (points : List (Point W A T))
    (hbal : Balanced n k points c.runMeta.retryCounts)
    (hk : ∀ base : Directive A, .applied n base ∈ new → base.maxAttempts ≤ (k : Int)) :
    Settled threadID n k (points ++ new) out.1.2 out.1.1 out.2 := by
  induction h generalizing points with
  | last turned => exact hbal.done hk turned
  | more turned run ih =>
    have hnext := hbal.again (fun base hb => hk base (List.mem_append_left _ hb)) turned
    have hsettled := ih _ hnext fun base hb => hk base (List.mem_append_right _ hb)
    rwa [List.append_assoc] at hsettled

/-- What a thread says about the retries of `n`; `last` is its last segment that ran. -/
structure Spent (threadID : Text) (n : Text) (k : Nat) (points : List (Point W A T))
    (last : Segment W A T E) (env : Env W T E) : Prop where
  followed : followsOf n points ≤ k
  retried : retriesOf n points ≤ k ∨ retriesOf n points = k + 1 ∧
    (∃ err, last.err = some err ∧ err.is .retryBudgetExceeded = true) ∧
    ∃ base, points.getLast? = some (.applied n base)
  resumable : ∀ result, last.result = some result → result.resumeToken.snapshotRevision ≠ 0 →
    result.resumeToken.threadID = threadID ∧ ∃ head, (env.threads threadID).getLast? = some head ∧
      head.revision = result.resumeToken.snapshotRevision ∧ Balanced n k points head.runMeta.retryCounts

omit [AnyValue A E] in
theorem joinErrs_is {e f : Option Err} {err : Err} {s : Sentinel} (he : e = some err) (hs : err.is s = true) :
    ∃ joined, joinErrs e f = some joined ∧ joined.is s = true := by
  subst he
  cases f with
  | none => exact ⟨err,rfl,hs⟩
  | some f => exact ⟨err.join f,rfl,by simp [hs]⟩

theorem Performed.spent {opens : Cursor T E → Nat → Prop} {segment : Segment W A T E}
    (h : Performed g limit threadID opens env (segment,env')) (hran : segment.result ≠ none)
    (hopens : ∀ c revision, opens c revision → Balanced n k points c.runMeta.retryCounts)
    (hk : ∀ base : Directive A, .applied n base ∈ segment.points → base.maxAttempts ≤ (k : Int)) :
    Spent threadID n k (points ++ segment.points) segment env' := by
  cases h with
  | refused quiet => exact absurd rfl hran
  | @ran c revision mid _ new result err cleanup done opened quiet run kept =>
    have hsettled := Balanced.run run points (hopens c revision opened) hk
    constructor
    case followed => exact hsettled.followed
    case retried =>
      obtain hle | ⟨hfull,herr,hlast⟩ := hsettled.retried
      · exact .inl hle
      · exact .inr ⟨hfull,joinErrs_is herr (by simp),hlast⟩
    case resumable =>
      intro result' hresult hne
      cases hresult
      obtain ⟨hid,head,hlast,hrev,hbal⟩ := hsettled.resumable hne
      have hpaused : result.status ≠ .completed := run.paused hne
      exact ⟨hid,head,(kept hpaused).trans hlast,hrev,hbal⟩

/-- A node that asks for at most `k` attempts has its retry route followed at most `k` times over all segments
of a thread. One more retry is the last thing the thread does, and ends it with the budget error. -/
theorem retry_budget_spans_segments [Quoting] [Inhabited T] {resumable : Segment W A T E → Prop}
    {last : Segment W A T E} (h : Thread g threadID resumable points last env) (n : Text) (k : Nat)
    (hk : ∀ base : Directive A, .applied n base ∈ points → base.maxAttempts ≤ (k : Int)) :
    followsOf n points ≤ k ∧ (retriesOf n points ≤ k ∨ retriesOf n points = k + 1 ∧
      (∃ err, last.err = some err ∧ err.is .retryBudgetExceeded = true) ∧
      ∃ base, points.getLast? = some (.applied n base)) := by
  suffices hspent : Spent threadID n k points last env from ⟨hspent.followed,hspent.retried⟩
  induction h with
  | @start r inv sink state env env' segment graph started =>
    subst graph
    obtain ⟨out,hout,hperformed⟩ := r.start_performed inv sink threadID state env
    rw [started] at hout
    cases hout
    by_cases hran : segment.result = none
    · rw [(hperformed.quiet_of_refused hran).1]
      refine ⟨Nat.zero_le k,.inl (Nat.zero_le k),fun result hresult => ?_⟩
      rw [hran] at hresult
      cases hresult
    · have hspent : Spent threadID n k ([] ++ segment.points) segment env' := by
        refine hperformed.spent hran (fun c revision hc => ?_) hk
        rw [hc.retries]
        exact .empty n k
      exact hspent
  | @resume points last segment env mid env' r inv sink result before ok returned same graph resumed ran ih =>
    subst graph
    have hbefore := ih fun base hb => hk base (List.mem_append_left _ hb)
    obtain ⟨out,hout,hperformed⟩ := r.resume_performed inv sink result.resumeToken mid
    rw [resumed] at hout
    cases hout
    by_cases hzero : result.resumeToken.snapshotRevision = 0
    · exact absurd (hperformed.refused_of fun c revision hc => hc.positive hzero) ran
    · obtain ⟨hid,head,hlast,hrev,hbal⟩ := hbefore.resumable result returned hzero
      rw [hid] at hperformed
      refine hperformed.spent ran (fun c revision hc => ?_) fun base hb => hk base (List.mem_append_right _ hb)
      obtain ⟨head',hlast',-,-,hretries⟩ := hc.head
      rw [hid,same,hlast] at hlast'
      cases hlast'
      rw [hretries]
      exact hbal
  | @refused points last segment env mid env' r inv sink result before returned same graph resumed none ih =>
    have hbefore := ih hk
    obtain ⟨out,hout,hperformed⟩ := r.resume_performed inv sink result.resumeToken mid
    rw [resumed] at hout
    cases hout
    have hquiet := (hperformed.quiet_of_refused none).2
    refine ⟨hbefore.followed,hbefore.retried,fun result' hresult hne => ?_⟩
    rw [hquiet,same]
    exact hbefore.resumable result' hresult hne

end Threads

section Example

attribute [local instance] Quoting.plain AnyValue.numbers

def retryBuilder : GraphBuilder Unit Nat Nat :=
  (newGraph (some fun _ update => update)).calls
    [.addNode [110] (some fun ctx state w => (⟨.ok (state,.retry 2),ctx.budgets⟩,w)),
      .allowNoOutgoingRoute [110],.addRetryRoute [110] [110],.setEntryPoint [110]]

def retryRunner : Runner Unit Nat Nat Nat :=
  { refusedHandoff with graph := retryBuilder.buildGraph (applyBuildOptions []) }

def Point.asksAtMost {W A T : Type} (k : Int) : Point W A T → Bool
  | .applied _ base => decide (base.maxAttempts ≤ k)
  | .missing _ | .invoked _ _ _ _ | .stranded _ | .followed _ _ _ => true

theorem retry_thread_spent : ∃ points last env,
    Thread retryRunner.graph [116] (fun _ : Segment Unit Nat Nat Nat => True) points last env ∧
      followsOf [110] points ≤ 2 ∧ (retriesOf [110] points ≤ 2 ∨ retriesOf [110] points = 3 ∧
        (∃ err, last.err = some err ∧ err.is .retryBudgetExceeded = true) ∧
        ∃ base, points.getLast? = some (.applied [110] base)) := by
  obtain ⟨⟨segment,env'⟩,hout,-⟩ := retryRunner.start_performed ⟨none,none,none,none,∅,∅,none,false,.hardFail⟩
    none [116] 0 ⟨(),fun _ => [],[]⟩
  have hasks : (retryRunner.start ⟨none,none,none,none,∅,∅,none,false,.hardFail⟩ none [116] 0
      ⟨(),fun _ => [],[]⟩).map (fun out => out.1.points.all (Point.asksAtMost 2)) = some true := by
    decide +kernel
  rw [hout,Option.map_some,Option.some.injEq,List.all_eq_true] at hasks
  have hthread : Thread retryRunner.graph [116] (fun _ : Segment Unit Nat Nat Nat => True) segment.points
      segment env' := .start rfl hout
  refine ⟨segment.points,segment,env',hthread,retry_budget_spans_segments hthread [110] 2 fun base hb => ?_⟩
  simpa [Point.asksAtMost] using hasks _ hb

end Example
end Flowy
