import Flowy.Child.Decision

/-! What a commit does to one group. `GroupEdit` lists the edits the sections make, with the guards
they passed; everything later proofs need of a commit follows from it. -/
namespace Flowy

def runningChildren (g : ChildGroupRecord) : Nat := g.children.countP fun c => c.state == .running

section Lists

theorem mapM_eq_ok {α β : Type} {f : α → Result β} {xs : List α} {ys : List β}
    (h : xs.mapM f = .ok ys) : List.Forall₂ (fun x y => f x = .ok y) xs ys := by
  induction xs generalizing ys with
  | nil =>
    cases h
    exact .nil
  | cons x xs ih =>
    rw [List.mapM_cons,bind_eq_ok] at h
    obtain ⟨y,hy,h⟩ := h
    rw [bind_eq_ok] at h
    obtain ⟨zs,hzs,h⟩ := h
    cases h
    exact .cons hy (ih hzs)

theorem exists_mapM_ok {α β : Type} {f : α → Result β} {xs : List α} (h : ∀ x ∈ xs, ∃ y, f x = .ok y) :
    ∃ ys, xs.mapM f = .ok ys := by
  induction xs with
  | nil => exact ⟨[],rfl⟩
  | cons x xs ih =>
    obtain ⟨y,hy⟩ := h x List.mem_cons_self
    obtain ⟨ys,hys⟩ := ih fun x hx => h x (List.mem_cons_of_mem _ hx)
    exact ⟨y :: ys,by rw [List.mapM_cons,hy,hys]; rfl⟩

theorem child?_id {g : ChildGroupRecord} {id : Text} {c : ChildRecord} (h : g.child? id = some c) :
    c.spec.id = id := by
  simpa using List.find?_some h

theorem child?_mem {g : ChildGroupRecord} {id : Text} {c : ChildRecord} (h : g.child? id = some c) :
    c ∈ g.children := List.mem_of_find?_eq_some h

theorem setChild_split {g : ChildGroupRecord} {c c' : ChildRecord}
    (hd : (g.children.map fun c => c.spec.id).Nodup) (hc : c ∈ g.children) (hs : c'.spec.id = c.spec.id) :
    ∃ pre post, g.children = pre ++ c :: post ∧ (g.setChild c').children = pre ++ c' :: post := by
  obtain ⟨pre,post,hsplit⟩ := List.append_of_mem hc
  refine ⟨pre,post,hsplit,?_⟩
  rw [hsplit,List.map_append,List.map_cons] at hd
  have hpre : ∀ x ∈ pre, x.spec.id ≠ c.spec.id := by
    intro x hx heq
    exact (List.nodup_append.mp hd).2.2 _ (List.mem_map_of_mem hx) _ (by simp) heq
  have hpost : ∀ x ∈ post, x.spec.id ≠ c.spec.id := by
    intro x hx heq
    exact (List.nodup_cons.mp (List.nodup_append.mp hd).2.1).1 (heq ▸ List.mem_map_of_mem hx)
  have hkeep : ∀ xs : List ChildRecord, (∀ x ∈ xs, x.spec.id ≠ c.spec.id) →
      xs.map (fun x => if x.spec.id = c'.spec.id then c' else x) = xs := by
    intro xs hxs
    refine (List.map_congr_left fun x hx => ?_).trans (List.map_id _)
    simp [hs,hxs x hx]
  change g.children.map (fun x => if x.spec.id = c'.spec.id then c' else x) = _
  rw [hsplit,List.map_append,List.map_cons,hkeep pre hpre,hkeep post hpost,if_pos hs.symm]

end Lists

/-- How a commit may change one child: it is launched from a launchable state, never becomes
launchable again, and is frozen once it is settled. -/
structure ChildAdvance (c c' : ChildRecord) : Prop where
  spec : c'.spec = c.spec
  executionID : c'.executionID = c.executionID
  launchable : launchable c' = true → launchable c = true
  running : c'.state = .running → c.state = .running ∨ Flowy.launchable c = true
  newer : c' = c ∨ c.revision < c'.revision
  frozen : settledChild c = true → c' = c
  asked : c.cancelRequested = true → c'.cancelRequested = true

theorem ChildAdvance.refl (c : ChildRecord) : ChildAdvance c c :=
  ⟨rfl,rfl,id,.inl,.inl rfl,fun _ => rfl,id⟩

structure GroupAdvance (g g' : ChildGroupRecord) : Prop where
  parentID : g'.parentID = g.parentID
  node : g'.node = g.node
  activation : g'.activation = g.activation
  plan : g'.plan = g.plan
  capacity : g'.capacity = g.capacity
  children : List.Forall₂ ChildAdvance g.children g'.children
  requested : g.cancelRequested = true → g'.cancelRequested = true
  request : ∀ r, g.cancelRequest = some r → g'.cancelRequest = some r
  halted : g.cancelRequested = true → List.Forall₂ (fun c c' =>
    c'.state = .queued ∨ c'.state = .running → c'.state = c.state) g.children g'.children
  returns : ∀ id r, g.budgetReturns.get? id = some r → g'.budgetReturns.get? id = some r

theorem GroupAdvance.refl (g : ChildGroupRecord) : GroupAdvance g g :=
  ⟨rfl,rfl,rfl,rfl,rfl,List.forall₂_same.mpr fun c _ => .refl c,id,fun _ => id,
    fun _ => List.forall₂_same.mpr fun _ _ _ => rfl,fun _ _ => id⟩

theorem GroupAdvance.ids {g g' : ChildGroupRecord} (h : GroupAdvance g g') :
    (g'.children.map fun c => c.spec.id) = g.children.map fun c => c.spec.id := by
  have hall := h.children
  generalize g.children = xs at hall
  generalize g'.children = ys at hall
  induction hall with
  | nil => rfl
  | cons hc _ ih => rw [List.map_cons,List.map_cons,ih,hc.spec]

theorem GroupAdvance.identity [Sha256] {g g' : ChildGroupRecord} (h : GroupAdvance g g') :
    g'.identity = g.identity := by
  rw [ChildGroupRecord.identity,ChildGroupRecord.identity,h.parentID,h.node,h.activation,h.plan]

theorem forall₂_setChild {R : ChildRecord → ChildRecord → Prop} {g : ChildGroupRecord}
    {c c' : ChildRecord} (hd : (g.children.map fun c => c.spec.id).Nodup) (hc : c ∈ g.children)
    (hs : c'.spec.id = c.spec.id) (hrefl : ∀ x ∈ g.children, x.spec.id ≠ c.spec.id → R x x) (h : R c c') :
    List.Forall₂ R g.children (g.setChild c').children := by
  obtain ⟨pre,post,hsplit,hset⟩ := setChild_split hd hc hs
  rw [hsplit,List.map_append,List.map_cons] at hd
  have hpre : ∀ x ∈ pre, R x x := fun x hx => hrefl x (by simp [hsplit,hx]) fun heq =>
    (List.nodup_append.mp hd).2.2 _ (List.mem_map_of_mem hx) _ (by simp) heq
  have hpost : ∀ x ∈ post, R x x := fun x hx => hrefl x (by simp [hsplit,hx]) fun heq =>
    (List.nodup_cons.mp (List.nodup_append.mp hd).2.1).1 (heq ▸ List.mem_map_of_mem hx)
  rw [hsplit,hset]
  exact List.rel_append (List.forall₂_same.mpr hpre) (.cons h (List.forall₂_same.mpr hpost))

theorem GroupAdvance.setChild {g : ChildGroupRecord} {c c' : ChildRecord}
    (hd : (g.children.map fun c => c.spec.id).Nodup) (hc : c ∈ g.children) (h : ChildAdvance c c')
    (hhalt : g.cancelRequested = true → c'.state ≠ .queued ∧ c'.state ≠ .running) :
    GroupAdvance g (g.setChild c') := by
  have hs := congrArg ChildSpec.id h.spec
  refine ⟨rfl,rfl,rfl,rfl,rfl,forall₂_setChild hd hc hs (fun x _ _ => .refl x) h,id,fun _ => id,
    fun hg => ?_,fun _ _ => id⟩
  refine forall₂_setChild hd hc hs (fun _ _ _ _ => rfl) fun hstate => ?_
  rcases hstate with hstate | hstate
  · exact absurd hstate (hhalt hg).1
  · exact absurd hstate (hhalt hg).2

section Edits

variable [Sha256] {J W : Type}

inductive ChildDecided (clock : Time → Bool) (i : Nat) (e : ExecutionEnvelope J ChildGroups W)
    (g : ChildGroupRecord) (c : ChildRecord) : ChildRecord → Prop
  | confirm (d : ChildCancelConfirmation) (now : Time) (hnow : clock now = true)
      (hcheck : d.check = .ok ()) (hrequest : ∃ r, g.cancelRequest = some r ∧ r.id = d.requestID)
      (hrev : c.revision = d.childRevision) (hasked : c.cancelRequested = true)
      (hopen : unresolvedCancelableChild c.state = true) :
      ChildDecided clock i e g c (confirmChildCancel d e.revision i now c)
  | wait (r : ChildWaitResolution) (now : Time) (hnow : clock now = true) (hcheck : r.check = .ok ())
      (hrev : c.revision = r.childRevision) (hs : c.state = .waiting) (hw : c.waitID = r.waitID) :
      ChildDecided clock i e g c (resolveWaitingChild r e.revision i now c)
  | outcome (r : ChildOutcomeResolution) (now : Time) (hnow : clock now = true)
      (hcheck : validChildOutcomeRequest r = true)
      (hgroup : r.node = g.node ∧ r.activation = g.activation ∧ r.groupKey = g.plan.key ∧
        r.groupLabel = g.plan.label)
      (hchild : r.childID = c.spec.id ∧ r.executionID = c.executionID ∧ r.childRevision = c.revision)
      (hnew : r.decisionID ∉ childOutcomeDecisionIDs e.children)
      (hs : c.state = .unknown ∨ (c.state = .running ∧ c.incarnation < i)) :
      ChildDecided clock i e g c
        (resolveUnknownChild r (childOutcomeRequestDigest r) e.revision i now c)

inductive EditScope
  | group
  | child (id : Text)
  | launch (id : Text)
deriving DecidableEq

/-- The edits that session `i` commits to one group of its envelope `e`, each with what its section
checked, and what the edit is about. `clock` tells which readings the injected clock can return. -/
inductive GroupEdit (clock : Time → Bool) (i : Nat) (e : ExecutionEnvelope J ChildGroups W)
    (g : ChildGroupRecord) : EditScope → ChildGroupRecord → Prop
  | queue (c : ChildRecord) (hc : c ∈ g.children) (hg : g.cancelRequested = false)
      (hs : c.state = .planned) : GroupEdit clock i e g (.child c.spec.id) (g.setChild (queueChild c))
  | start (c : ChildRecord) (hc : c ∈ g.children) (hg : g.cancelRequested = false)
      (hs : c.state = .queued) : GroupEdit clock i e g (.launch c.spec.id) (g.setChild (startChild i c))
  | recover (children : List ChildRecord) (hr : ∃ c ∈ g.children, c.state = .running)
      (h : List.Forall₂ (fun c c' => recoverChild i c = .ok c') g.children children) :
      GroupEdit clock i e g .group { g with children := children }
  | finish (c : ChildRecord) (hc : c ∈ g.children) (result : ChildResult) (hs : c.state = .running)
      (hi : c.incarnation = i) (hr : validChildResultState result.state = true)
      (hv : validateChildRecordState (settleChild c result) = true) :
      GroupEdit clock i e g (.child c.spec.id) (g.setChild (settleChild c result))
  | join (result : Bytes) (hm : g.unmerged = true) (hs : ∀ c ∈ g.children, settledChild c = true) :
      GroupEdit clock i e g .group
        { g with mergedIDs := g.children.map fun c => c.spec.id, mergedResult := result }
  | cancel (request : ChildCancelRequest) (now : Time) (children : List ChildRecord)
      (hnow : clock now = true) (hcheck : request.check = .ok ()) (hm : g.mergedIDs = [])
      (hnone : g.cancelRequest = none)
      (h : List.Forall₂ (fun c c' => requestChildCancel c = .ok c') g.children children) :
      GroupEdit clock i e g .group { g with
        cancelRequested := true
        cancelRequest := some ⟨request.id,request.reason,e.revision,i,now⟩
        children := children }
  | credit (claim : ChildBudgetReturn) (c : ChildRecord) (returned : Counters) (now : Time)
      (hnow : clock now = true) (hcheck : claim.check = .ok ())
      (hnone : g.budgetReturns.get? claim.childID = none)
      (hc : childForBudgetReturn g claim.childID = some c) (hrev : c.revision = claim.childRevision)
      (hret : computeChildBudgetReturn c claim.used = .ok returned) :
      GroupEdit clock i e g (.child claim.childID) { g with
        budgetReturns := g.budgetReturns.set claim.childID ⟨claim.childRevision,claim.decisionID,
          claim.reason,claim.evidence,claim.used,returned,e.revision,i,now⟩ }
  | decide (c c' : ChildRecord) (hc : c ∈ g.children) (hm : g.mergedIDs = [])
      (h : ChildDecided clock i e g c c') (hv : validateChildRecordState c' = true) :
      GroupEdit clock i e g (.child c.spec.id) (g.setChild c')

end Edits

theorem launchable_of_state {c : ChildRecord} (h : c.state = .planned ∨ c.state = .queued) :
    launchable c = true := by
  rcases h with h | h <;> simp [launchable,h]

theorem not_launchable_of_settled {c : ChildRecord} (h : settledChild c = true) :
    launchable c = false ∧ c.state ≠ .running := by
  simp only [settledChild,Bool.or_eq_true,beq_iff_eq] at h
  rcases h with (h | h) | h <;> simp [launchable,h]

theorem not_launchable_of_result {c : ChildRecord} {result : ChildResult}
    (h : validChildResultState result.state = true) :
    launchable (settleChild c result) = false ∧ (settleChild c result).state ≠ .running := by
  have hs : (settleChild c result).state = result.state := rfl
  simp only [launchable,hs]
  cases hr : result.state <;> simp_all [validChildResultState]

theorem settleChild_advance {c : ChildRecord} {result : ChildResult} (hs : c.state = .running)
    (hr : validChildResultState result.state = true) : ChildAdvance c (settleChild c result) := by
  obtain ⟨hl,hn⟩ := not_launchable_of_result (c := c) hr
  refine ⟨rfl,rfl,fun h => ?_,fun h => absurd h hn,.inr (Nat.lt_succ_self _),fun h => ?_,id⟩
  · rw [hl] at h
    cases h
  · exact absurd hs (not_launchable_of_settled h).2

theorem recoverChild_eq_ok {i : Nat} {c c' : ChildRecord} (h : recoverChild i c = .ok c') :
    (c.state ≠ .running ∧ c' = c) ∨ (c.state = .running ∧ c.incarnation ≠ i ∧
      c' = { c with state := .unknown, revision := c.revision + 1 }) := by
  unfold recoverChild at h
  split at h
  · rename_i hs
    simp only [bind_eq_ok,require_eq_ok,exists_const] at h
    obtain ⟨-,hi,h⟩ := h
    cases h
    exact .inr ⟨hs,by simpa using hi,rfl⟩
  · rename_i hs
    cases h
    exact .inl ⟨hs,rfl⟩

theorem recoverChild_advance {i : Nat} {c c' : ChildRecord} (h : recoverChild i c = .ok c') :
    ChildAdvance c c' := by
  rcases recoverChild_eq_ok h with ⟨-,rfl⟩ | ⟨hs,-,rfl⟩
  · exact .refl _
  · exact ⟨rfl,rfl,fun h => absurd h (by simp [launchable]),(fun h => by cases h),.inr (Nat.lt_succ_self _),
      fun h => absurd hs (not_launchable_of_settled h).2,id⟩

theorem requestChildCancel_eq_ok {c c' : ChildRecord} (h : requestChildCancel c = .ok c') :
    (settledChild c = true ∧ c' = c) ∨
      (settledChild c = false ∧ launchable c = true ∧ c' = { c with
        cancelRequested := true, revision := c.revision + 1, state := .canceled, cancelConfirmed := true }) ∨
      (settledChild c = false ∧ launchable c = false ∧ c' = { c with
        cancelRequested := true, revision := c.revision + 1 }) := by
  unfold requestChildCancel at h
  split at h
  · rename_i hs
    cases h
    exact .inl ⟨hs,rfl⟩
  · rename_i hs
    simp only [bind_eq_ok,require_eq_ok,exists_const] at h
    obtain ⟨-,h⟩ := h
    cases h
    split
    · rename_i hl
      exact .inr (.inl ⟨by simpa using hs,hl,rfl⟩)
    · rename_i hl
      exact .inr (.inr ⟨by simpa using hs,by simpa using hl,rfl⟩)

theorem requestChildCancel_advance {c c' : ChildRecord} (h : requestChildCancel c = .ok c') :
    ChildAdvance c c' := by
  rcases requestChildCancel_eq_ok h with ⟨-,rfl⟩ | ⟨hs,hl,rfl⟩ | ⟨hs,hl,rfl⟩
  · exact .refl _
  · exact ⟨rfl,rfl,fun _ => hl,(fun h => by cases h),.inr (Nat.lt_succ_self _),
      (fun h => by rw [hs] at h; cases h),fun _ => rfl⟩
  · exact ⟨rfl,rfl,id,.inl,.inr (Nat.lt_succ_self _),(fun h => by rw [hs] at h; cases h),fun _ => rfl⟩

section Decided

variable [Sha256] {J W : Type} {clock : Time → Bool} {i : Nat} {e : ExecutionEnvelope J ChildGroups W}
  {g g' : ChildGroupRecord} {c c' : ChildRecord}

theorem ChildDecided.settles (h : ChildDecided clock i e g c c') :
    unresolvedCancelableChild c.state = true ∧ settledChild c' = true := by
  cases h with
  | confirm d now hnow hcheck hrequest hrev hasked hopen => exact ⟨hopen,rfl⟩
  | wait r now hnow hcheck hrev hs hw =>
    refine ⟨by simp [unresolvedCancelableChild,hs],?_⟩
    simp only [ChildWaitResolution.check,require_eq_ok,Bool.and_eq_true] at hcheck
    have hstate := hcheck.1.2
    simp only [Bool.or_eq_true,beq_iff_eq] at hstate
    simp only [settledChild,resolveWaitingChild,Bool.or_eq_true,beq_iff_eq]
    exact .inl hstate
  | outcome r now hnow hcheck hgroup hchild hnew hs =>
    refine ⟨?_,?_⟩
    · rcases hs with hs | ⟨hs,-⟩ <;> simp [unresolvedCancelableChild,hs]
    · simp only [validChildOutcomeRequest,Bool.and_eq_true] at hcheck
      have hstate := hcheck.2
      simp only [settledChild,resolveUnknownChild]
      cases hr : r.result.state <;> simp_all

theorem ChildDecided.advance (h : ChildDecided clock i e g c c') : ChildAdvance c c' := by
  obtain ⟨hopen,hset⟩ := h.settles
  obtain ⟨hl,hn⟩ := not_launchable_of_settled hset
  have hlaunch : launchable c' = true → launchable c = true := fun h => by rw [hl] at h; cases h
  have hfrozen : settledChild c = true → c' = c := by
    intro h
    simp only [unresolvedCancelableChild,settledChild,Bool.or_eq_true,beq_iff_eq] at hopen h
    rcases h with (h | h) | h <;> simp [h] at hopen
  cases h with
  | confirm | wait | outcome =>
    exact ⟨rfl,rfl,hlaunch,fun h => absurd h hn,.inr (Nat.lt_succ_self _),hfrozen,id⟩

theorem GroupEdit.advance {a : EditScope} (hd : (g.children.map fun c => c.spec.id).Nodup)
    (h : GroupEdit clock i e g a g') : GroupAdvance g g' := by
  have hwrong : g.cancelRequested = false → g.cancelRequested = true → False := by simp_all
  cases h with
  | queue c hc hg hs =>
    refine .setChild hd hc ⟨rfl,rfl,fun _ => launchable_of_state (.inl hs),(fun h => by cases h),
      .inr (Nat.lt_succ_self _),fun h => ?_,id⟩ fun h => (hwrong hg h).elim
    simp [settledChild,hs] at h
  | start c hc hg hs =>
    refine .setChild hd hc ⟨rfl,rfl,fun h => absurd h (by simp [launchable,startChild]),
      fun _ => .inr (launchable_of_state (.inr hs)),.inr (Nat.lt_succ_self _),fun h => ?_,id⟩
      fun h => (hwrong hg h).elim
    simp [settledChild,hs] at h
  | recover children hr h =>
    refine { GroupAdvance.refl g with children := h.imp fun _ _ => recoverChild_advance, halted := ?_ }
    refine fun _ => h.imp fun c c' hc hstate => ?_
    rcases recoverChild_eq_ok hc with ⟨-,rfl⟩ | ⟨-,-,rfl⟩
    · rfl
    · simp at hstate
  | finish c hc result hs hi hr hv =>
    refine .setChild hd hc (settleChild_advance hs hr) fun _ =>
      ⟨fun h => ?_,(not_launchable_of_result hr).2⟩
    have hl := (not_launchable_of_result (c := c) hr).1
    rw [launchable_of_state (.inr h)] at hl
    cases hl
  | join result hm hs => exact { GroupAdvance.refl g with }
  | cancel request now children hnow hcheck hm hnone h =>
    refine { GroupAdvance.refl g with
      children := h.imp fun _ _ => requestChildCancel_advance, requested := fun _ => rfl,
      request := fun r hr => ?_, halted := fun _ => h.imp fun c c' hc hstate => ?_ }
    · rw [hnone] at hr
      cases hr
    · rcases requestChildCancel_eq_ok hc with ⟨-,rfl⟩ | ⟨-,-,rfl⟩ | ⟨-,-,rfl⟩
      · rfl
      · simp at hstate
      · rfl
  | credit claim c returned now hnow hcheck hnone hc hrev hret =>
    refine { GroupAdvance.refl g with returns := fun id r hr => ?_ }
    rw [GoMap.get?_set]
    split
    · rename_i heq
      rw [heq,hnone] at hr
      cases hr
    · exact hr
  | decide c c' hc hm h hv =>
    obtain ⟨hl,hn⟩ := not_launchable_of_settled h.settles.2
    refine .setChild hd hc h.advance fun _ => ⟨fun hq => ?_,hn⟩
    rw [launchable_of_state (.inr hq)] at hl
    cases hl

theorem GroupEdit.frame {a : EditScope} {id : Text} (hd : (g.children.map fun c => c.spec.id).Nodup)
    (h : GroupEdit clock i e g a g') (ha : a = .child id ∨ a = .launch id) :
    List.Forall₂ (fun c c' => c.spec.id ≠ id → c' = c) g.children g'.children := by
  have hset : ∀ {c c' : ChildRecord}, c ∈ g.children → c'.spec = c.spec → c.spec.id = id →
      List.Forall₂ (fun x x' => x.spec.id ≠ id → x' = x) g.children (g.setChild c').children := by
    rintro c c' hc hspec rfl
    exact forall₂_setChild hd hc (congrArg ChildSpec.id hspec) (fun _ _ _ _ => rfl)
      fun hne => absurd rfl hne
  cases h with
  | queue c hc hg hs => exact hset hc rfl (by simpa using ha)
  | start c hc hg hs => exact hset hc rfl (by simpa using ha)
  | finish c hc result hs hi hr hv => exact hset hc rfl (by simpa using ha)
  | credit claim c returned now hnow hcheck hnone hc hrev hret =>
    exact List.forall₂_same.mpr fun _ _ _ => rfl
  | decide c c' hc hm h hv => exact hset hc h.advance.spec (by simpa using ha)
  | recover | join | cancel => simp at ha

end Decided

section Counts

variable {g g' : ChildGroupRecord}

theorem runningChildren_reread (g : ChildGroupRecord) : runningChildren g.reread = runningChildren g := by
  simp only [runningChildren,ChildGroupRecord.reread,List.countP_map]
  rfl

theorem launchableChildIDs_reread (g : ChildGroupRecord) :
    launchableChildIDs g.reread = launchableChildIDs g := by
  have hf : ∀ xs : List ChildRecord, ((xs.map ChildRecord.reread).filter launchable).map
      (fun c => c.spec.id) = (xs.filter launchable).map fun c => c.spec.id := by
    intro xs
    rw [List.filter_map,List.map_map]
    rfl
  simp only [launchableChildIDs,ChildGroupRecord.reread,hf]

theorem running_of_forall₂ {xs ys : List ChildRecord}
    (h : List.Forall₂ (fun c c' => c'.state = .running → c.state = .running) xs ys) :
    ys.countP (fun c => c.state == .running) ≤ xs.countP fun c => c.state == .running := by
  induction h with
  | nil => exact Nat.le_refl _
  | cons hc hcs ih =>
    rename_i c c' cs cs'
    simp only [List.countP_cons]
    by_cases hs : c'.state = .running
    · simp only [hs,hc hs,beq_self_eq_true,if_true]
      omega
    · have hb : (c'.state == .running) = false := by simpa using hs
      rw [hb]
      simp only [Bool.false_eq_true,if_false]
      omega

theorem launchable_of_forall₂ {xs ys : List ChildRecord}
    (h : List.Forall₂ (fun c c' => launchable c' = launchable c ∧ c'.spec = c.spec) xs ys) :
    (ys.filter launchable).map (fun c => c.spec.id) = (xs.filter launchable).map fun c => c.spec.id := by
  induction h with
  | nil => rfl
  | cons hc hcs ih =>
    rename_i c c' cs cs'
    simp only [List.filter_cons,hc.1]
    split
    · simp only [List.map_cons,hc.2,ih]
    · exact ih

/-- An edit that no other launch loop of the group has to notice: the launchable children stay as
they are, or the first of them is gone. -/
structure LaunchQuiet (g g' : ChildGroupRecord) : Prop where
  plan : g'.plan = g.plan
  sub : ∀ id ∈ launchableChildIDs g', id ∈ launchableChildIDs g
  head : (launchableChildIDs g' = launchableChildIDs g ∧ runningChildren g' ≤ runningChildren g) ∨
    ∀ id rest, launchableChildIDs g = id :: rest → id ∉ launchableChildIDs g'

theorem LaunchQuiet.of_same (hp : g'.plan = g.plan) (hl : launchableChildIDs g' = launchableChildIDs g)
    (hr : runningChildren g' ≤ runningChildren g) : LaunchQuiet g g' :=
  ⟨hp,fun _ hid => hl ▸ hid,.inl ⟨hl,hr⟩⟩

theorem LaunchQuiet.refl (g : ChildGroupRecord) : LaunchQuiet g g := .of_same rfl rfl (Nat.le_refl _)

theorem LaunchQuiet.reread (h : LaunchQuiet g g') : LaunchQuiet g g'.reread := by
  refine ⟨h.plan,?_,?_⟩
  · rw [launchableChildIDs_reread]
    exact h.sub
  · rw [launchableChildIDs_reread,runningChildren_reread]
    exact h.head

variable (hd : (g.children.map fun c => c.spec.id).Nodup)

include hd

theorem runningChildren_setChild {c c' : ChildRecord} (hc : c ∈ g.children)
    (hs : c'.spec.id = c.spec.id) :
    runningChildren (g.setChild c') + (if c.state = .running then 1 else 0) =
      runningChildren g + if c'.state = .running then 1 else 0 := by
  obtain ⟨pre,post,hsplit,hset⟩ := setChild_split hd hc hs
  simp only [runningChildren,hsplit,hset,List.countP_append,List.countP_cons,beq_iff_eq]
  omega

theorem launchableChildIDs_setChild {c c' : ChildRecord} (hc : c ∈ g.children)
    (hs : c'.spec.id = c.spec.id) (hl : launchable c' = launchable c) :
    launchableChildIDs (g.setChild c') = launchableChildIDs g := by
  obtain ⟨pre,post,hsplit,hset⟩ := setChild_split hd hc hs
  have hcancel : (g.setChild c').cancelRequested = g.cancelRequested := rfl
  simp only [launchableChildIDs,hcancel,hset,hsplit,List.filter_append,List.filter_cons,hl]
  split
  · rfl
  · split
    · simp [hs]
    · rfl

theorem launchableChildIDs_start {i : Nat} {c : ChildRecord} {rest : List Text} (hc : c ∈ g.children)
    (hg : g.cancelRequested = false) (hl : launchable c = true)
    (hhead : launchableChildIDs g = c.spec.id :: rest) :
    launchableChildIDs (g.setChild (startChild i c)) = rest := by
  obtain ⟨pre,post,hsplit,hset⟩ := setChild_split hd hc (show (startChild i c).spec.id = _ from rfl)
  have hcancel : (g.setChild (startChild i c)).cancelRequested = false := hg
  have hgone : launchable (startChild i c) = false := rfl
  simp only [launchableChildIDs,hg,hsplit,List.filter_append,List.filter_cons,hl,if_true,
    List.map_append,List.map_cons,Bool.false_eq_true,if_false] at hhead
  simp only [launchableChildIDs,hcancel,hset,List.filter_append,List.filter_cons,hgone,
    List.map_append,Bool.false_eq_true,if_false]
  -- an earlier launchable child would share the id of `c`
  cases hpre : pre.filter launchable with
  | nil => simpa [hpre] using hhead
  | cons d ds =>
    rw [hpre,List.map_cons,List.cons_append,List.cons.injEq] at hhead
    have hdm : d ∈ pre := (List.mem_filter.mp (hpre ▸ List.mem_cons_self)).1
    rw [hsplit,List.map_append,List.map_cons] at hd
    exact absurd hhead.1 ((List.nodup_append.mp hd).2.2 _ (List.mem_map_of_mem hdm) _ (by simp))

theorem LaunchQuiet.start {i : Nat} {c : ChildRecord} {rest : List Text} (hc : c ∈ g.children)
    (hg : g.cancelRequested = false) (hl : launchable c = true)
    (hhead : launchableChildIDs g = c.spec.id :: rest) : LaunchQuiet g (g.setChild (startChild i c)) := by
  have hrest := launchableChildIDs_start hd (i := i) hc hg hl hhead
  refine ⟨rfl,?_,.inr ?_⟩
  · intro id hid
    rw [hrest] at hid
    rw [hhead]
    exact List.mem_cons_of_mem _ hid
  · intro id rest' heq
    rw [hhead,List.cons.injEq] at heq
    rw [hrest,← heq.1]
    have hnd : (launchableChildIDs g).Nodup := by
      unfold launchableChildIDs
      split
      · exact List.nodup_nil
      · exact (List.filter_sublist.map _).nodup hd
    rw [hhead] at hnd
    exact (List.nodup_cons.mp hnd).1

theorem GroupEdit.quiet [Sha256] {J W : Type} {clock : Time → Bool} {i : Nat}
    {e : ExecutionEnvelope J ChildGroups W} {a : EditScope} (h : GroupEdit clock i e g a g')
    (ha : ∀ id, a ≠ .launch id) : LaunchQuiet g g' ∧ runningChildren g' ≤ runningChildren g := by
  have hsame : g'.plan = g.plan → launchableChildIDs g' = launchableChildIDs g →
      runningChildren g' ≤ runningChildren g →
      LaunchQuiet g g' ∧ runningChildren g' ≤ runningChildren g := fun hp hl hr => ⟨.of_same hp hl hr,hr⟩
  cases h with
  | queue c hc hg hs =>
    have hl : launchable (queueChild c) = launchable c := by
      rw [launchable_of_state (.inl hs)]
      rfl
    have hr := runningChildren_setChild hd hc (show (queueChild c).spec.id = _ from rfl)
    simp only [hs,queueChild,reduceCtorEq,if_false] at hr
    exact hsame rfl (launchableChildIDs_setChild hd hc rfl hl) hr.le
  | start c hc hg hs => exact absurd rfl (ha c.spec.id)
  | recover children hr h =>
    refine hsame rfl ?_ (running_of_forall₂ (h.imp fun c c' hc => ?_))
    · unfold launchableChildIDs
      rw [launchable_of_forall₂ (h.imp fun c c' hc => ?_)]
      rcases recoverChild_eq_ok hc with ⟨-,rfl⟩ | ⟨hs,-,rfl⟩
      · exact ⟨rfl,rfl⟩
      · refine ⟨?_,rfl⟩
        simp only [launchable,hs]
        decide
    · rcases recoverChild_eq_ok hc with ⟨-,rfl⟩ | ⟨hs,-,rfl⟩
      · exact id
      · exact fun _ => hs
  | finish c hc result hs hi hr hv =>
    obtain ⟨hl,hn⟩ := not_launchable_of_result (c := c) hr
    have hcount := runningChildren_setChild hd hc (show (settleChild c result).spec.id = _ from rfl)
    rw [if_pos hs,if_neg hn] at hcount
    refine hsame rfl (launchableChildIDs_setChild hd hc rfl ?_) (by omega)
    rw [hl]
    simp [launchable,hs]
  | join result hm hs => exact hsame rfl rfl (Nat.le_refl _)
  | cancel request now children hnow hcheck hm hnone h =>
    -- nothing is launchable once a cancellation is requested
    refine ⟨⟨rfl,by simp [launchableChildIDs],.inr fun id rest _ => by simp [launchableChildIDs]⟩,
      running_of_forall₂ (h.imp fun c c' hc hs => ?_)⟩
    rcases requestChildCancel_eq_ok hc with ⟨-,rfl⟩ | ⟨-,-,rfl⟩ | ⟨-,-,rfl⟩
    · exact hs
    · cases hs
    · exact hs
  | credit claim c returned now hnow hcheck hnone hc hrev hret =>
    exact hsame rfl rfl (Nat.le_refl _)
  | decide c c' hc hm h hv =>
    obtain ⟨hopen,hset⟩ := h.settles
    obtain ⟨hl,hn⟩ := not_launchable_of_settled hset
    have hsid := congrArg ChildSpec.id h.advance.spec
    have hcount := runningChildren_setChild hd hc hsid
    rw [if_neg hn] at hcount
    refine hsame rfl (launchableChildIDs_setChild hd hc hsid ?_) (by omega)
    rw [hl]
    simp only [unresolvedCancelableChild,Bool.or_eq_true,beq_iff_eq] at hopen
    rcases hopen with (hs | hs) | hs <;> simp [launchable,hs]

end Counts
end Flowy
