import Flowy.Child.CancelSafe

/-! Outcome decisions over whole runs. A committed decision stays in its child record, so presenting it
again finds it; its digest binds every field, so nothing else passes for it. -/
namespace Flowy

open Fencing Json
open scoped List

section Digest

variable {r r' : ChildOutcomeResolution}

def requestScalars (r : ChildOutcomeResolution) : List Scalar :=
  [.text (ascii "flowy-child-outcome-v1"),.text r.node,.nat r.activation,.text r.groupKey,
    .text r.groupLabel,.text r.childID,.text r.executionID,.nat r.childRevision,.text r.decisionID,
    .text r.reason,.text r.evidence,.text r.result.state.text]

theorem childOutcomeRequestText_eq (r : ChildOutcomeResolution) :
    childOutcomeRequestText r = 0x5B :: scalarsThen (requestScalars r)
      (render (canonicalChildOutcomePayload r.result.payload) ++
        0x2C :: scalars [.text r.result.error,.text r.result.waitID]) := by
  simp only [childOutcomeRequestText,requestScalars,scalarsThen,scalars,commaJoin,render,natCodec,
    Codec.literal,List.foldr_cons,List.foldr_nil,List.flatMap_cons,List.flatMap_append,List.flatMap_nil,
    List.cons_append,List.nil_append,List.append_assoc,List.append_nil,Token.render,Scalar.render]
  rfl

/-- A payload ends at its comma: it is `null`, or base64 in quotes. -/
theorem canonicalPayload_append_inj {p q x y : Bytes}
    (h : render (canonicalChildOutcomePayload p) ++ 0x2C :: x =
      render (canonicalChildOutcomePayload q) ++ 0x2C :: y) : p = q ∧ x = y := by
  have hquoted : ∀ s : Bytes, s ≠ [] →
      render (canonicalChildOutcomePayload s) = 0x22 :: (base64 s ++ [0x22]) := by
    intro s hs
    simp only [canonicalChildOutcomePayload,if_neg hs,payloadCodec,Codec.literal,quoted,render,
      List.flatMap_cons,List.flatMap_nil,Token.render,List.append_nil,List.cons_append]
  have hnull : render (canonicalChildOutcomePayload []) = ascii "null" := rfl
  by_cases hp : p = []
  · by_cases hq : q = []
    · subst hp hq
      exact ⟨rfl,(List.cons.inj (List.append_cancel_left h)).2⟩
    · rw [hp,hnull,hquoted q hq] at h
      cases h
  · by_cases hq : q = []
    · rw [hq,hnull,hquoted p hp] at h
      cases h
    · rw [hquoted p hp,hquoted q hq] at h
      simp only [List.cons_append,List.append_assoc,List.nil_append,List.cons.injEq,true_and] at h
      obtain ⟨hpq,hxy⟩ := append_sep_inj (base64_ne_quote p) (base64_ne_quote q) _ _ h
      exact ⟨base64_injective hpq,(List.cons.inj hxy).2⟩

theorem validChildOutcomeRequest_state (h : validChildOutcomeRequest r = true) :
    r.result.state = .completed ∨ r.result.state = .failed := by
  unfold validChildOutcomeRequest at h
  rw [Bool.and_eq_true] at h
  cases hs : r.result.state <;> simp [hs] at h ⊢

theorem ChildState.text_valid (s : ChildState) : Utf8.valid s.text = true := by
  cases s <;> decide

theorem validChildOutcomeRequest_error (h : validChildOutcomeRequest r = true) :
    Utf8.valid r.result.error = true ∧ r.result.waitID = [] := by
  unfold validChildOutcomeRequest at h
  simp only [Bool.and_eq_true,Bool.not_eq_true',Bool.or_eq_false_iff,bne_eq_false_iff_eq,Bool.not_eq_false',
    validRuntimeText,List.all_cons,List.all_nil,Bool.and_true] at h
  exact ⟨h.1.2.2,h.1.2.1.2⟩

theorem childOutcomeRequestText_injective (h : validChildOutcomeRequest r = true)
    (h' : validChildOutcomeRequest r' = true) (ht : childOutcomeRequestText r = childOutcomeRequestText r') :
    r = r' := by
  have hscalars : ∀ {r : ChildOutcomeResolution}, validChildOutcomeRequest r = true →
      (requestScalars r).all Scalar.valid = true := by
    intro r hr
    have htext : ∀ x ∈ [r.node,r.groupKey,r.groupLabel,r.childID,r.executionID,r.decisionID,r.reason,
      r.evidence], Utf8.valid x = true := fun x hx => validChildOutcomeRequest_text hr hx
    simp only [List.forall_mem_cons] at htext
    have htag : Utf8.valid (ascii "flowy-child-outcome-v1") = true := by decide
    simp [requestScalars,Scalar.valid,htext,ChildState.text_valid,htag]
  obtain ⟨herror,hwait⟩ := validChildOutcomeRequest_error h
  obtain ⟨herror',hwait'⟩ := validChildOutcomeRequest_error h'
  rw [childOutcomeRequestText_eq,childOutcomeRequestText_eq] at ht
  have hlen : (requestScalars r).length = (requestScalars r').length := rfl
  obtain ⟨hhead,htail⟩ := scalarsThen_inj hlen (hscalars h) (hscalars h') (List.cons.inj ht).2
  obtain ⟨hpayload,hrest⟩ := canonicalPayload_append_inj htail
  have hlast := scalars_injective (by simp [Scalar.valid,herror,hwait,show Utf8.valid [] = true from rfl])
    (by simp [Scalar.valid,herror',hwait',show Utf8.valid [] = true from rfl]) hrest
  simp only [requestScalars,List.cons.injEq,Scalar.text.injEq,Scalar.nat.injEq,true_and,and_true] at hhead hlast
  obtain ⟨hnode,hact,hkey,hlabel,hchild,hexec,hrev,hdecision,hreason,hevidence,hstate⟩ := hhead
  have hsame : r.result.state = r'.result.state := by
    rcases validChildOutcomeRequest_state h with hs | hs <;>
      rcases validChildOutcomeRequest_state h' with hs' | hs' <;> rw [hs,hs'] at hstate ⊢
    · exact absurd hstate (by decide)
    · exact absurd hstate (by decide)
  obtain ⟨node,activation,groupKey,groupLabel,childID,executionID,childRevision,decisionID,reason,evidence,
    ⟨state,payload,error,waitID⟩⟩ := r
  obtain ⟨node',activation',groupKey',groupLabel',childID',executionID',childRevision',decisionID',reason',
    evidence',⟨state',payload',error',waitID'⟩⟩ := r'
  simp only at *
  simp [hnode,hact,hkey,hlabel,hchild,hexec,hrev,hdecision,hreason,hevidence,
    hsame,hpayload,hlast]

end Digest

section Runs

variable {J W : Type} [Sha256] {clock : Time → Bool} {i : Nat} {e e' t : ExecutionEnvelope J ChildGroups W}
  {r r' : ChildOutcomeResolution} {now : Time}

/-- `ResolveChildOutcome` on the execution it loads: the token that it returns, and its commit.
`admits` stands for the checks of `childMutationSource` that are not about this module: the other
collections, the descriptor, the pointer and the import. -/
def resolveChildOutcomeCall (admits : ExecutionEnvelope J ChildGroups W → Result Unit) (incarnation : Nat)
    (source : ExecutionEnvelope J ChildGroups W) (token : Nat) (resolution : ChildOutcomeResolution)
    (now : Time) : Result (Nat × Option (ExecutionEnvelope J ChildGroups W)) := do
  require (validChildOutcomeRequest resolution) .childInvalid
  require (token != 0 && token == source.revision) .concurrencyConflict
  admits source
  require source.terminal.isNone .childRevision
  let target ← resolveChildOutcome incarnation source resolution now
  .ok (target.elim (token,none) fun t => (source.revision + 1,some t))

def Recorded (e : ExecutionEnvelope J ChildGroups W) (r : ChildOutcomeResolution) : Prop :=
  ∃ identity g c d, (e.children.get? identity = some g ∧
      identity = childExecutionIdentity g.parentID r.node r.activation r.groupKey [] ∧
      g.plan.label = r.groupLabel) ∧
    (c ∈ g.children ∧ settledChild c = true ∧ c.executionID = r.executionID) ∧
    c.outcomeResolution = some d ∧ d.decisionID = r.decisionID ∧ d.requestDigest = childOutcomeRequestDigest r

theorem DecidesOutcome.recorded {g : ChildGroupRecord} {c : ChildRecord} (hs : SoundGroups e)
    (hadm : AdmittedGroups e) (hd : DecidesOutcome i e r now g c t) (n : Nat) :
    Recorded { t with revision := n } r := by
  have hsound := hs _ g hd.group
  obtain ⟨-,hparent,-⟩ := hadm.header hd.group
  let decided := resolveUnknownChild r (childOutcomeRequestDigest r) e.revision i now c
  obtain ⟨pre,post,-,hsplit⟩ := setChild_split hsound.distinct hd.mem (show decided.spec.id = _ from rfl)
  have hget : t.children.get? (childExecutionIdentity e.executionID r.node r.activation r.groupKey []) =
      some (g.setChild decided).reread := by
    rw [hd.target,hs.get?_putGroup,if_pos rfl]
  refine ⟨_,_,decided.reread,_,⟨hget,?_,?_⟩,⟨?_,?_,?_⟩,rfl,rfl,rfl⟩
  · change _ = childExecutionIdentity g.parentID r.node r.activation r.groupKey []
    rw [hparent]
  · exact hd.header.2.2.2.symm
  · rw [ChildGroupRecord.reread,hsplit]
    exact List.mem_map_of_mem (by simp)
  · have hstate : decided.reread.state = r.result.state := rfl
    simp only [settledChild,hstate,Bool.or_eq_true,beq_iff_eq]
    exact .inl (validChildOutcomeRequest_state hd.check)
  · exact hd.child.2.1.symm

theorem Recorded.keeps (h : Recorded e r) (hk : KeepsGroups e e') : Recorded e' r := by
  obtain ⟨identity,g,c,d,⟨hg,hid,hlabel⟩,⟨hc,hset,hexec⟩,hd⟩ := h
  obtain ⟨g',hg',hadv⟩ := hk identity g hg
  obtain ⟨c',hc',hcc⟩ := forall₂_mem_left hadv.children hc
  obtain rfl := hcc.frozen hset
  refine ⟨identity,g',c',d,⟨hg',?_,?_⟩,⟨hc',hset,hexec⟩,hd⟩
  · rw [hadv.parentID]
    exact hid
  · rw [hadv.plan]
    exact hlabel

omit [Sha256] in
/-- With distinct decision ids the search can only find the one record. -/
theorem childOutcomeDecisionReplay_of_mem {groups : ChildGroups} {identity digest : Text}
    {g : ChildGroupRecord} {c : ChildRecord} {d : ChildOutcomeResolutionRecord}
    (hids : (childOutcomeDecisionIDs groups).Nodup) (hg : groups.get? identity = some g)
    (hc : c ∈ g.children) (hd : c.outcomeResolution = some d) (hid : d.decisionID = r.decisionID) :
    childOutcomeDecisionReplay groups r digest =
      if c.executionID = r.executionID ∧ d.requestDigest = digest then .ok true else fail .childRevision := by
  let decided := groups.values.flatMap fun group => group.children.filterMap fun child =>
    child.outcomeResolution.map fun d => (child.executionID,d)
  have hmap : decided.map (fun p => p.2.decisionID) = childOutcomeDecisionIDs groups := by
    simp only [decided,childOutcomeDecisionIDs,List.map_flatMap,List.map_filterMap,Option.map_map,
      Function.comp_def]
  have hmem : (c.executionID,d) ∈ decided := List.mem_flatMap.mpr
    ⟨g,(GoMap.mem_values_iff groups g).mpr ⟨identity,hg⟩,List.mem_filterMap.mpr ⟨c,hc,by rw [hd]; rfl⟩⟩
  have hfind : (decided.find? fun p => p.2.decisionID == r.decisionID) = some (c.executionID,d) := by
    cases hf : decided.find? fun p => p.2.decisionID == r.decisionID with
    | none =>
      have hno := List.find?_eq_none.mp hf _ hmem
      simp [hid] at hno
    | some p =>
      have hp : p.2.decisionID = r.decisionID := by simpa using List.find?_some hf
      rw [List.inj_on_of_nodup_map (hmap ▸ hids) (List.mem_of_find?_eq_some hf) hmem (hp.trans hid.symm)]
  simp only [childOutcomeDecisionReplay]
  rw [hfind]

theorem Recorded.mem_ids (h : Recorded e r) : r.decisionID ∈ childOutcomeDecisionIDs e.children := by
  obtain ⟨identity,g,c,d,⟨hg,-,-⟩,⟨hc,-,-⟩,hd,hid,-⟩ := h
  exact List.mem_flatMap.mpr ⟨g,(GoMap.mem_values_iff _ _).mpr ⟨identity,hg⟩,
    List.mem_filterMap.mpr ⟨c,hc,by rw [hd]; exact congrArg some hid⟩⟩

theorem Recorded.replay (h : Recorded e r) (hadm : AdmittedGroups e) (hid : r'.decisionID = r.decisionID) :
    childOutcomeDecisionReplay e.children r' (childOutcomeRequestDigest r') =
      if r.executionID = r'.executionID ∧ childOutcomeRequestDigest r = childOutcomeRequestDigest r' then
        .ok true else fail .childRevision := by
  obtain ⟨identity,g,c,d,⟨hg,-,-⟩,⟨hc,-,hexec⟩,hd,hdecision,hdigest⟩ := h
  rw [childOutcomeDecisionReplay_of_mem hadm.decisions hg hc hd (hdecision.trans hid.symm),hexec,hdigest]

def OpenGroup (e : ExecutionEnvelope J ChildGroups W) (r : ChildOutcomeResolution) : Prop :=
  ∃ g, e.children.get? (childExecutionIdentity e.executionID r.node r.activation r.groupKey []) = some g ∧
    currentChildGroup e g = true ∧ g.mergedIDs = []

theorem Recorded.resolve_again (h : Recorded e r) (hadm : AdmittedGroups e)
    (hcheck : validChildOutcomeRequest r = true) (ho : OpenGroup e r) (hi : 0 < i)
    (hnow : now.isZero = false) : resolveChildOutcome i e r now = .ok none := by
  have hread := executionChildGroups_iff.mpr ⟨rfl,hadm⟩
  have hreplay := h.replay hadm (show r.decisionID = _ from rfl)
  rw [if_pos ⟨rfl,rfl⟩] at hreplay
  obtain ⟨g,hg,hcur,hm⟩ := ho
  obtain ⟨identity,g',c,d,⟨hg',hid,hlabel⟩,-⟩ := h
  obtain ⟨-,hparent,-⟩ := hadm.header hg'
  rw [hid,hparent,hg] at hg'
  cases hg'
  have hclock : (!now.isZero && i != 0) = true := by
    rw [hnow]
    simpa using Nat.ne_of_gt hi
  simp only [resolveChildOutcome,addressedChildGroup,hcheck,hread,hg,hcur,hm,hlabel,hreplay,hclock,require,
    beq_self_eq_true,Bool.and_self,if_true,bind,Except.bind]

theorem resolveChildOutcome_admitted {target : Option (ExecutionEnvelope J ChildGroups W)}
    (h : resolveChildOutcome i e r now = .ok target) : AdmittedGroups e := by
  simp only [resolveChildOutcome,bind_eq_ok] at h
  obtain ⟨-,-,groups,hgroups,-⟩ := h
  exact (executionChildGroups_eq_ok hgroups).2

theorem Recorded.resolve_refused (h : Recorded e r) (hcheck : validChildOutcomeRequest r = true)
    (hid : r'.decisionID = r.decisionID) (hne : r' ≠ r) :
    ∃ err, resolveChildOutcome i e r' now = .error err := by
  cases hcall : resolveChildOutcome i e r' now with
  | error err => exact ⟨err,rfl⟩
  | ok target =>
    have hadm := resolveChildOutcome_admitted hcall
    simp only [resolveChildOutcome,bind_eq_ok,require_eq_ok] at hcall
    obtain ⟨-,hcheck',groups,hgroups,-,-,-,-,-,-,replay,hreplay,-⟩ := hcall
    obtain ⟨rfl,-⟩ := executionChildGroups_eq_ok hgroups
    rw [h.replay hadm hid] at hreplay
    split at hreplay
    · rename_i hsame
      exact absurd (childOutcomeRequestText_injective hcheck hcheck' (Sha256.injective hsame.2)).symm hne
    · cases hreplay

def recomputedRequest (g : ChildGroupRecord) (c : ChildRecord) (d : ChildOutcomeResolutionRecord) :
    ChildOutcomeResolution :=
  ⟨g.node,g.activation,g.plan.key,g.plan.label,c.spec.id,c.executionID,d.childRevision,d.decisionID,d.reason,
    d.evidence,⟨c.state,c.result,c.error,c.waitID⟩⟩

def OutcomeOk (g : ChildGroupRecord) (c : ChildRecord) : Prop :=
  ∀ d, c.outcomeResolution = some d → settledChild c = true ∧
    d.requestDigest = childOutcomeRequestDigest (recomputedRequest g c d)

structure OutcomesOk (e : ExecutionEnvelope J ChildGroups W) : Prop where
  distinct : (childOutcomeDecisionIDs e.children).Nodup
  decided : ∀ identity g, e.children.get? identity = some g → ∀ c ∈ g.children, OutcomeOk g c

theorem OutcomeOk.advance {g g' : ChildGroupRecord} {c c' : ChildRecord} (h : OutcomeOk g c)
    (ha : GroupAdvance g g') (hc : ChildAdvance c c')
    (ho : c'.outcomeResolution = c.outcomeResolution) (hr : c.reread = c) : OutcomeOk g'.reread c'.reread := by
  intro d hd
  obtain ⟨hs,hdigest⟩ := h d (ho.symm.trans hd)
  rw [hc.frozen hs,hr]
  refine ⟨hs,hdigest.trans ?_⟩
  simp only [recomputedRequest,ChildGroupRecord.reread,ha.node,ha.activation,ha.plan]

theorem EditsOutcome.outcomeOk {g g' : ChildGroupRecord} {c : ChildRecord}
    (h : EditsOutcome i e g g' c r now) : OutcomeOk g'.reread
      (resolveUnknownChild r (childOutcomeRequestDigest r) e.revision i now c).reread := by
  rintro d ⟨⟩
  obtain ⟨herror,hwait⟩ := validChildOutcomeRequest_error h.check
  obtain ⟨hnode,hact,hkey,hlabel⟩ := h.header
  obtain ⟨hid,hexec,hrev⟩ := h.child
  refine ⟨?_,congrArg childOutcomeRequestDigest ?_⟩
  · simp only [settledChild,ChildRecord.reread,resolveUnknownChild,Bool.or_eq_true,beq_iff_eq]
    exact .inl (validChildOutcomeRequest_state h.check)
  · rw [h.target]
    simp only [recomputedRequest,ChildRecord.reread,ChildGroupRecord.reread,ChildGroupRecord.setChild,
      resolveUnknownChild,Utf8.coerce_of_valid herror,← hnode,← hact,← hkey,← hlabel,← hid,← hexec,
      ← hrev,← hwait]

theorem GroupEdit.outcomeOk {a : EditScope} {identity : Text} {g g' : ChildGroupRecord}
    (hs : SoundGroup identity g) (h : ∀ c ∈ g.children, OutcomeOk g c)
    (hedit : GroupEdit clock i e g a g') : ∀ c ∈ g'.reread.children, OutcomeOk g'.reread c := by
  have ha := hedit.advance hs.distinct
  have hkept : ∀ {c c'}, c ∈ g.children → ChildAdvance c c' →
      c'.outcomeResolution = c.outcomeResolution → OutcomeOk g'.reread c'.reread :=
    fun hc hadv ho => (h _ hc).advance ha hadv ho (reread_of_group hs.reread hc)
  intro c'' hc''
  obtain ⟨c',hc',rfl⟩ := List.mem_map.mp hc''
  rcases hedit.outcomes hs.distinct with hsame | ⟨c,r,now,hout⟩
  · obtain ⟨c,hc,hadv,ho⟩ := forall₂_mem_right
      (List.Forall₂.mp (fun _ _ => And.intro) ha.children hsame) hc'
    exact hkept hc hadv ho
  · rw [hout.target] at hc'
    obtain ⟨x,hx,rfl⟩ := List.mem_map.mp hc'
    split
    · exact hout.outcomeOk
    · exact hkept hx (.refl x) rfl

theorem OutcomesOk.put (h : OutcomesOk e) (hs : SoundGroups e) {identity : Text} {g : ChildGroupRecord}
    (hids : (childOutcomeDecisionIDs (e.children.set identity g)).Nodup)
    (hg : ∀ c ∈ g.reread.children, OutcomeOk g.reread c) (n : Nat) :
    OutcomesOk { e.putGroup identity g with revision := n } := by
  refine ⟨?_,fun identity' g' hg' => ?_⟩
  · change (childOutcomeDecisionIDs ((e.children.set identity g).mapValues ChildGroupRecord.reread)).Nodup
    rwa [childOutcomeDecisionIDs_mapValues]
  · change (e.putGroup identity g).children.get? identity' = some g' at hg'
    rw [hs.get?_putGroup] at hg'
    split at hg'
    · cases hg'
      exact hg
    · exact h.decided identity' g' hg'

theorem OutcomesOk.step (h : OutcomesOk e) (hs : SoundGroups e) (hstep : ChildStep clock e e') :
    OutcomesOk e' := by
  cases hstep with
  | keep t hk he =>
    subst he
    have hsame := keepsChildGroups_children hk
    exact ⟨(hsame ▸ h.distinct :),fun identity g hg => h.decided identity g (hsame ▸ hg)⟩
  | commit i identity a t hi hop he =>
    subst he
    cases hop.commit with
    | edit identity g g' a hg hedit hm =>
      have hok := h.decided identity g hg
      refine h.put hs (hedit.decisions_nodup (hs _ g hg).distinct hg (fun c hc hset => ?_) h.distinct)
        (hedit.outcomeOk (hs _ g hg) hok) _
      refine Option.eq_none_iff_forall_ne_some.mpr fun d hd => ?_
      rw [(hok c hc d hd).1] at hset
      cases hset
    | plan g plan available hnone hbound hplan hledger hm =>
      obtain ⟨-,specs,hspecs⟩ := planChildGroup_eq_ok hplan
      refine h.put hs (hspecs.decisions_nodup hnone h.distinct) (fun c hc d hd => ?_) _
      rw [ChildGroupRecord.reread,hspecs.children] at hc
      obtain ⟨c',hc',rfl⟩ := List.mem_map.mp hc
      obtain ⟨spec,-,rfl⟩ := List.mem_map.mp hc'
      cases hd

theorem outcomesOk_reachable {s : State (ExecutionEnvelope J ChildGroups W) Launches (Ticket Text)}
    (h : Reachable (childProtocol J W clock) s) : ∀ e ∈ s.log, OutcomesOk e := by
  have hrun := childRule.reachable h
  refine hrun.linked.forall ?_ fun e he e' _ hok hlink => hok.step (hrun.entry e he) hlink.step
  intro e _ hlink
  have hempty := createsNoGroups_children hlink.2
  refine ⟨?_,fun identity g hg => ?_⟩
  · rw [hempty]
    exact List.nodup_nil
  · rw [hempty] at hg
    cases hg

def CommitsOutcome (log : List (ExecutionEnvelope J ChildGroups W)) (k : Nat) (r : ChildOutcomeResolution) : Prop :=
  ∃ i now e t, log[k]? = some e ∧ resolveChildOutcome i e r now = .ok (some t) ∧
    log[k + 1]? = some { t with revision := e.revision + 1 }

/-- What becomes of committed decisions in one history. Only a replay has to read the groups that
all earlier commits wrote, so only it needs a clock that never returned the zero time. -/
structure OutcomesReplay (clock : Time → Bool) (log : List (ExecutionEnvelope J ChildGroups W)) :
    Prop where
  replay : (∀ t, clock t = true → t.isZero = false) →
    ∀ k n e r, CommitsOutcome log k r → k < n → log[n]? = some e → OpenGroup e r →
    ∀ admits i now, admits e = .ok () → e.terminal = none → 0 < i → now.isZero = false →
      resolveChildOutcomeCall admits i e e.revision r now = .ok (e.revision,none)
  refused : ∀ k n e r r', CommitsOutcome log k r → k < n → log[n]? = some e →
    r'.decisionID = r.decisionID → r' ≠ r →
    ∀ admits i token now, ∃ err, resolveChildOutcomeCall admits i e token r' now = .error err
  once : ∀ k n r r', CommitsOutcome log k r → CommitsOutcome log n r' → k < n →
    r'.decisionID ≠ r.decisionID ∧ r'.executionID ≠ r.executionID
  distinct : ∀ e ∈ log, (childOutcomeDecisionIDs e.children).Nodup
  digest : ∀ e ∈ log, ∀ identity g c d, e.children.get? identity = some g → c ∈ g.children →
    c.outcomeResolution = some d → d.requestDigest = childOutcomeRequestDigest (recomputedRequest g c d)

theorem child_outcomes_replay {s : State (ExecutionEnvelope J ChildGroups W) Launches (Ticket Text)}
    (h : Reachable (childProtocol J W clock) s) : OutcomesReplay clock s.log := by
  have hsound : ∀ e ∈ s.log, SoundGroups e := (childRule.reachable h).entry
  have hok := outcomesOk_reachable h
  have hrecorded : ∀ {k n : Nat} {e : ExecutionEnvelope J ChildGroups W} {r : ChildOutcomeResolution},
      CommitsOutcome s.log k r → k < n → s.log[n]? = some e →
        Recorded e r ∧ validChildOutcomeRequest r = true := by
    rintro k n e r ⟨i,now,e0,t,he0,hcall,hnext⟩ hlt hn
    obtain ⟨g,c,hd⟩ := resolveChildOutcome_decides hcall
    exact ⟨(hd.recorded (hsound e0 (List.mem_of_getElem? he0)) (resolveChildOutcome_admitted hcall) _).keeps
      (childGroups_keep h hlt hnext hn),hd.check⟩
  refine ⟨?_,?_,?_,fun e he => (hok e he).distinct,
    fun e he identity g c d hg hc hd => ((hok e he).decided identity g hg c hc d hd).2⟩
  · intro hclock k n e r hk hlt hn ho admits i now hadmits hterminal hi hnow
    have hadm := (((cancellation_invariant h).1 e (List.mem_of_getElem? hn)).2 hclock).admitted
    obtain ⟨hrec,hcheck⟩ := hrecorded hk hlt hn
    have hrev : e.revision ≠ 0 := by
      have := h.sound.stamped n e hn
      change e.revision = n + 1 at this
      omega
    have htoken : (e.revision != 0 && e.revision == e.revision) = true := by simp [hrev]
    have hagain := hrec.resolve_again hadm hcheck ho hi hnow
    simp only [resolveChildOutcomeCall,hcheck,htoken,hadmits,hterminal,hagain,require,Option.isNone_none,
      if_true,bind,Except.bind,Option.elim_none]
  · intro k n e r r' hk hlt hn hid hne admits i token now
    obtain ⟨hrec,hcheck⟩ := hrecorded hk hlt hn
    obtain ⟨err,herr⟩ : ∃ err, resolveChildOutcome i e r' now = .error err :=
      hrec.resolve_refused hcheck hid hne
    cases hcall : resolveChildOutcomeCall admits i e token r' now with
    | error err' => exact ⟨err',rfl⟩
    | ok result =>
      simp only [resolveChildOutcomeCall,bind_eq_ok,herr] at hcall
      obtain ⟨-,-,-,-,-,-,-,-,target,htarget,-⟩ := hcall
      cases htarget
  · rintro k n r r' hk ⟨i,now,e,t,hn,hcall,-⟩ hlt
    obtain ⟨hrec,-⟩ := hrecorded hk hlt hn
    obtain ⟨g,c,hd⟩ := resolveChildOutcome_decides hcall
    refine ⟨fun hid => hd.fresh (hid ▸ hrec.mem_ids),fun hexec => ?_⟩
    obtain ⟨identity,g',c',d,⟨hg',-,-⟩,⟨hc',-,hexec'⟩,hdecided,-⟩ := hrec
    have hsame : c'.executionID = c.executionID := hexec'.trans (hexec.symm.trans hd.child.2.1)
    obtain ⟨-,rfl⟩ := (hsound e (List.mem_of_getElem? hn)).child_unique hg' hd.group hc' hd.mem hsame
    rw [hd.undecided] at hdecided
    cases hdecided

end Runs

section Example

attribute [local instance] Sha256.hex

def outcomeOfA : ChildOutcomeResolution :=
  ⟨ascii "n",1,ascii "g",ascii "l",ascii "a",sampleChildID "a",2,ascii "d",ascii "r",ascii "e",
    ⟨.completed,[7],[],[]⟩⟩

def outcomeScript : List (Command (ChildAction (GoMap Text Unit) (GoMap Text Unit))) :=
  [.acquire,.act 1 (.other sampleStart),.act 1 (.prepare samplePlan ∅),.act 1 (.recover 0),
    .act 1 (.begin 0),.act 1 (.run 0),.acquire,.load 2,.act 2 (.decide (.outcome outcomeOfA ⟨5⟩))]

def outcomeCommitted (log : List SampleEnvelope) : Bool :=
  match log[3]?, log[4]? with
  | some e, some e' =>
    (resolveChildOutcome 2 e outcomeOfA ⟨5⟩).toOption.any (fun t =>
      t.any fun t => decide (e' = { t with revision := e.revision + 1 })) &&
    e'.terminal.isNone &&
    (e'.children.get? (childExecutionIdentity e'.executionID (ascii "n") 1 (ascii "g") [])).any fun g =>
      currentChildGroup e' g && g.mergedIDs == []
  | _, _ => false

theorem outcomeCommitted_eq_true {log : List SampleEnvelope} (h : outcomeCommitted log = true) :
    ∃ e', log[4]? = some e' ∧ CommitsOutcome log 3 outcomeOfA ∧ OpenGroup e' outcomeOfA ∧ e'.terminal = none := by
  unfold outcomeCommitted at h
  split at h
  · rename_i e e' he he'
    simp only [Bool.and_eq_true] at h
    obtain ⟨⟨hcall,hterminal⟩,hopen⟩ := h
    obtain ⟨t,ht,hany⟩ := exists_of_toOption_any hcall
    obtain ⟨t,rfl,hnext⟩ := (Option.any_eq_true _ _).mp hany
    obtain ⟨g,hg,hcur⟩ := (Option.any_eq_true _ _).mp hopen
    simp only [Bool.and_eq_true,beq_iff_eq] at hcur
    exact ⟨e',he',⟨2,⟨5⟩,e,t,he,ht,he'.trans (congrArg some (of_decide_eq_true hnext))⟩,
      ⟨g,hg,hcur.1,hcur.2⟩,Option.isNone_iff_eq_none.mp hterminal⟩
  · cases h

theorem outcomeScript_commits :
    ∃ (s : State SampleEnvelope Launches (Ticket Text)) (e' : SampleEnvelope),
      Reachable (childProtocol (GoMap Text Unit) (GoMap Text Unit) fun t => !t.isZero) s ∧
      s.log[4]? = some e' ∧ CommitsOutcome s.log 3 outcomeOfA ∧ OpenGroup e' outcomeOfA ∧ e'.terminal = none := by
  have hrun : ((childProtocol (GoMap Text Unit) (GoMap Text Unit) fun t => !t.isZero).script
      outcomeScript).any (fun s => outcomeCommitted s.log) = true := by decide +kernel
  obtain ⟨s,hs,hlog⟩ := (Option.any_eq_true _ _).mp hrun
  obtain ⟨e',he',hcommit⟩ := outcomeCommitted_eq_true hlog
  exact ⟨s,e',.of_script hs,he',hcommit⟩

theorem child_outcomes_replay_once :
    ∃ e' : SampleEnvelope, e'.revision = 5 ∧
      resolveChildOutcomeCall (fun _ => .ok ()) 3 e' 5 outcomeOfA ⟨6⟩ = .ok (5,none) := by
  obtain ⟨s,e',hreach,he',hcommit,hopen,hterminal⟩ := outcomeScript_commits
  have hrev : e'.revision = 5 := hreach.sound.stamped 4 e' he'
  have hreplay := (child_outcomes_replay hreach).replay (fun t ht => by simpa using ht) 3 4 e' outcomeOfA
    hcommit (by decide) he' hopen (fun _ => .ok ()) 3 ⟨6⟩ rfl hterminal (by decide) (by decide)
  rw [hrev] at hreplay
  exact ⟨e',hrev,hreplay⟩

/-- The same call is refused when the clock returns the zero time, although it would record nothing. -/
theorem zero_clock_refuses_replay :
    ∃ (s : State SampleEnvelope Launches (Ticket Text)) (e' : SampleEnvelope),
      Reachable (childProtocol (GoMap Text Unit) (GoMap Text Unit) fun t => !t.isZero) s ∧
      s.log[4]? = some e' ∧ CommitsOutcome s.log 3 outcomeOfA ∧ OpenGroup e' outcomeOfA ∧ e'.terminal = none ∧
      resolveChildOutcomeCall (fun _ => .ok ()) 3 e' 5 outcomeOfA .zero = fail .executionCapability := by
  have hrun : ((childProtocol (GoMap Text Unit) (GoMap Text Unit) fun t => !t.isZero).script
      outcomeScript).any (fun s => outcomeCommitted s.log && (s.log[4]?).any fun e' =>
        match resolveChildOutcomeCall (fun _ => .ok ()) 3 e' 5 outcomeOfA .zero with
        | .error err => decide (err = .of .executionCapability)
        | .ok _ => false) = true := by decide +kernel
  obtain ⟨s,hs,hlog⟩ := (Option.any_eq_true _ _).mp hrun
  rw [Bool.and_eq_true] at hlog
  obtain ⟨e',he',hcommit,hopen,hterminal⟩ := outcomeCommitted_eq_true hlog.1
  rw [he',Option.any_some] at hlog
  refine ⟨s,e',.of_script hs,he',hcommit,hopen,hterminal,?_⟩
  have herr := hlog.2
  split at herr
  · rename_i err hcall
    rw [hcall,of_decide_eq_true herr]
    rfl
  · cases herr

end Example
end Flowy
