import Flowy.Lifecycle

/-! What a store keeps beside the documents of an execution: its revision, the fork lineage fixed by
the first commit, and the receipts of the rollovers into it and out of it. Every load checks the
document against them. -/
namespace Flowy

open Json

section Texts

theorem text_reread {t : Text} (h : Utf8.valid t = true) : Codec.text.reread t = t :=
  Utf8.coerce_of_valid h

theorem ExecutionDescriptor.reread_of_valid {d : ExecutionDescriptor} (h : d.validate = .ok ()) :
    ExecutionDescriptor.codec.reread d = d := by
  simp only [ExecutionDescriptor.validate,require_eq_ok,validRuntimeText,List.all_cons,List.all_nil,
    Bool.and_true,Bool.and_eq_true] at h
  obtain ⟨⟨⟨-,h1,h2,h3,h4,h5,h6⟩,-⟩,-⟩ := h
  obtain ⟨a,b,c,d,e,f,g⟩ := d
  simp only [ExecutionDescriptor.codec,StepReplayPolicy.codec,Codec.object,text_reread h1,text_reread h2,
    text_reread h3,text_reread h4,text_reread h5,text_reread h6]
  rfl

theorem WaitCapabilityProfile.reread_of_valid {p : WaitCapabilityProfile} (h : p.validate = .ok ()) :
    WaitCapabilityProfile.codec.reread p = p := by
  simp only [WaitCapabilityProfile.validate,require_eq_ok,validRuntimeText,List.all_cons,List.all_nil,
    Bool.and_true,Bool.and_eq_true] at h
  obtain ⟨⟨⟨⟨-,h1,h2,h3,h4,h5,h6,h7⟩,-⟩,-⟩,-⟩ := h
  obtain ⟨a,b,c,d,e,f,g⟩ := p
  simp only [WaitCapabilityProfile.codec,Codec.object,text_reread h1,text_reread h2,text_reread h3,
    text_reread h4,text_reread h5,text_reread h6,text_reread h7]

theorem RolloverPolicy.reread_of_valid {p : RolloverPolicy} (h : p.validate = .ok ()) :
    RolloverPolicy.codec.reread p = p := by
  simp only [RolloverPolicy.validate,require_eq_ok,validRuntimeText,List.all_cons,List.all_nil,
    Bool.and_true,Bool.and_eq_true] at h
  obtain ⟨⟨⟨⟨-,hlabel⟩,-⟩,-⟩,-⟩ := h
  obtain ⟨a,b,c,d⟩ := p
  simp only [RolloverPolicy.codec,Codec.object,text_reread hlabel]
  rfl

variable [Sha256]

theorem HistoricalCheckpointReference.reread_of_valid {r : HistoricalCheckpointReference}
    (h : r.validate = .ok ()) : HistoricalCheckpointReference.codec.reread r = r := by
  simp only [HistoricalCheckpointReference.validate,bind_eq_ok,require_eq_ok,exists_const,
    validRuntimeText,List.all_cons,List.all_nil,Bool.and_true,Bool.and_eq_true] at h
  obtain ⟨⟨⟨-,hid⟩,-⟩,hdigest⟩ := h
  obtain ⟨id,rev,digest⟩ := r
  simp only [HistoricalCheckpointReference.codec,Codec.object,text_reread hid,
    text_reread (Sha256.valid_of_wellFormed _ hdigest)]
  rfl

theorem LegacyExecutionSource.reread_of_valid {s : LegacyExecutionSource} (h : s.validate = .ok ()) :
    LegacyExecutionSource.codec.reread s = s := by
  simp only [LegacyExecutionSource.validate,bind_eq_ok,require_eq_ok,exists_const,validRuntimeText,
    List.all_cons,List.all_nil,Bool.and_true,Bool.and_eq_true,beq_iff_eq] at h
  obtain ⟨⟨-,hid,hformat⟩,hdigest⟩ := h
  have hvalid : Utf8.valid s.digest = true := hdigest ▸ Sha256.valid_sum _
  obtain ⟨a,b,c,d,e⟩ := s
  simp only [LegacyExecutionSource.codec,Codec.object,text_reread hid,text_reread hformat,text_reread hvalid]
  rfl

theorem ForkLineage.reread_of_valid {f : ForkLineage} (h : f.validate = .ok ()) :
    ForkLineage.codec.reread f = f := by
  simp only [ForkLineage.validate,bind_eq_ok,require_eq_ok,exists_const,validRuntimeText,List.all_cons,
    List.all_nil,Bool.and_true,Bool.and_eq_true,isOk_iff] at h
  obtain ⟨⟨⟨⟨⟨⟨⟨⟨⟨hs,hsd⟩,htd⟩,h1,-,h3,h4,h5⟩,-⟩,-⟩,-⟩,-⟩,-⟩,-⟩ := h
  obtain ⟨a,b,c,d,e,f,g,i,j⟩ := f
  simp only [ForkLineage.codec,Codec.object,text_reread h1,text_reread h3,text_reread h4,text_reread h5,
    HistoricalCheckpointReference.reread_of_valid hs,ExecutionDescriptor.reread_of_valid hsd,
    ExecutionDescriptor.reread_of_valid htd]
  rfl

theorem RolloverLineage.reread_of_valid {l : RolloverLineage} (h : l.validate = .ok ()) :
    RolloverLineage.codec.reread l = l := by
  simp only [RolloverLineage.validate,bind_eq_ok,require_eq_ok,exists_const,validRuntimeText,
    List.all_cons,List.all_nil,Bool.and_true,Bool.and_eq_true,isOk_iff] at h
  obtain ⟨⟨⟨⟨⟨⟨⟨⟨⟨⟨⟨hs,hsd⟩,htd⟩,hp⟩,-⟩,-⟩,-⟩,-⟩,h1,h2,h3⟩,hd⟩,-⟩,-⟩ := h
  obtain ⟨a,b,c,d,e,f,g,i,j⟩ := l
  simp only [RolloverLineage.codec,Codec.object,text_reread h1,text_reread h2,text_reread h3,
    text_reread (Sha256.valid_of_wellFormed _ hd),RolloverPolicy.reread_of_valid hp,
    HistoricalCheckpointReference.reread_of_valid hs,ExecutionDescriptor.reread_of_valid hsd,
    ExecutionDescriptor.reread_of_valid htd]
  rfl

theorem RolloverReceipt.reread_of_valid {r : RolloverReceipt} (h : r.validate = .ok ()) :
    RolloverReceipt.codec.reread r = r := by
  simp only [RolloverReceipt.validate,require_eq_ok,Bool.and_eq_true,isOk_iff] at h
  obtain ⟨⟨⟨⟨⟨hl,ht⟩,-⟩,-⟩,-⟩,-⟩ := h
  obtain ⟨a,b,c⟩ := r
  simp only [RolloverReceipt.codec,Codec.object,RolloverLineage.reread_of_valid hl,
    HistoricalCheckpointReference.reread_of_valid ht]
  rfl

end Texts

/-- What a store keeps about one execution. -/
structure Anchors where
  revision : Nat
  fork : Option ForkLineage
  incoming : Option RolloverReceipt
  outgoing : Option RolloverReceipt

/-- After an accepted commit; the first one fixes the fork lineage. -/
def Anchors.committed (a : Anchors) (x : SealedEnvelope) : Anchors :=
  { a with
    revision := a.revision + 1
    fork := if a.revision = 0 then x.envelope.fork else a.fork }

def Anchors.transferred (a : Anchors) (receipt : RolloverReceipt) : Anchors :=
  { a with revision := a.revision + 1, outgoing := some receipt }

def Anchors.created (receipt : RolloverReceipt) : Anchors := ⟨1,none,some receipt,none⟩

section Loads

/-- How an outgoing receipt binds a document: before the transfer or at it. -/
def Sent (r : RolloverReceipt) (x : SealedEnvelope) : Prop :=
  if x.envelope.revision < r.sourceRevision then
    x.envelope.transfer = none ∧
      (x.envelope.revision = r.lineage.source.revision → x.digest = r.lineage.source.digest)
  else
    x.envelope.transfer = some r ∧ x.envelope.revision = r.sourceRevision ∧
      (x.envelope.terminal.any fun t => t.status == .transferred) = true

theorem sent_iff (r : RolloverReceipt) (x : SealedEnvelope) :
    (if x.envelope.revision < r.sourceRevision then
      require (x.envelope.transfer.isNone && !(x.envelope.revision == r.lineage.source.revision &&
        x.digest != r.lineage.source.digest)) .executionCorrupt
    else
      require (x.envelope.transfer == some r && x.envelope.revision == r.sourceRevision &&
        x.envelope.terminal.any fun t => t.status == .transferred) .executionCorrupt) = .ok () ↔
      Sent r x := by
  unfold Sent
  split
  · simp only [require_eq_ok,Bool.and_eq_true,Option.isNone_iff_eq_none,Bool.not_eq_true',
      Bool.and_eq_false_imp,beq_iff_eq,bne_eq_false_iff_eq]
  · simp only [require_eq_ok,Bool.and_eq_true,beq_iff_eq,and_assoc]

variable [Sealing]

structure Anchored (a : Anchors) (x : SealedEnvelope) : Prop where
  fork : x.envelope.fork = a.fork
  forked : ∀ f, a.fork = some f → f.validate = .ok () ∧ f.targetID = x.envelope.executionID
  rollover : x.envelope.rollover = a.incoming.map fun r => r.lineage
  incoming : ∀ r, a.incoming = some r → r.validate = .ok () ∧
    r.target.executionID = x.envelope.executionID ∧
    (x.envelope.revision = r.target.revision → x.digest = r.target.digest)
  unsent : a.outgoing = none → x.envelope.transfer = none
  outgoing : ∀ r, a.outgoing = some r → r.validate = .ok () ∧
    r.lineage.source.executionID = x.envelope.executionID ∧ Sent r x

theorem validateExecutionForkAnchor_iff (e : RawEnvelope) (anchor : Option ForkLineage) :
    validateExecutionForkAnchor e anchor = .ok () ↔ e.fork = anchor ∧
      ∀ f, anchor = some f → f.validate = .ok () ∧ f.targetID = e.executionID := by
  simp only [validateExecutionForkAnchor,validateExecutionForkTransition,bind_eq_ok,require_eq_ok,
    exists_const,Option.all_eq_true,Bool.and_eq_true,isOk_iff,beq_iff_eq,true_and]
  constructor
  · rintro ⟨hall,rfl⟩
    exact ⟨rfl,hall⟩
  · rintro ⟨rfl,hall⟩
    exact ⟨hall,rfl⟩

theorem validateExecutionLifecycleAnchors_iff (x : SealedEnvelope) (incoming outgoing : Option RolloverReceipt) :
    validateExecutionLifecycleAnchors x incoming outgoing = .ok () ↔
      x.envelope.rollover = incoming.map (fun r => r.lineage) ∧
      (∀ r, incoming = some r → r.validate = .ok () ∧ r.target.executionID = x.envelope.executionID ∧
        (x.envelope.revision = r.target.revision → x.digest = r.target.digest)) ∧
      (outgoing = none → x.envelope.transfer = none) ∧
      ∀ r, outgoing = some r → r.validate = .ok () ∧
        r.lineage.source.executionID = x.envelope.executionID ∧ Sent r x := by
  have hin : ((incoming.all fun r => r.validate.isOk && r.target.executionID == x.envelope.executionID) = true ∧
      (incoming.all fun r =>
        !(x.envelope.revision == r.target.revision && x.digest != r.target.digest)) = true) ↔
      ∀ r, incoming = some r → r.validate = .ok () ∧ r.target.executionID = x.envelope.executionID ∧
        (x.envelope.revision = r.target.revision → x.digest = r.target.digest) := by
    cases incoming with
    | none => simp
    | some r =>
      simp only [Option.all_some,Bool.and_eq_true,isOk_iff,beq_iff_eq,Bool.not_eq_true',
        Bool.and_eq_false_imp,bne_eq_false_iff_eq,Option.some.injEq,forall_eq',and_assoc]
  rw [← hin]
  cases outgoing with
  | none =>
    simp only [validateExecutionLifecycleAnchors,bind_eq_ok,require_eq_ok,exists_const,beq_iff_eq,
      Option.isNone_iff_eq_none]
    simp [and_assoc]
  | some r =>
    simp only [validateExecutionLifecycleAnchors,bind_eq_ok,sent_iff,require_eq_ok,exists_const,
      beq_iff_eq,Bool.and_eq_true,isOk_iff,Option.some.injEq,forall_eq',reduceCtorEq,false_imp_iff,
      true_and,and_assoc]

theorem anchored_iff (a : Anchors) (x : SealedEnvelope) :
    (validateExecutionForkAnchor x.envelope a.fork = .ok () ∧
      validateExecutionLifecycleAnchors x a.incoming a.outgoing = .ok ()) ↔ Anchored a x := by
  rw [validateExecutionForkAnchor_iff,validateExecutionLifecycleAnchors_iff]
  constructor
  · rintro ⟨⟨h1,h2⟩,h3,h4,h5,h6⟩
    exact ⟨h1,h2,h3,h4,h5,h6⟩
  · rintro ⟨h1,h2,h3,h4,h5,h6⟩
    exact ⟨⟨h1,h2⟩,h3,h4,h5,h6⟩

end Loads

section Ledgers

theorem map_fixed {α : Type} {f : α → α} {o : Option α} (h : ∀ y, o = some y → f y = y) : o.map f = o := by
  cases o with
  | none => rfl
  | some y => exact congrArg some (h y rfl)

variable [Sealing] {id : Text} {a : Anchors} {docs : Nat → Option SealedEnvelope}

/-- The documents of an execution and what the store keeps beside them belong together. -/
structure Ledger (id : Text) (a : Anchors) (docs : Nat → Option SealedEnvelope) : Prop where
  incoming : ∀ r, a.incoming = some r → r.validate = .ok ()
  outgoing : ∀ r, a.outgoing = some r → r.validate = .ok () ∧ a.revision = r.sourceRevision
  forked : ∀ f, a.fork = some f → f.validate = .ok ()
  unwritten : a.revision = 0 → a.fork = none ∧ a.incoming = none ∧ a.outgoing = none
  bounded : ∀ r x, docs r = some x → r ≤ a.revision
  documents : ∀ r x, docs r = some x → SealFacts x.envelope x ∧ x.envelope.executionID = id ∧
    x.envelope.revision = r ∧ Anchored a x.reread

theorem Ledger.empty (id : Text) : Ledger id ⟨0,none,none,none⟩ fun _ => none where
  incoming := by simp
  outgoing := by simp
  forked := by simp
  unwritten _ := ⟨rfl,rfl,rfl⟩
  bounded := by simp
  documents := by simp

inductive Follows (a : Anchors) (e : RawEnvelope) : Prop
  | first (revision : a.revision = 0) (rollover : validateExecutionRolloverTransition none e = .ok ())
      (fork : validateExecutionForkTransition none e = .ok ())
  | next (p : SealedEnvelope) (written : 0 < a.revision) (revision : p.envelope.revision = a.revision)
      (anchored : Anchored a p)
      (rollover : validateExecutionRolloverTransition (some p.envelope) e = .ok ())
      (fork : validateExecutionForkTransition (some p.envelope) e = .ok ())

/-- A commit inherits its anchors: it neither creates nor changes transfer authority. -/
structure Inherits (a : Anchors) (e : RawEnvelope) : Prop where
  rollover : e.rollover = a.incoming.map fun r => r.lineage
  incoming : ∀ r, a.incoming = some r → r.target.executionID = e.executionID
  transfer : e.transfer = none
  unsent : a.outgoing = none
  fork : a.revision ≠ 0 → e.fork = a.fork
  forked : ∀ f, e.fork = some f → f.validate = .ok () ∧ f.targetID = e.executionID

theorem Ledger.unsent (h : Ledger id a docs) {p : SealedEnvelope} (hp : Anchored a p)
    (hrev : p.envelope.revision = a.revision) (hnone : p.envelope.transfer = none) : a.outgoing = none := by
  cases hout : a.outgoing with
  | none => rfl
  | some r =>
    have hs := (hp.outgoing r hout).2.2
    have hnot : ¬ p.envelope.revision < r.sourceRevision := by
      rw [hrev,(h.outgoing r hout).2]
      exact Nat.lt_irrefl _
    rw [Sent,if_neg hnot,hnone] at hs
    cases hs.1

theorem Ledger.inherits (h : Ledger id a docs) {e : RawEnvelope} (hf : Follows a e) : Inherits a e := by
  have hforked : ∀ previous, validateExecutionForkTransition previous e = .ok () →
      ∀ f, e.fork = some f → f.validate = .ok () ∧ f.targetID = e.executionID := by
    intro previous hfork f hef
    simp only [validateExecutionForkTransition,bind_eq_ok,require_eq_ok,hef,Option.all_some,
      Bool.and_eq_true,isOk_iff,beq_iff_eq] at hfork
    exact hfork.choose_spec.1
  cases hf with
  | first hrev hroll hfork =>
    simp only [validateExecutionRolloverTransition,require_eq_ok,Bool.and_eq_true,
      Option.isNone_iff_eq_none] at hroll
    obtain ⟨-,hin,hout⟩ := h.unwritten hrev
    exact ⟨by rw [hroll.1,hin]; rfl,by simp [hin],hroll.2,hout,fun hne => absurd hrev hne,hforked none hfork⟩
  | next p hpos hrev hp hroll hfork =>
    have hforked' := hforked _ hfork
    simp only [validateExecutionRolloverTransition,bind_eq_ok,require_eq_ok,exists_const,
      Bool.and_eq_true,Option.isNone_iff_eq_none,beq_iff_eq] at hroll
    obtain ⟨hsent,hsame,htransfer⟩ := hroll
    simp only [validateExecutionForkTransition,bind_eq_ok,require_eq_ok,exists_const,
      Bool.and_eq_true,beq_iff_eq] at hfork
    refine ⟨hsame ▸ hp.rollover,fun r hr => (hp.incoming r hr).2.1.trans hfork.2.1,htransfer,?_,
      fun _ => hfork.2.2.symm.trans hp.fork,hforked'⟩
    exact h.unsent hp hrev hsent

theorem Anchored.committed {x y : SealedEnvelope} (h : Anchored a y) (hne : a.revision ≠ 0) :
    Anchored (a.committed x) y := by
  have hfork : (a.committed x).fork = a.fork := if_neg hne
  exact ⟨hfork ▸ h.fork,hfork ▸ h.forked,h.rollover,h.incoming,h.unsent,h.outgoing⟩

theorem incoming_lineage_valid (h : ∀ r, a.incoming = some r → r.validate = .ok ()) (l : RolloverLineage)
    (hl : (a.incoming.map fun r => r.lineage) = some l) : l.validate = .ok () := by
  obtain ⟨r,hr,rfl⟩ := Option.map_eq_some_iff.mp hl
  have hv := h r hr
  simp only [RolloverReceipt.validate,require_eq_ok,Bool.and_eq_true,and_assoc,isOk_iff] at hv
  exact hv.1

theorem receipt_target_revision {r : RolloverReceipt} (h : r.validate = .ok ()) : r.target.revision = 1 := by
  simp only [RolloverReceipt.validate,require_eq_ok,Bool.and_eq_true,and_assoc,beq_iff_eq] at h
  obtain ⟨-,-,-,hrev,-⟩ := h
  exact hrev

theorem Inherits.anchored {e : RawEnvelope} {x : SealedEnvelope} (hi : Inherits a e)
    (hl : Ledger id a docs) (hx : SealFacts { e with revision := a.revision + 1 } x) :
    Anchored (a.committed x) x.reread := by
  have hfork : x.reread.envelope.fork = e.fork := by
    change x.envelope.fork.map _ = _
    rw [hx.envelope]
    exact map_fixed fun f hf => ForkLineage.reread_of_valid (hi.forked f hf).1
  have hafork : (a.committed x).fork = e.fork := by
    unfold Anchors.committed
    rw [hx.envelope]
    by_cases h : a.revision = 0
    · simp [h]
    · simp [h,hi.fork h]
  have hid : x.reread.envelope.executionID = e.executionID := hx.reread_executionID
  have htransfer : x.reread.envelope.transfer = none := by
    change x.envelope.transfer.map _ = _
    rw [hx.envelope]
    simp [hi.transfer]
  refine ⟨hfork.trans hafork.symm,?_,?_,?_,fun _ => htransfer,?_⟩
  · intro f hf
    rw [hid]
    exact hi.forked f (hafork ▸ hf)
  · change x.envelope.rollover.map _ = a.incoming.map _
    rw [hx.envelope]
    change e.rollover.map _ = _
    rw [hi.rollover]
    exact map_fixed fun l hl' =>
      RolloverLineage.reread_of_valid (incoming_lineage_valid hl.incoming l hl')
  · intro r hr
    refine ⟨hl.incoming r hr,(hi.incoming r hr).trans hid.symm,fun hrev => ?_⟩
    -- the target's first revision was written by its rollover, not by a commit
    have hzero : a.revision = 0 := by
      have hx' : x.reread.envelope.revision = a.revision + 1 := hx.reread_revision
      have := receipt_target_revision (hl.incoming r hr)
      omega
    have hnone := (hl.unwritten hzero).2.1
    rw [show a.incoming = some r from hr] at hnone
    cases hnone
  · intro r hr
    have hout : (a.committed x).outgoing = none := hi.unsent
    rw [hout] at hr
    cases hr

theorem Ledger.commit (h : Ledger id a docs) {e : RawEnvelope} {x : SealedEnvelope}
    (hid : e.executionID = id) (hf : Follows a e)
    (hx : sealExecutionEnvelope { e with revision := a.revision + 1 } = .ok x) :
    Ledger id (a.committed x) (Function.update docs (a.revision + 1) (some x)) := by
  have hi := h.inherits hf
  have hs := sealExecutionEnvelope_eq_ok hx
  have hfork : x.envelope.fork = e.fork := by rw [hs.envelope]
  refine ⟨h.incoming,?_,?_,fun hz => absurd hz (Nat.succ_ne_zero _),?_,?_⟩
  · intro r hr
    rw [show (a.committed x).outgoing = none from hi.unsent] at hr
    cases hr
  · intro f hf'
    unfold Anchors.committed at hf'
    by_cases hz : a.revision = 0
    · simp only [hz,if_true] at hf'
      exact (hi.forked f (hfork ▸ hf')).1
    · simp only [hz,if_false] at hf'
      exact h.forked f hf'
  · intro r y hy
    by_cases hr : r = a.revision + 1
    · exact Nat.le_of_eq hr
    · rw [Function.update_of_ne hr] at hy
      exact Nat.le_succ_of_le (h.bounded r y hy)
  · intro r y hy
    by_cases hr : r = a.revision + 1
    · subst hr
      rw [Function.update_self] at hy
      cases hy
      have henv := hs.envelope
      exact ⟨henv ▸ hs,by rw [henv]; exact hid,by rw [henv],hi.anchored h hs⟩
    · rw [Function.update_of_ne hr] at hy
      obtain ⟨hseal,hyid,hyrev,hy'⟩ := h.documents r y hy
      have hle := h.bounded r y hy
      have hpos : y.envelope.revision ≠ 0 := hseal.revised
      exact ⟨hseal,hyid,hyrev,hy'.committed (by omega)⟩

theorem Ledger.retain (h : Ledger id a docs) (keep : Nat → Bool) :
    Ledger id a fun r => if keep r then docs r else none := by
  have hsub : ∀ r x, (if keep r then docs r else none) = some x → docs r = some x := by
    intro r x hx
    split at hx
    · exact hx
    · cases hx
  exact ⟨h.incoming,h.outgoing,h.forked,h.unwritten,fun r x hx => h.bounded r x (hsub r x hx),
    fun r x hx => h.documents r x (hsub r x hx)⟩

section Rollovers

variable {current target transferred created : SealedEnvelope} {receipt : RolloverReceipt}

theorem Anchored.before_transfer {y : SealedEnvelope} (h : Anchored a y)
    (hp : Publication current target transferred created receipt)
    (hrev : current.envelope.revision = a.revision) (hunsent : a.outgoing = none)
    (hid : y.envelope.executionID = current.envelope.executionID)
    (hle : y.envelope.revision ≤ a.revision)
    (hhead : y.envelope.revision = a.revision → y.digest = current.digest) :
    Anchored (a.transferred receipt) y := by
  refine ⟨h.fork,h.forked,h.rollover,h.incoming,fun hn => (nomatch hn),?_⟩
  intro r hr
  cases hr
  refine ⟨hp.receipt_valid,hp.facts.sourceID.trans hid.symm,?_⟩
  have hlt : y.envelope.revision < receipt.sourceRevision := by
    rw [hp.receiptRevision]
    omega
  rw [Sent,if_pos hlt]
  refine ⟨h.unsent hunsent,fun heq => ?_⟩
  rw [hp.facts.sourceRevision,hrev] at heq
  exact (hhead heq).trans hp.facts.sourceDigest.symm

theorem Publication.transferred_anchored (hp : Publication current target transferred created receipt)
    (h : Ledger id a docs) (hc : Anchored a current) (hrev : current.envelope.revision = a.revision)
    (hpos : a.revision ≠ 0) : Anchored (a.transferred receipt) transferred.reread := by
  have hs := sealExecutionEnvelope_eq_ok hp.sealedSource
  have hid : transferred.reread.envelope.executionID = current.envelope.executionID :=
    hs.reread_executionID
  have hrev' : transferred.reread.envelope.revision = current.envelope.revision + 1 := hs.reread_revision
  have hafork : a.fork = none := hc.fork.symm.trans hp.sourceFork
  have hfork : transferred.reread.envelope.fork = none := by
    change transferred.envelope.fork.map _ = none
    rw [hp.transferred_envelope]
    simp [hp.sourceFork]
  refine ⟨hfork.trans hafork.symm,?_,?_,?_,fun hn => (nomatch hn),?_⟩
  · intro f hf
    rw [show a.fork = some f from hf] at hafork
    cases hafork
  · change transferred.envelope.rollover.map _ = a.incoming.map _
    rw [hp.transferred_envelope]
    change current.envelope.rollover.map _ = _
    rw [hc.rollover]
    exact map_fixed fun l hl =>
      RolloverLineage.reread_of_valid (incoming_lineage_valid h.incoming l hl)
  · intro r hr
    obtain ⟨hv,ht,-⟩ := hc.incoming r hr
    refine ⟨hv,ht.trans hid.symm,fun heq => ?_⟩
    have := receipt_target_revision hv
    omega
  · intro r hr
    cases hr
    refine ⟨hp.receipt_valid,hp.facts.sourceID.trans hid.symm,?_⟩
    have hnot : ¬ transferred.reread.envelope.revision < receipt.sourceRevision := by
      rw [hrev',hp.receiptRevision]
      exact Nat.lt_irrefl _
    rw [Sent,if_neg hnot]
    refine ⟨?_,hrev'.trans hp.receiptRevision.symm,?_⟩
    · change transferred.envelope.transfer.map _ = _
      rw [hp.transferred_envelope]
      exact congrArg some (RolloverReceipt.reread_of_valid hp.receipt_valid)
    · change (transferred.envelope.terminal.map _).any _ = true
      rw [hp.transferred_envelope]
      rfl

theorem Ledger.transfer (h : Ledger id a docs) (hp : Publication current target transferred created receipt)
    (hc : Anchored a current) (hid : current.envelope.executionID = id)
    (hrev : current.envelope.revision = a.revision) (hpos : a.revision ≠ 0)
    (hdoc : ∀ x, docs a.revision = some x → x.reread = current) :
    Ledger id (a.transferred receipt) (Function.update docs (a.revision + 1) (some transferred)) := by
  have hunsent := h.unsent hc hrev hp.sourceTransfer
  refine ⟨h.incoming,?_,h.forked,fun hz => absurd hz (Nat.succ_ne_zero _),?_,?_⟩
  · intro r hr
    cases hr
    exact ⟨hp.receipt_valid,by rw [hp.receiptRevision,hrev]; rfl⟩
  · intro r y hy
    by_cases hr : r = a.revision + 1
    · exact Nat.le_of_eq hr
    · rw [Function.update_of_ne hr] at hy
      exact Nat.le_succ_of_le (h.bounded r y hy)
  · intro r y hy
    by_cases hr : r = a.revision + 1
    · subst hr
      rw [Function.update_self] at hy
      cases hy
      have hs := sealExecutionEnvelope_eq_ok hp.sealedSource
      have henv := hs.envelope
      exact ⟨henv ▸ hs,by rw [henv]; exact hid,by rw [henv,hrev],
        hp.transferred_anchored h hc hrev hpos⟩
    · rw [Function.update_of_ne hr] at hy
      obtain ⟨hseal,hyid,hyrev,hy'⟩ := h.documents r y hy
      have hrr : y.reread.envelope.revision = r := hseal.reread_revision.trans hyrev
      refine ⟨hseal,hyid,hyrev,hy'.before_transfer hp hrev hunsent ?_ ?_ ?_⟩
      · rw [hseal.reread_executionID,hyid,hid]
      · rw [hrr]
        exact h.bounded r y hy
      · intro heq
        rw [hrr] at heq
        subst heq
        rw [hdoc y hy]

theorem Publication.ledger (hp : Publication current target transferred created receipt) :
    Ledger target.envelope.executionID (.created receipt)
      (Function.update (fun _ => none) 1 (some created)) := by
  have hs := sealExecutionEnvelope_eq_ok hp.sealedTarget
  have hid : created.reread.envelope.executionID = target.envelope.executionID := hs.reread_executionID
  have hanch : Anchored (.created receipt) created.reread := by
    refine ⟨?_,fun f hf => (nomatch hf),?_,?_,fun _ => ?_,fun r hr => (nomatch hr)⟩
    · change created.envelope.fork.map _ = none
      rw [hp.created_envelope]
      simp [hp.facts.fork]
    · change created.envelope.rollover.map _ = some _
      rw [hp.created_envelope]
      change target.envelope.rollover.map _ = _
      rw [hp.facts.rollover]
      exact congrArg some (RolloverLineage.reread_of_valid hp.facts.valid)
    · intro r hr
      cases hr
      refine ⟨hp.receipt_valid,?_,fun _ => ?_⟩
      · rw [hp.receiptTarget,hid]
      · rw [hp.receiptTarget]
        exact hs.reread_digest
    · change created.envelope.transfer.map _ = none
      rw [hp.created_envelope]
      simp [hp.facts.transfer]
  refine ⟨?_,fun r hr => (nomatch hr),fun f hf => (nomatch hf),fun hz => (nomatch hz),?_,?_⟩
  · intro r hr
    cases hr
    exact hp.receipt_valid
  · intro r y hy
    by_cases hr : r = 1
    · exact Nat.le_of_eq hr
    · rw [Function.update_of_ne hr] at hy
      cases hy
  · intro r y hy
    by_cases hr : r = 1
    · subst hr
      rw [Function.update_self] at hy
      cases hy
      have henv := hs.envelope
      exact ⟨henv ▸ hs,by rw [henv],by rw [henv],hanch⟩
    · rw [Function.update_of_ne hr] at hy
      cases hy

end Rollovers
end Ledgers
end Flowy
