import Flowy.Store.Postgres

/-! The retention window in machine integers. The stores write it down in two ways, as a first retained
revision and as a distance from the head; revisions are `uint64`, `KeepLast` is an `int`. -/
namespace Flowy

/-- The part of a request that the selection reads, in the widths of the source. -/
structure RetentionWindow where
  revision : UInt64
  keepLast : Int64
  deletePayload : Bool
  protectedRevisions : List UInt64
deriving DecidableEq

namespace RetentionWindow

def request (w : RetentionWindow) (executionID label : Text) : ExecutionRetentionRequest :=
  ⟨executionID,w.revision.toNat,label,w.keepLast.toInt,w.deletePayload,
    w.protectedRevisions.map UInt64.toNat⟩

def maxBigint : UInt64 := 9223372036854775807

def executionRevisionRetained (w : RetentionWindow) (revision : UInt64) : Bool :=
  if w.deletePayload then false
  else if revision == w.revision || w.protectedRevisions.contains revision then true
  else if w.keepLast < 0 then false
  else decide (revision ≤ w.revision) && decide (w.revision - revision < w.keepLast.toUInt64)

def retentionSelection (w : RetentionWindow) (revision : UInt64) : Result (UInt64 × List Int64) := do
  require (!(decide (w.keepLast < 0) || decide (revision > maxBigint))) .executionLifecycleUnsafe
  let firstRetained : UInt64 := if w.keepLast.toUInt64 < revision then
    revision - w.keepLast.toUInt64 + 1 else 1
  let firstRetained := if !w.deletePayload && decide (firstRetained > revision) then revision
    else firstRetained
  require (w.protectedRevisions.all fun value => decide (value ≤ maxBigint)) .executionLifecycleUnsafe
  .ok (firstRetained,w.protectedRevisions.map UInt64.toInt64)

/-- The `DELETE` of the store, for a row with the given `revision` column. -/
def deletes (w : RetentionWindow) (firstRetained : UInt64) (protectedRevisions : List Int64)
    (revision : Int64) : Bool :=
  w.deletePayload || (decide (revision.toInt < firstRetained.toNat) && !protectedRevisions.contains revision)

variable {w : RetentionWindow} {r : UInt64}

theorem toInt_toInt64 (h : r ≤ maxBigint) : r.toInt64.toInt = r.toNat := by
  have hr : r.toNat ≤ 9223372036854775807 := UInt64.le_iff_toNat_le.mp h
  exact BitVec.toInt_eq_toNat_of_lt (by change 2 * r.toNat < 2 ^ 64; omega)

theorem toNat_toUInt64 {k : Int64} (h : ¬ k < 0) : (k.toUInt64.toNat : Int) = k.toInt := by
  have hk : 0 ≤ k.toInt := by
    rw [Int64.lt_iff_toInt_lt] at h
    simpa using h
  have hlt : 2 * k.toBitVec.toNat < 2 ^ 64 := by
    rcases Nat.lt_or_ge (2 * k.toBitVec.toNat) (2 ^ 64) with hlt | hge
    · exact hlt
    · have hneg : k.toBitVec.toInt < 0 := BitVec.toInt_neg_iff.mpr hge
      have : k.toInt < 0 := hneg
      omega
  exact (BitVec.toInt_eq_toNat_of_lt hlt).symm

structure Valid (w : RetentionWindow) : Prop where
  keepLast : ¬ w.keepLast < 0
  revision : w.revision ≠ 0
  deletes : w.deletePayload = true → w.keepLast = 0 ∧ w.protectedRevisions = []
  bounded : ∀ p ∈ w.protectedRevisions, p ≠ 0 ∧ p ≤ w.revision

theorem valid_of_validate {executionID label : Text} (h : (w.request executionID label).validate = .ok ()) :
    Valid w := by
  simp only [request,ExecutionRetentionRequest.validate,bind_eq_ok,require_eq_ok,exists_const,
    Bool.and_eq_true,bne_iff_ne,Bool.not_eq_true',Bool.and_eq_false_iff,
    Bool.or_eq_false_iff,bne_eq_false_iff_eq,Bool.not_eq_false'] at h
  obtain ⟨⟨⟨⟨⟨⟨-,-⟩,hrevision⟩,-⟩,hkeep⟩,-⟩,hdelete,hprotected⟩ := h
  refine ⟨?_,?_,?_,?_⟩
  · rw [Int64.lt_iff_toInt_lt]
    simpa using of_decide_eq_false hkeep
  · intro hzero
    rw [hzero] at hrevision
    exact hrevision rfl
  · intro htrue
    rcases hdelete with hfalse | ⟨hzero,hnone⟩
    · rw [htrue] at hfalse
      cases hfalse
    · refine ⟨Int64.toInt_inj.mp (by simpa using hzero),?_⟩
      simpa using hnone
  · intro p hp
    obtain ⟨hne,hle⟩ := validProtectedRevisions_bounds hprotected _ (List.mem_map_of_mem hp)
    refine ⟨?_,UInt64.le_iff_toNat_le.mpr hle⟩
    rintro rfl
    exact hne rfl

theorem distance (h : r ≤ w.revision) : (w.revision - r).toNat + r.toNat = w.revision.toNat := by
  have hle : r.toNat ≤ w.revision.toNat := UInt64.le_iff_toNat_le.mp h
  rw [UInt64.toNat_sub_of_le _ _ h]
  omega

/-- The lower bound is computed below `2 ^ 63 + 1`, so neither the subtraction nor the successor wraps. -/
theorem first_toNat (hmax : w.revision ≤ maxBigint) (h : w.keepLast.toUInt64 < w.revision) :
    (w.revision - w.keepLast.toUInt64 + 1).toNat + w.keepLast.toUInt64.toNat = w.revision.toNat + 1 := by
  have hlt : w.keepLast.toUInt64.toNat < w.revision.toNat := UInt64.lt_iff_toNat_lt.mp h
  have hrev : w.revision.toNat ≤ 9223372036854775807 := UInt64.le_iff_toNat_le.mp hmax
  have hsub := UInt64.toNat_sub_of_le _ _ (UInt64.le_iff_toNat_le.mpr hlt.le)
  rw [UInt64.toNat_add,hsub,Nat.mod_eq_of_lt (by change _ + 1 < _; omega)]
  change _ + 1 + _ = _
  omega

def firstRetained (w : RetentionWindow) : Nat :=
  let k := w.keepLast.toUInt64.toNat
  let first := if k < w.revision.toNat then w.revision.toNat + 1 - k else 1
  if !w.deletePayload && decide (first > w.revision.toNat) then w.revision.toNat else first

theorem retentionSelection_eq (hv : Valid w) (hmax : w.revision ≤ maxBigint) :
    ∃ first, w.retentionSelection w.revision = .ok (first,w.protectedRevisions.map UInt64.toInt64) ∧
      first.toNat = w.firstRetained := by
  have hprotected : (w.protectedRevisions.all fun value => decide (value ≤ maxBigint)) = true := by
    rw [List.all_eq_true]
    intro p hp
    exact decide_eq_true (UInt64.le_trans (hv.bounded p hp).2 hmax)
  have hguard : (!(decide (w.keepLast < 0) || decide (w.revision > maxBigint))) = true := by
    simp [hv.keepLast,hmax]
  let first : UInt64 := if w.keepLast.toUInt64 < w.revision then
    w.revision - w.keepLast.toUInt64 + 1 else 1
  refine ⟨if !w.deletePayload && decide (first > w.revision) then w.revision else first,?_,?_⟩
  · simp only [retentionSelection,hguard,hprotected,require,if_true]
    rfl
  · have hfirst : first.toNat = if w.keepLast.toUInt64.toNat < w.revision.toNat then
        w.revision.toNat + 1 - w.keepLast.toUInt64.toNat else 1 := by
      by_cases hk : w.keepLast.toUInt64 < w.revision
      · have hstart := first_toNat hmax hk
        simp only [first,if_pos hk,if_pos (UInt64.lt_iff_toNat_lt.mp hk)]
        omega
      · simp only [first,if_neg hk,if_neg (mt UInt64.lt_iff_toNat_lt.mpr hk)]
        rfl
    have hgt : decide (first > w.revision) = decide (first.toNat > w.revision.toNat) :=
      decide_eq_decide.mpr UInt64.lt_iff_toNat_lt
    simp only [firstRetained,← hfirst,hgt]
    split
    · rfl
    · rfl

theorem retentionSelection_request (hv : Valid w) (hmax : w.revision ≤ maxBigint)
    (executionID label : Text) :
    Postgres.retentionSelection (w.request executionID label) w.revision.toNat =
      .ok (w.firstRetained,w.protectedRevisions.map UInt64.toNat) := by
  have hkeep : ¬ w.keepLast.toInt < 0 := by
    have := hv.keepLast
    rw [Int64.lt_iff_toInt_lt] at this
    simpa using this
  have hconv := toNat_toUInt64 hv.keepLast
  have hrev : w.revision.toNat ≤ Postgres.maxInt64 := UInt64.le_iff_toNat_le.mp hmax
  have hprotected : ((w.protectedRevisions.map UInt64.toNat).all fun r =>
      decide (r ≤ Postgres.maxInt64)) = true := by
    rw [List.all_eq_true]
    intro r hr
    obtain ⟨p,hp,rfl⟩ := List.mem_map.mp hr
    have hle : p.toNat ≤ w.revision.toNat := UInt64.le_iff_toNat_le.mp (hv.bounded p hp).2
    exact decide_eq_true (hle.trans hrev)
  have hk : w.keepLast.toInt < w.revision.toNat ↔ w.keepLast.toUInt64.toNat < w.revision.toNat := by omega
  have hfirst : (if w.keepLast.toInt < w.revision.toNat then
      w.revision.toNat - w.keepLast.toInt.toNat + 1 else 1) =
      if w.keepLast.toUInt64.toNat < w.revision.toNat then
        w.revision.toNat + 1 - w.keepLast.toUInt64.toNat else 1 := by
    simp only [hk]
    split
    · omega
    · rfl
  simp only [firstRetained,← hfirst]
  simp only [Postgres.retentionSelection,request,hkeep,hrev,hprotected,require,
    decide_false,decide_true,Bool.not_false,Bool.and_true,if_true]
  rfl

theorem contains_toInt64 (hr : r ≤ maxBigint) {ps : List UInt64} (hps : ∀ p ∈ ps, p ≤ maxBigint) :
    (ps.map UInt64.toInt64).contains r.toInt64 = ps.contains r := by
  rw [Bool.eq_iff_iff,List.contains_iff_mem,List.contains_iff_mem]
  constructor
  · intro h
    obtain ⟨p,hp,heq⟩ := List.mem_map.mp h
    have hvalue : p.toNat = r.toNat := by
      have := congrArg Int64.toInt heq
      rw [toInt_toInt64 (hps p hp),toInt_toInt64 hr] at this
      exact Int.ofNat_inj.mp this
    rw [← UInt64.toNat_inj.mp hvalue]
    exact hp
  · intro h
    exact List.mem_map_of_mem h

theorem executionRevisionRetained_window (hdelete : w.deletePayload = false) (hkeep : ¬ w.keepLast < 0)
    (hr : r ≤ w.revision) : w.executionRevisionRetained r = true ↔
      r = w.revision ∨ r ∈ w.protectedRevisions ∨ w.revision.toNat < r.toNat + w.keepLast.toUInt64.toNat := by
  have hdistance := distance hr
  have hlt : w.revision - r < w.keepLast.toUInt64 ↔
      w.revision.toNat < r.toNat + w.keepLast.toUInt64.toNat := by
    rw [UInt64.lt_iff_toNat_lt]
    omega
  simp only [executionRevisionRetained,hdelete,Bool.false_eq_true,if_false,if_neg hkeep]
  by_cases hself : r = w.revision
  · simp [hself]
  · by_cases hmem : r ∈ w.protectedRevisions
    · simp [hmem]
    · simp [hself,hmem,hr,hlt]

theorem below_firstRetained (hdelete : w.deletePayload = false) (hpos : r ≠ 0) (hr : r ≤ w.revision) :
    r.toNat < w.firstRetained ↔
      ¬ (r = w.revision ∨ w.revision.toNat < r.toNat + w.keepLast.toUInt64.toNat) := by
  have hle : r.toNat ≤ w.revision.toNat := UInt64.le_iff_toNat_le.mp hr
  have hone : r.toNat ≠ 0 := fun h => hpos (UInt64.toNat_inj.mp h)
  have hself : r = w.revision ↔ r.toNat = w.revision.toNat := UInt64.toNat_inj.symm
  rw [hself]
  simp only [firstRetained,hdelete,Bool.not_false,Bool.true_and,decide_eq_true_eq]
  split
  · split
    · omega
    · omega
  · split
    · omega
    · omega

theorem deletes_eq (hv : Valid w) (hmax : w.revision ≤ maxBigint) {first : UInt64}
    (hfirst : first.toNat = w.firstRetained) (hpos : r ≠ 0) (hr : r ≤ w.revision) :
    w.deletes first (w.protectedRevisions.map UInt64.toInt64) r.toInt64 =
      !w.executionRevisionRetained r := by
  have hrmax : r ≤ maxBigint := UInt64.le_trans hr hmax
  have hps : ∀ p ∈ w.protectedRevisions, p ≤ maxBigint :=
    fun p hp => UInt64.le_trans (hv.bounded p hp).2 hmax
  cases hdelete : w.deletePayload with
  | true => simp [deletes,executionRevisionRetained,hdelete]
  | false =>
    have hretained := executionRevisionRetained_window hdelete hv.keepLast hr
    have hbelow := below_firstRetained hdelete hpos hr
    simp only [deletes,hdelete,Bool.false_or,contains_toInt64 hrmax hps,toInt_toInt64 hrmax,hfirst,
      Int.ofNat_lt]
    rw [Bool.eq_iff_iff,Bool.not_eq_true',← Bool.not_eq_true,hretained,Bool.and_eq_true,
      decide_eq_true_eq,hbelow,Bool.not_eq_true',← Bool.not_eq_true,List.contains_iff_mem]
    tauto

theorem executionRevisionRetained_request (hv : Valid w) (hr : r ≤ w.revision) (executionID label : Text) :
    Flowy.executionRevisionRetained (w.request executionID label) r.toNat = w.executionRevisionRetained r := by
  have hkeep : ¬ w.keepLast.toInt < 0 := by
    have := hv.keepLast
    rw [Int64.lt_iff_toInt_lt] at this
    simpa using this
  have hle : r.toNat ≤ w.revision.toNat := UInt64.le_iff_toNat_le.mp hr
  have hconv := toNat_toUInt64 hv.keepLast
  cases hdelete : w.deletePayload with
  | true => simp [Flowy.executionRevisionRetained,executionRevisionRetained,request,hdelete]
  | false =>
    have hmem : r.toNat ∈ w.protectedRevisions.map UInt64.toNat ↔ r ∈ w.protectedRevisions :=
      List.mem_map_of_injective (fun _ _ => UInt64.toNat_inj.mp)
    have hself : r.toNat = w.revision.toNat ↔ r = w.revision := UInt64.toNat_inj
    have hlt : (w.revision.toNat : Int) - r.toNat < w.keepLast.toInt ↔
        w.revision.toNat < r.toNat + w.keepLast.toUInt64.toNat := by omega
    rw [Bool.eq_iff_iff,executionRevisionRetained_window hdelete hv.keepLast hr]
    simp only [Flowy.executionRevisionRetained,request,hdelete,Bool.false_eq_true,if_false,if_neg hkeep]
    by_cases hhead : r = w.revision
    · simp [hhead]
    · by_cases hprotected : r ∈ w.protectedRevisions
      · simp only [List.contains_iff_mem.mpr (hmem.mpr hprotected),Bool.or_true,if_true,hprotected,
          true_or,or_true]
      · have hno : (w.protectedRevisions.map UInt64.toNat).contains r.toNat = false := by
          rw [← Bool.not_eq_true,List.contains_iff_mem,hmem]
          exact hprotected
        simp only [hno,Bool.or_false,beq_iff_eq,hself,hhead,if_false,hle,decide_true,Bool.true_and,
          decide_eq_true_eq,hlt,hprotected,false_or]

structure SameSelection (w : RetentionWindow) (executionID label : Text) : Prop where
  keepLast : (w.keepLast.toUInt64.toNat : Int) = w.keepLast.toInt
  distance : ∀ r ≤ w.revision, (w.revision - r).toNat + r.toNat = w.revision.toNat
  bound : w.keepLast.toUInt64 < w.revision →
    (w.revision - w.keepLast.toUInt64).toNat + w.keepLast.toUInt64.toNat = w.revision.toNat ∧
    (w.revision - w.keepLast.toUInt64 + 1).toNat = (w.revision - w.keepLast.toUInt64).toNat + 1
  column : ∀ r ≤ w.revision, r.toInt64.toInt = r.toNat
  protectedColumn : ∀ p ∈ w.protectedRevisions, p.toInt64.toInt = p.toNat
  selects : ∃ first ps, w.retentionSelection w.revision = .ok (first,ps) ∧
    Postgres.retentionSelection (w.request executionID label) w.revision.toNat =
      .ok (first.toNat,w.protectedRevisions.map UInt64.toNat) ∧
    ∀ r, 1 ≤ r → r ≤ w.revision →
      (w.deletes first ps r.toInt64 = true ↔ w.executionRevisionRetained r = false)
  model : ∀ r ≤ w.revision, Flowy.executionRevisionRetained (w.request executionID label) r.toNat =
    w.executionRevisionRetained r
  head : w.deletePayload = false → w.executionRevisionRetained w.revision = true

theorem retention_selects_same {w : RetentionWindow} {executionID label : Text}
    (hvalid : (w.request executionID label).validate = .ok ()) (hmax : w.revision ≤ maxBigint) :
    SameSelection w executionID label := by
  have hv := valid_of_validate hvalid
  refine ⟨toNat_toUInt64 hv.keepLast,fun r hr => distance hr,?_,?_,?_,?_,?_,?_⟩
  · intro hk
    have hsub := distance (UInt64.le_of_lt hk)
    have hstart := first_toNat hmax hk
    exact ⟨hsub,by omega⟩
  · intro r hr
    exact toInt_toInt64 (UInt64.le_trans hr hmax)
  · intro p hp
    exact toInt_toInt64 (UInt64.le_trans (hv.bounded p hp).2 hmax)
  · obtain ⟨first,hselect,hfirst⟩ := retentionSelection_eq hv hmax
    refine ⟨first,_,hselect,?_,?_⟩
    · rw [hfirst]
      exact retentionSelection_request hv hmax executionID label
    intro r hpos hr
    have hne : r ≠ 0 := by
      rintro rfl
      exact absurd hpos (by decide)
    rw [deletes_eq hv hmax hfirst hne hr,Bool.not_eq_true']
  · intro r hr
    exact executionRevisionRetained_request hv hr executionID label
  · intro hdelete
    rw [executionRevisionRetained_window hdelete hv.keepLast (UInt64.le_refl _)]
    exact .inl rfl

def farWindow : RetentionWindow := ⟨9223372036854775807,5000000000,false,[7]⟩

theorem retention_selects_same_far : (farWindow.request (ascii "e") (ascii "l")).validate = .ok () ∧
    SameSelection farWindow (ascii "e") (ascii "l") := by
  have hvalid : (farWindow.request (ascii "e") (ascii "l")).validate = .ok () := by decide +kernel
  exact ⟨hvalid,retention_selects_same hvalid (by decide)⟩

end RetentionWindow
end Flowy
