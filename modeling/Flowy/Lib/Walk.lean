import Flowy.Lib.GoMap

/-! Walking a finite graph towards a target when every vertex has at most one edge out of it. The
walk remembers the vertices it has left and gives up when it comes back to one. -/
namespace Flowy.Walk

variable {V E : Type}

inductive Path (leads : V → E → Prop) (head : E → V) : V → List E → V → Prop
  | nil (v : V) : Path leads head v [] v
  | cons {v w : V} {e : E} {path : List E} (first : leads v e) (rest : Path leads head (head e) path w) :
      Path leads head v (e :: path) w

inductive Outcome (E : Type)
  | arrived (path : List E)
  | stuck
  | looped

section Paths

variable {leads : V → E → Prop} {head : E → V} {v w u : V} {path : List E}

theorem Path.snoc {e : E} (h : Path leads head v path w) (hlast : leads w e) :
    Path leads head v (path ++ [e]) (head e) := by
  induction h with
  | nil v => exact .cons hlast (.nil _)
  | cons first _ ih => exact .cons first (ih hlast)

theorem Path.target_mem (h : Path leads head v path w) : w ∈ v :: path.map head := by
  induction h with
  | nil v => simp
  | cons first rest ih => exact List.mem_cons_of_mem _ ih

theorem Path.mem_of_closed {s : List V} (hclosed : ∀ x ∈ s, ∀ e, leads x e → head e ∈ s)
    (h : Path leads head v path w) (hv : v ∈ s) : w ∈ s := by
  induction h with
  | nil v => exact hv
  | cons first rest ih => exact ih (hclosed _ hv _ first)

theorem Path.unique (hone : ∀ x e e', leads x e → leads x e' → e = e') {other : List E}
    (h : Path leads head v path w) (hother : Path leads head v other w)
    (hp : (v :: path.map head).Nodup) (ho : (v :: other.map head).Nodup) : path = other := by
  induction h generalizing other with
  | nil v =>
    cases hother with
    | nil => rfl
    | cons _ rest => exact absurd rest.target_mem (List.nodup_cons.mp ho).1
  | cons first rest ih =>
    cases hother with
    | nil => exact absurd rest.target_mem (List.nodup_cons.mp hp).1
    | cons first' rest' =>
      cases hone _ _ _ first first'
      rw [ih rest' (List.nodup_cons.mp hp).2 (List.nodup_cons.mp ho).2]

/-- The three ways a walk from `start` to `target` can end, told by the graph alone. -/
def Ends (leads : V → E → Prop) (head : E → V) (start target : V) : Outcome E → Prop
  | .arrived path => Path leads head start path target ∧ (start :: path.map head).Nodup
  | .stuck => (∀ path, ¬Path leads head start path target) ∧
      ∃ path w, Path leads head start path w ∧ ∀ e, ¬leads w e
  | .looped => (∀ path, ¬Path leads head start path target) ∧
      ∀ path w, Path leads head start path w → ∃ e, leads w e

theorem Ends.unique (hone : ∀ x e e', leads x e → leads x e' → e = e') {start target : V} {o o' : Outcome E}
    (h : Ends leads head start target o) (h' : Ends leads head start target o') : o = o' := by
  cases o with
  | arrived path =>
    cases o' with
    | arrived other => rw [h.1.unique hone h'.1 h.2 h'.2]
    | stuck => exact absurd h.1 (h'.1 path)
    | looped => exact absurd h.1 (h'.1 path)
  | stuck =>
    cases o' with
    | arrived other => exact absurd h'.1 (h.1 other)
    | stuck => rfl
    | looped =>
      obtain ⟨path,w,hpath,hend⟩ := h.2
      obtain ⟨e,he⟩ := h'.2 path w hpath
      exact absurd he (hend e)
  | looped =>
    cases o' with
    | arrived other => exact absurd h'.1 (h.1 other)
    | stuck =>
      obtain ⟨path,w,hpath,hend⟩ := h'.2
      obtain ⟨e,he⟩ := h.2 path w hpath
      exact absurd he (hend e)
    | looped => rfl

end Paths

section Follow

variable [DecidableEq V] (edges : GoMap V E) (head : E → V) (target : V)

def Leads (v : V) (e : E) : Prop := edges.get? v = some e

def unused (visited : List V) : List V := edges.keys.filter fun v => v ∉ visited

theorem unused_cons_lt {visited : List V} {v : V} {e : E} (he : edges.get? v = some e)
    (hv : v ∉ visited) : (unused edges (v :: visited)).length < (unused edges visited).length := by
  have hkey : v ∈ edges.keys := AList.mem_keys.mp (AList.lookup_isSome.mp (by
    rw [show edges.lookup v = some e from he]
    rfl))
  have hsplit : unused edges (v :: visited) = (unused edges visited).filter fun x => x ≠ v := by
    simp only [unused,List.filter_filter,List.mem_cons,not_or,Bool.decide_and]
  rw [hsplit]
  apply List.length_filter_lt_length_iff_exists.mpr
  exact ⟨v,List.mem_filter.mpr ⟨hkey,by simpa using hv⟩,by simp⟩

def follow (visited : List V) (path : List E) (source : V) : Outcome E :=
  if source = target then .arrived path
  else if _hv : source ∈ visited then .looped
  else match _he : edges.get? source with
    | none => .stuck
    | some e => follow (source :: visited) (path ++ [e]) (head e)
termination_by (unused edges visited).length
decreasing_by exact unused_cons_lt edges _he _hv

structure Trail (start : V) (visited : List V) (path : List E) (v : V) : Prop where
  taken : Path (Leads edges) head start path v
  vertices : start :: path.map head = visited.reverse ++ [v]
  closed : ∀ x ∈ visited, ∀ e, edges.get? x = some e → head e ∈ v :: visited
  leaves : ∀ x ∈ visited, ∃ e, edges.get? x = some e
  avoids : target ∉ visited
  nodup : visited.Nodup

variable {edges head target} {start source : V} {visited : List V} {path : List E}

theorem Trail.init (start : V) : Trail edges head target start [] [] start :=
  ⟨.nil start,rfl,by simp,by simp,by simp,List.nodup_nil⟩

theorem Trail.start_mem (h : Trail edges head target start visited path source) :
    start ∈ source :: visited := by
  have hmem : start ∈ visited.reverse ++ [source] := h.vertices ▸ List.mem_cons_self
  simpa [or_comm] using hmem

theorem Trail.step {e : E} (h : Trail edges head target start visited path source)
    (hne : source ≠ target) (hv : source ∉ visited) (he : edges.get? source = some e) :
    Trail edges head target start (source :: visited) (path ++ [e]) (head e) where
  taken := h.taken.snoc he
  vertices := by
    rw [List.map_append,← List.cons_append,h.vertices]
    simp
  closed := by
    intro x hx e' he'
    rcases List.mem_cons.mp hx with rfl | hx
    · cases he.symm.trans he'
      exact List.mem_cons_self
    · exact List.mem_cons_of_mem _ (h.closed x hx e' he')
  leaves := by
    intro x hx
    rcases List.mem_cons.mp hx with rfl | hx
    · exact ⟨e,he⟩
    · exact h.leaves x hx
  avoids := by
    simp only [List.mem_cons,not_or]
    exact ⟨hne.symm,h.avoids⟩
  nodup := List.nodup_cons.mpr ⟨hv,h.nodup⟩

theorem Trail.looped (h : Trail edges head target start visited path source) (hv : source ∈ visited) :
    Ends (Leads edges) head start target .looped := by
  have hmem : ∀ x, x ∈ source :: visited → x ∈ visited := by
    intro x hx
    rcases List.mem_cons.mp hx with rfl | hx
    · exact hv
    · exact hx
  have hreach : ∀ p w, Path (Leads edges) head start p w → w ∈ visited :=
    fun p w hp => hp.mem_of_closed (fun x hx e he => hmem _ (h.closed x hx e he)) (hmem _ h.start_mem)
  exact ⟨fun p hp => h.avoids (hreach p target hp),fun p w hp => h.leaves w (hreach p w hp)⟩

theorem Trail.stuck (h : Trail edges head target start visited path source) (hne : source ≠ target)
    (hnone : edges.get? source = none) :
    Ends (Leads edges) head start target .stuck := by
  have hend : ∀ e, ¬Leads edges source e := by
    intro e he
    rw [Leads,hnone] at he
    cases he
  refine ⟨fun p hp => ?_,path,source,h.taken,hend⟩
  have hclosed : ∀ x ∈ source :: visited, ∀ e, edges.get? x = some e → head e ∈ source :: visited := by
    intro x hx e he
    rcases List.mem_cons.mp hx with rfl | hx
    · exact absurd he (hend e)
    · exact h.closed x hx e he
  rcases List.mem_cons.mp (hp.mem_of_closed hclosed h.start_mem) with ht | ht
  · exact hne ht.symm
  · exact h.avoids ht

theorem Trail.arrived (h : Trail edges head target start visited path target) :
    Ends (Leads edges) head start target (.arrived path) := by
  refine ⟨h.taken,?_⟩
  rw [h.vertices]
  refine List.nodup_append.mpr ⟨List.nodup_reverse.mpr h.nodup,by simp,?_⟩
  rintro x hx y hy rfl
  rw [List.mem_singleton.mp hy] at hx
  exact h.avoids (List.mem_reverse.mp hx)

theorem Trail.follow (h : Trail edges head target start visited path source) :
    Ends (Leads edges) head start target (follow edges head target visited path source) := by
  fun_induction Walk.follow edges head target visited path source with
  | case1 visited path => exact h.arrived
  | case2 visited path source _ hv => exact h.looped hv
  | case3 visited path source hne _ hnone => exact h.stuck hne hnone
  | case4 visited path source hne hv e he ih => exact ih (h.step hne hv he)

theorem follow_eq_iff {o : Outcome E} :
    follow edges head target [] [] start = o ↔
      Ends (Leads edges) head start target o := by
  have hends := Trail.follow (.init start : Trail edges head target start [] [] start)
  constructor
  · rintro rfl
    exact hends
  · exact hends.unique fun x e e' he he' => Option.some.inj (he.symm.trans he')

end Follow
end Flowy.Walk
