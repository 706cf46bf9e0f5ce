import Flowy.Lib.Walk
import Flowy.Seal

/-! Migrations registered by the host: the chain from a stored descriptor to the runner's own, and
the envelope that the chain makes of its source. -/
namespace Flowy

open Walk

/-- A transformation between two descriptors; a missing function is `none`. -/
structure ExecutionMigration where
  id : Text
  source : ExecutionDescriptor
  target : ExecutionDescriptor
  transform : Option (ExecutionProgress → Result ExecutionProgress)
  effectsTransform : Option (Bytes → Result Bytes)

section Chain

structure MigrationIndex where
  edges : GoMap ExecutionDescriptor ExecutionMigration
  ids : GoMap Text Bool

def MigrationIndex.add (index : MigrationIndex) (migration : ExecutionMigration) : MigrationIndex :=
  ⟨index.edges.set migration.source migration,index.ids.set migration.id true⟩

def registerMigration (index : MigrationIndex) (migration : ExecutionMigration) : Result MigrationIndex := do
  require (!(migration.id == [] || !validRuntimeText [migration.id] ||
    (index.ids.get? migration.id).getD false || migration.transform.isNone)) .migrationInvalid
  require (migration.source.validate.isOk && migration.target.validate.isOk) .migrationInvalid
  require (index.edges.get? migration.source).isNone .migrationInvalid
  .ok (index.add migration)

def migrationResult : Outcome ExecutionMigration → Result (List ExecutionMigration)
  | .arrived chain => .ok chain
  | .stuck => fail .migrationMissing
  | .looped => fail .migrationInvalid

/-- The walk over the registered edges; every entry is checked before the first step. -/
def executionMigrationChain (source target : ExecutionDescriptor) (registry : List ExecutionMigration) :
    Result (List ExecutionMigration) := do
  let index ← registry.foldlM registerMigration ⟨∅,∅⟩
  migrationResult (follow index.edges ExecutionMigration.target target [] [] source)

structure ExecutionMigration.WellFormed (migration : ExecutionMigration) : Prop where
  named : migration.id ≠ []
  text : validRuntimeText [migration.id] = true
  transforms : migration.transform ≠ none
  source : migration.source.validate = .ok ()
  target : migration.target.validate = .ok ()

structure WellFormedRegistry (registry : List ExecutionMigration) : Prop where
  entries : ∀ m ∈ registry, m.WellFormed
  ids : (registry.map ExecutionMigration.id).Nodup
  sources : (registry.map ExecutionMigration.source).Nodup

def RegisteredEdge (registry : List ExecutionMigration) (source : ExecutionDescriptor)
    (migration : ExecutionMigration) : Prop :=
  migration ∈ registry ∧ migration.source = source

def MigrationPath (registry : List ExecutionMigration) : ExecutionDescriptor → List ExecutionMigration →
    ExecutionDescriptor → Prop :=
  Path (RegisteredEdge registry) ExecutionMigration.target

def passedDescriptors (source : ExecutionDescriptor) (chain : List ExecutionMigration) :
    List ExecutionDescriptor :=
  source :: chain.map ExecutionMigration.target

structure IndexFits (index : MigrationIndex) (registry : List ExecutionMigration) : Prop
    extends WellFormedRegistry registry where
  freshIDs : ∀ m ∈ registry, index.ids.get? m.id ≠ some true
  freshSources : ∀ m ∈ registry, index.edges.get? m.source = none

variable {index index' : MigrationIndex} {registry registry' : List ExecutionMigration}
  {migration : ExecutionMigration} {source target : ExecutionDescriptor} {chain : List ExecutionMigration}

theorem registerMigration_eq_ok :
    registerMigration index migration = .ok index' ↔ migration.WellFormed ∧
      index.ids.get? migration.id ≠ some true ∧ index.edges.get? migration.source = none ∧
      index' = index.add migration := by
  have hget : ∀ o : Option Bool, o.getD false = false ↔ o ≠ some true := by decide
  simp only [registerMigration,bind_eq_ok,require_eq_ok,exists_const,Bool.not_eq_true',
    Bool.or_eq_false_iff,Bool.and_eq_true,isOk_iff,Option.isNone_iff_eq_none,Except.ok.injEq,hget,
    beq_eq_false_iff_ne,Bool.not_eq_false',Option.isNone_eq_false_iff,Option.isSome_iff_ne_none]
  constructor
  · rintro ⟨⟨⟨⟨hid,htext⟩,hfresh⟩,htr⟩,⟨hs,ht⟩,hedge,rfl⟩
    exact ⟨⟨hid,htext,htr,hs,ht⟩,hfresh,hedge,rfl⟩
  · rintro ⟨⟨hid,htext,htr,hs,ht⟩,hfresh,hedge,rfl⟩
    exact ⟨⟨⟨⟨hid,htext⟩,hfresh⟩,htr⟩,⟨hs,ht⟩,hedge,rfl⟩

theorem indexFits_cons : IndexFits index (migration :: registry) ↔ migration.WellFormed ∧
    index.ids.get? migration.id ≠ some true ∧ index.edges.get? migration.source = none ∧
    IndexFits (index.add migration) registry := by
  have hfresh : ∀ m : ExecutionMigration,
      ((index.add migration).ids.get? m.id ≠ some true ↔
        m.id ≠ migration.id ∧ index.ids.get? m.id ≠ some true) ∧
      ((index.add migration).edges.get? m.source = none ↔
        m.source ≠ migration.source ∧ index.edges.get? m.source = none) := by
    intro m
    constructor
    · by_cases h : m.id = migration.id <;> simp [MigrationIndex.add,GoMap.get?_set,h]
    · by_cases h : m.source = migration.source <;> simp [MigrationIndex.add,GoMap.get?_set,h]
  constructor
  · rintro ⟨⟨hall,hids,hsources⟩,hfi,hfs⟩
    simp only [List.map_cons,List.nodup_cons,List.mem_map,not_exists,not_and] at hids hsources
    refine ⟨hall _ List.mem_cons_self,hfi _ List.mem_cons_self,hfs _ List.mem_cons_self,
      ⟨fun m hm => hall m (List.mem_cons_of_mem _ hm),hids.2,hsources.2⟩,?_,?_⟩
    · exact fun m hm => (hfresh m).1.mpr ⟨hids.1 m hm,hfi m (List.mem_cons_of_mem _ hm)⟩
    · exact fun m hm => (hfresh m).2.mpr ⟨hsources.1 m hm,hfs m (List.mem_cons_of_mem _ hm)⟩
  · rintro ⟨hm,hid,hs,⟨hall,hids,hsources⟩,hfi,hfs⟩
    refine ⟨⟨List.forall_mem_cons.mpr ⟨hm,hall⟩,?_,?_⟩,List.forall_mem_cons.mpr ⟨hid,fun m hm => ?_⟩,
      List.forall_mem_cons.mpr ⟨hs,fun m hm => ?_⟩⟩
    · simp only [List.map_cons,List.nodup_cons,List.mem_map,not_exists,not_and]
      exact ⟨fun m hm => ((hfresh m).1.mp (hfi m hm)).1,hids⟩
    · simp only [List.map_cons,List.nodup_cons,List.mem_map,not_exists,not_and]
      exact ⟨fun m hm => ((hfresh m).2.mp (hfs m hm)).1,hsources⟩
    · exact ((hfresh m).1.mp (hfi m hm)).2
    · exact ((hfresh m).2.mp (hfs m hm)).2

theorem registerMigrations_eq_ok : registry.foldlM registerMigration index = .ok index' ↔
    IndexFits index registry ∧ index' = registry.foldl MigrationIndex.add index := by
  induction registry generalizing index with
  | nil =>
    simp only [List.foldlM_nil,List.foldl_nil]
    constructor
    · intro h
      cases h
      exact ⟨⟨⟨by simp,by simp,by simp⟩,by simp,by simp⟩,rfl⟩
    · rintro ⟨-,rfl⟩
      rfl
  | cons m registry ih =>
    simp only [List.foldlM_cons,bind_eq_ok,registerMigration_eq_ok,indexFits_cons,List.foldl_cons]
    constructor
    · rintro ⟨next,⟨hm,hid,hs,rfl⟩,hrest⟩
      obtain ⟨hfits,rfl⟩ := ih.mp hrest
      exact ⟨⟨hm,hid,hs,hfits⟩,rfl⟩
    · rintro ⟨⟨hm,hid,hs,hfits⟩,rfl⟩
      exact ⟨_,⟨hm,hid,hs,rfl⟩,ih.mpr ⟨hfits,rfl⟩⟩

theorem registerMigration_error {err : Err} (h : registerMigration index migration = .error err) :
    err = .of .migrationInvalid := by
  simp only [registerMigration,require_bind,fail] at h
  split_ifs at h <;> cases h <;> rfl

theorem registerMigrations_error {err : Err}
    (h : registry.foldlM registerMigration index = .error err) : err = .of .migrationInvalid := by
  induction registry generalizing index with
  | nil => cases h
  | cons m registry ih =>
    rw [List.foldlM_cons] at h
    cases hm : registerMigration index m with
    | ok next =>
      rw [hm] at h
      exact ih h
    | error err' =>
      rw [hm] at h
      cases h
      exact registerMigration_error hm

theorem indexFits_empty : IndexFits ⟨∅,∅⟩ registry ↔ WellFormedRegistry registry :=
  ⟨fun h => h.toWellFormedRegistry,fun h => ⟨h,by simp,by simp⟩⟩

theorem get?_foldl_add (hsources : (registry.map ExecutionMigration.source).Nodup)
    (hfresh : ∀ m ∈ registry, index.edges.get? m.source = none) :
    (registry.foldl MigrationIndex.add index).edges.get? source = some migration ↔
      index.edges.get? source = some migration ∨ RegisteredEdge registry source migration := by
  induction registry generalizing index with
  | nil => simp [RegisteredEdge]
  | cons m registry ih =>
    simp only [List.map_cons,List.nodup_cons,List.mem_map,not_exists,not_and] at hsources
    rw [List.foldl_cons,ih hsources.2]
    · by_cases hs : source = m.source
      · subst hs
        simp only [MigrationIndex.add,GoMap.get?_set_self,Option.some.injEq,RegisteredEdge,List.mem_cons,
          hfresh m List.mem_cons_self,reduceCtorEq,false_or]
        constructor
        · rintro (rfl | ⟨hm,hs⟩)
          · exact ⟨.inl rfl,rfl⟩
          · exact ⟨.inr hm,hs⟩
        · rintro ⟨rfl | hm,hs⟩
          · exact .inl rfl
          · exact .inr ⟨hm,hs⟩
      · simp only [MigrationIndex.add,GoMap.get?_set_of_ne _ _ hs,RegisteredEdge,List.mem_cons]
        refine or_congr Iff.rfl ⟨fun h => ⟨.inr h.1,h.2⟩,?_⟩
        rintro ⟨rfl | hm,rfl⟩
        · exact absurd rfl hs
        · exact ⟨hm,rfl⟩
    · intro m' hm'
      rw [MigrationIndex.add,GoMap.get?_set_of_ne _ _ (hsources.1 m' hm')]
      exact hfresh m' (List.mem_cons_of_mem _ hm')

theorem WellFormedRegistry.leads (h : WellFormedRegistry registry) :
    Leads (registry.foldl MigrationIndex.add ⟨∅,∅⟩).edges = RegisteredEdge registry := by
  funext source migration
  rw [Leads,get?_foldl_add h.sources (by simp)]
  simp

theorem WellFormedRegistry.edge_unique (h : WellFormedRegistry registry) (d : ExecutionDescriptor)
    (m m' : ExecutionMigration) (hm : RegisteredEdge registry d m) (hm' : RegisteredEdge registry d m') :
    m = m' :=
  List.inj_on_of_nodup_map h.sources hm.1 hm'.1 (hm.2.trans hm'.2.symm)

theorem migrationResult_injective : Function.Injective migrationResult := by
  intro o o' h
  cases o <;> cases o' <;> simp [migrationResult,fail,Err.of] at h ⊢
  exact h

theorem WellFormedRegistry.chain_eq_iff (h : WellFormedRegistry registry) {o : Outcome ExecutionMigration} :
    executionMigrationChain source target registry = migrationResult o ↔
      Ends (RegisteredEdge registry) ExecutionMigration.target source target o := by
  rw [executionMigrationChain,registerMigrations_eq_ok.mpr ⟨indexFits_empty.mpr h,rfl⟩,← h.leads,
    ← follow_eq_iff]
  exact migrationResult_injective.eq_iff

theorem executionMigrationChain_illFormed (h : ¬WellFormedRegistry registry) :
    executionMigrationChain source target registry = fail .migrationInvalid := by
  rw [executionMigrationChain]
  cases hr : registry.foldlM registerMigration ⟨∅,∅⟩ with
  | error err =>
    rw [registerMigrations_error hr]
    rfl
  | ok index => exact absurd (indexFits_empty.mp (registerMigrations_eq_ok.mp hr).1) h

theorem executionMigrationChain_cases (source target : ExecutionDescriptor)
    (registry : List ExecutionMigration) :
    ∃ o, executionMigrationChain source target registry = migrationResult o := by
  by_cases h : WellFormedRegistry registry
  · exact ⟨_,h.chain_eq_iff.mpr (h.leads ▸ follow_eq_iff.mp rfl)⟩
  · exact ⟨.looped,executionMigrationChain_illFormed h⟩

theorem WellFormedRegistry.perm (h : WellFormedRegistry registry) (hp : registry.Perm registry') :
    WellFormedRegistry registry' :=
  ⟨fun m hm => h.entries m (hp.mem_iff.mpr hm),(hp.map _).nodup_iff.mp h.ids,
    (hp.map _).nodup_iff.mp h.sources⟩

theorem registeredEdge_perm (hp : registry.Perm registry') :
    RegisteredEdge registry' = RegisteredEdge registry := by
  funext source migration
  simp only [RegisteredEdge,hp.mem_iff]

theorem executionMigrationChain_perm (source target : ExecutionDescriptor)
    (hp : registry.Perm registry') :
    executionMigrationChain source target registry' = executionMigrationChain source target registry := by
  by_cases h : WellFormedRegistry registry
  · obtain ⟨o,ho⟩ := executionMigrationChain_cases source target registry
    have hends := h.chain_eq_iff.mp ho
    rw [ho,(h.perm hp).chain_eq_iff,registeredEdge_perm hp]
    exact hends
  · have h' : ¬WellFormedRegistry registry' := fun h' => h (h'.perm hp.symm)
    rw [executionMigrationChain_illFormed h,executionMigrationChain_illFormed h']

theorem executionMigrationChain_eq_ok :
    executionMigrationChain source target registry = .ok chain ↔ WellFormedRegistry registry ∧
      MigrationPath registry source chain target ∧ (passedDescriptors source chain).Nodup := by
  by_cases h : WellFormedRegistry registry
  · rw [and_iff_right h]
    exact h.chain_eq_iff (o := .arrived chain)
  · simp [h,executionMigrationChain_illFormed h,fail]

theorem executionMigrationChain_eq_missing :
    executionMigrationChain source target registry = fail .migrationMissing ↔
      WellFormedRegistry registry ∧ (∀ chain, ¬MigrationPath registry source chain target) ∧
        ∃ chain last, MigrationPath registry source chain last ∧ ∀ m ∈ registry, m.source ≠ last := by
  by_cases h : WellFormedRegistry registry
  · rw [and_iff_right h]
    refine (h.chain_eq_iff (o := .stuck)).trans ?_
    simp only [Ends,MigrationPath,RegisteredEdge,not_and]
  · simp [h,executionMigrationChain_illFormed h,fail,Err.of]

theorem executionMigrationChain_isOk :
    (∃ chain, executionMigrationChain source target registry = .ok chain) ↔
      WellFormedRegistry registry ∧ ∃ chain, MigrationPath registry source chain target := by
  constructor
  · rintro ⟨chain,h⟩
    obtain ⟨hreg,hpath,-⟩ := executionMigrationChain_eq_ok.mp h
    exact ⟨hreg,chain,hpath⟩
  · rintro ⟨hreg,chain,hpath⟩
    obtain ⟨o,ho⟩ := executionMigrationChain_cases source target registry
    have hends := hreg.chain_eq_iff.mp ho
    cases o with
    | arrived chain => exact ⟨chain,ho⟩
    | stuck => exact absurd hpath (hends.1 chain)
    | looped => exact absurd hpath (hends.1 chain)

theorem MigrationPath.nil_iff (h : MigrationPath registry source chain target)
    (hn : (passedDescriptors source chain).Nodup) : chain = [] ↔ source = target := by
  cases h with
  | nil => simp
  | cons first rest =>
    refine iff_of_false (by simp) fun heq => ?_
    subst heq
    exact (List.nodup_cons.mp hn).1 rest.target_mem

/-- Chain resolution decides reachability in the graph of a well-formed registry. The chain is the
one path that passes no descriptor twice; a walk that runs into a descriptor without an edge is a
missing chain, a walk that comes back to where it was is an invalid one, and so is any registry that
is not well formed. The order of the registry does not matter. -/
theorem migration_chain_exact (source target : ExecutionDescriptor) (registry : List ExecutionMigration) :
    (∀ chain, executionMigrationChain source target registry = .ok chain ↔
      WellFormedRegistry registry ∧ MigrationPath registry source chain target ∧
        (passedDescriptors source chain).Nodup) ∧
    ((∃ chain, executionMigrationChain source target registry = .ok chain) ↔
      WellFormedRegistry registry ∧ ∃ chain, MigrationPath registry source chain target) ∧
    (WellFormedRegistry registry → ∀ chain chain', MigrationPath registry source chain target →
      MigrationPath registry source chain' target → (passedDescriptors source chain).Nodup →
      (passedDescriptors source chain').Nodup → chain = chain') ∧
    (∀ chain, executionMigrationChain source target registry = .ok chain → (chain = [] ↔ source = target)) ∧
    (executionMigrationChain source target registry = fail .migrationMissing ↔
      WellFormedRegistry registry ∧ (∀ chain, ¬MigrationPath registry source chain target) ∧
        ∃ chain last, MigrationPath registry source chain last ∧ ∀ m ∈ registry, m.source ≠ last) ∧
    (executionMigrationChain source target registry = fail .migrationInvalid ↔
      ¬(∃ chain, executionMigrationChain source target registry = .ok chain) ∧
      executionMigrationChain source target registry ≠ fail .migrationMissing) ∧
    ∀ registry', registry.Perm registry' →
      executionMigrationChain source target registry' = executionMigrationChain source target registry := by
  refine ⟨fun chain => executionMigrationChain_eq_ok,executionMigrationChain_isOk,?_,?_,
    executionMigrationChain_eq_missing,?_,fun registry' hp => executionMigrationChain_perm source target hp⟩
  · intro h chain chain' hc hc' hn hn'
    exact hc.unique h.edge_unique hc' hn hn'
  · intro chain h
    obtain ⟨-,hpath,hn⟩ := executionMigrationChain_eq_ok.mp h
    exact hpath.nil_iff hn
  · obtain ⟨o,ho⟩ := executionMigrationChain_cases source target registry
    rw [ho]
    cases o <;> simp [migrationResult,fail,Err.of]

def ExecutionDescriptor.sampleAt (revision : String) : ExecutionDescriptor :=
  { ExecutionDescriptor.sample with graphRevision := ascii revision }

def sampleMigration (id : Text) (source target : String) : ExecutionMigration :=
  ⟨id,.sampleAt source,.sampleAt target,some .ok,none⟩

theorem migration_chain_exact_two_steps :
    executionMigrationChain (.sampleAt "r1") (.sampleAt "r3")
      [sampleMigration (ascii "b") "r2" "r3",sampleMigration (ascii "a") "r1" "r2"] =
      .ok [sampleMigration (ascii "a") "r1" "r2",sampleMigration (ascii "b") "r2" "r3"] := by
  have hentry : ∀ id ∈ [ascii "a",ascii "b"], ∀ s ∈ ["r1","r2"], ∀ t ∈ ["r2","r3"],
      (sampleMigration id s t).WellFormed := by
    intro id hid s hs t ht
    have hids : id ≠ [] ∧ validRuntimeText [id] = true := by
      revert id
      decide
    have hs' : (ExecutionDescriptor.sampleAt s).validate = .ok () := by
      revert s
      decide
    have ht' : (ExecutionDescriptor.sampleAt t).validate = .ok () := by
      revert t
      decide
    exact ⟨hids.1,hids.2,by simp [sampleMigration],hs',ht'⟩
  refine ((migration_chain_exact _ _ _).1 _).mpr ⟨⟨?_,by decide,by decide⟩,?_,by decide⟩
  · simp only [List.forall_mem_cons,List.not_mem_nil,false_imp_iff,implies_true,and_true]
    exact ⟨hentry _ (by simp) _ (by simp) _ (by simp),hentry _ (by simp) _ (by simp) _ (by simp)⟩
  · exact .cons ⟨by simp,rfl⟩ (.cons ⟨by simp,rfl⟩ (.nil _))

/-- An entry whose id is not UTF-8 makes the registry invalid, however well formed it is otherwise. -/
theorem ill_formed_migration_id_rejected :
    let m := sampleMigration [0xFF] "r1" "r2"
    m.id ≠ [] ∧ m.transform ≠ none ∧ m.source.validate = .ok () ∧ m.target.validate = .ok () ∧
      MigrationPath [m] m.source [m] m.target ∧ (passedDescriptors m.source [m]).Nodup ∧
      executionMigrationChain m.source m.target [m] = fail .migrationInvalid := by
  intro m
  refine ⟨by simp [m,sampleMigration],by simp [m,sampleMigration],by decide,by decide,?_,by decide,?_⟩
  · exact .cons ⟨by simp,rfl⟩ (.nil _)
  · refine executionMigrationChain_illFormed fun h => ?_
    have htext := (h.entries m (by simp)).text
    revert htext
    decide

end Chain
end Flowy
