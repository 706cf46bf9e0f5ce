import Flowy.Store.Discovery

/-! Rebuilding the discovery index: pages of heads in the order of their names, each head in its own
transaction, and passes that go on after errors from the last head confirmed. -/
namespace Flowy.Postgres

def Collated (_ : Collation) : Type := Text

instance (c : Collation) : LinearOrder (Collated c) := c.order

def collate (c : Collation) (t : Text) : Collated c := t

/-- What can go wrong with one head besides its own error: the transaction is lost, or it commits and
the answer is lost. -/
inductive Fault
  | none
  | rolledBack (err : Err)
  | unacknowledged (err : Err)

structure DiscoveryRebuildPage where
  afterExecutionID : Text
  more : Bool
  processed : Nat
  diagnostics : List DiscoveryDiagnostic
deriving DecidableEq, Repr

def maxWaitScanHeads : Nat := 500

section Pages

variable [Sealing] (payloads : PayloadCodec) (c : Collation)

def headIDs (db : Database) : List Text :=
  Keyset.ordered (collate c)
    ((db.executions.entries.filter fun e => decide (e.2.revision > 0)).map fun e => e.1)

def discoveryRebuildIDs (db : Database) (afterID : Text) (limit : Nat) : List Text :=
  (Keyset.after (collate c) (headIDs c db) (some (collate c afterID))).take (limit + 1)

def rebuildHeads (faults : Text → Fault) : List Text → IndexedDatabase → DiscoveryRebuildPage →
    IndexedDatabase × DiscoveryRebuildPage × Option Err
  | [], d, page => (d,page,none)
  | id :: rest, d, page =>
    match faults id, d.rebuildDiscoveryHead payloads id with
    | .rolledBack err, _ => (d,{ page with more := true },some err)
    | _, .error err => (d,{ page with more := true },some err)
    | .unacknowledged err, .ok (d',_) => (d',{ page with more := true },some err)
    | .none, .ok (d',diagnostic) => rebuildHeads faults rest d' { page with
        diagnostics := page.diagnostics ++ diagnostic.toList
        processed := page.processed + 1
        afterExecutionID := id }

/-- `query` is the error of the listing, if it fails. -/
def rebuildDiscovery (query : Option Err) (faults : Text → Fault) (d : IndexedDatabase) (afterID : Text)
    (limit : Nat) : IndexedDatabase × DiscoveryRebuildPage × Option Err :=
  if limit = 0 ∨ limit > maxWaitScanHeads then (d,⟨[],false,0,[]⟩,some (.of .waitInvalid))
  else match query with
    | some err => (d,⟨[],false,0,[]⟩,some err)
    | none =>
      let ids := discoveryRebuildIDs c d.database afterID limit
      rebuildHeads payloads faults (ids.take limit) d ⟨afterID,decide (ids.length > limit),0,[]⟩

def confirmed (d : IndexedDatabase) (afterID : Text) (limit : Nat) (page : DiscoveryRebuildPage) : List Text :=
  (discoveryRebuildIDs c d.database afterID limit).take page.processed

/-- A pass from `afterID` on, page after page until `More` is false; after an error it goes on behind
the progress that was confirmed. `limits` has the limit of every call, and the list the heads in the
order they were confirmed. -/
inductive RebuildPass (limits : Nat → Nat) : Nat → IndexedDatabase → Text → List Text → IndexedDatabase → Prop
  | last {n : Nat} {d d' : IndexedDatabase} {afterID : Text} {page : DiscoveryRebuildPage}
      (faults : Text → Fault)
      (call : rebuildDiscovery payloads c none faults d afterID (limits n) = (d',page,none))
      (done : page.more = false) : RebuildPass limits n d afterID (confirmed c d afterID (limits n) page) d'
  | next {n : Nat} {d d' d'' : IndexedDatabase} {afterID : Text} {page : DiscoveryRebuildPage}
      {rest : List Text} (faults : Text → Fault)
      (call : rebuildDiscovery payloads c none faults d afterID (limits n) = (d',page,none))
      (more : page.more = true) (tail : RebuildPass limits (n + 1) d' page.afterExecutionID rest d'') :
      RebuildPass limits n d afterID (confirmed c d afterID (limits n) page ++ rest) d''
  | retry {n : Nat} {d d' d'' : IndexedDatabase} {afterID : Text} {page : DiscoveryRebuildPage}
      {rest : List Text} {err : Err} (faults : Text → Fault)
      (call : rebuildDiscovery payloads c none faults d afterID (limits n) = (d',page,some err))
      (tail : RebuildPass limits (n + 1) d' page.afterExecutionID rest d'') :
      RebuildPass limits n d afterID (confirmed c d afterID (limits n) page ++ rest) d''
  | again {n : Nat} {d d' d'' : IndexedDatabase} {afterID : Text} {page : DiscoveryRebuildPage}
      {rest : List Text} (err : Err) (faults : Text → Fault)
      (call : rebuildDiscovery payloads c (some err) faults d afterID (limits n) = (d',page,some err))
      (tail : RebuildPass limits (n + 1) d' afterID rest d'') : RebuildPass limits n d afterID rest d''

end Pages

section Heads

variable {c : Collation} {db : Database} {id : Text}

theorem mem_headIDs : id ∈ headIDs c db ↔ ∃ row, db.executions.get? id = some row ∧ row.revision > 0 := by
  simp only [headIDs,Keyset.mem_ordered,List.mem_map,List.mem_filter,decide_eq_true_eq]
  constructor
  · rintro ⟨⟨id,row⟩,⟨hmem,hrev⟩,rfl⟩
    exact ⟨row,(GoMap.mem_entries_iff _ _ _).mp hmem,hrev⟩
  · rintro ⟨row,hrow,hrev⟩
    exact ⟨⟨id,row⟩,⟨(GoMap.mem_entries_iff _ _ _).mpr hrow,hrev⟩,rfl⟩

theorem headIDs_pairwise (c : Collation) (db : Database) :
    (headIDs c db).Pairwise fun a b => collate c a < collate c b := by
  refine Keyset.ordered_pairwise _ ?_
  have hkeys : (db.executions.entries.map fun e => e.1).Nodup := db.executions.nodupKeys
  have hsub : ((db.executions.entries.filter fun e => decide (e.2.revision > 0)).map fun e => e.1).Nodup :=
    hkeys.sublist (List.filter_sublist.map _)
  exact hsub.map fun _ _ h => h

end Heads

section Exact

variable [Sealing] {payloads : PayloadCodec} {c : Collation} {checks : PayloadChecks}
  {bytes : SealedEnvelope → Nat} {d d' : IndexedDatabase} {id : Text}

/-- The index agrees with the heads: rows for those that load, and no others. -/
def Consistent (payloads : PayloadCodec) (d : IndexedDatabase) : Prop :=
  ∀ id, Rebuilt payloads d.database d.discovery id

def SameRows (d d' : IndexedDatabase) : Prop := ∀ k, d'.discovery.rows.get? k = d.discovery.rows.get? k

omit [Sealing] in
theorem RowsOf.unique {ix ix' : Discovery} {cs : List DueCandidate} (h : RowsOf ix id cs)
    (h' : RowsOf ix' id cs) {k : CandidateKey} (hk : k.1 = id) : ix'.rows.get? k = ix.rows.get? k :=
  Option.ext fun r => (h' k r hk).trans (h k r hk).symm

theorem Rebuilt.unique {db : Database} {ix ix' : Discovery} (h : Rebuilt payloads db ix id)
    (h' : Rebuilt payloads db ix' id) {k : CandidateKey} (hk : k.1 = id) :
    ix'.rows.get? k = ix.rows.get? k := by
  cases h with
  | loaded load candidates rows =>
    cases h' with
    | loaded load' candidates' rows' =>
      rw [load] at load'
      cases load'
      rw [candidates] at candidates'
      cases candidates'
      exact rows.unique rows' hk
    | setAside load' => rw [load] at load'; cases load'
  | setAside load rows =>
    cases h' with
    | loaded load' => rw [load] at load'; cases load'
    | setAside load' rows' => exact rows.unique rows' hk

theorem Rebuilt.exists_rows {db : Database} {ix : Discovery} (h : Rebuilt payloads db ix id) :
    ∃ cs, RowsOf ix id cs := by
  cases h with
  | loaded load candidates rows => exact ⟨_,rows⟩
  | setAside load rows => exact ⟨_,rows⟩

theorem Consistent.of_sameRows (h : Consistent payloads d) (hdb : d'.database = d.database)
    (hrows : SameRows d d') : Consistent payloads d' := by
  intro id
  have hof : ∀ cs, RowsOf d.discovery id cs → RowsOf d'.discovery id cs := fun cs hcs k r hk => by
    rw [hrows k]
    exact hcs k r hk
  rw [hdb]
  cases h id with
  | loaded load candidates rows => exact .loaded load candidates (hof _ rows)
  | setAside load rows => exact .setAside load (hof _ rows)

structure RebuildKeeps (checks : PayloadChecks) (payloads : PayloadCodec) (bytes : SealedEnvelope → Nat)
    (d d' : IndexedDatabase) : Prop where
  database : d'.database = d.database
  run : IndexedRun checks payloads bytes d'
  rows : Consistent payloads d → SameRows d d'

theorem RebuildKeeps.refl (h : IndexedRun checks payloads bytes d) : RebuildKeeps checks payloads bytes d d :=
  ⟨rfl,h,fun _ _ => rfl⟩

theorem RebuildKeeps.trans {d'' : IndexedDatabase} (h : RebuildKeeps checks payloads bytes d d')
    (h' : RebuildKeeps checks payloads bytes d' d'') : RebuildKeeps checks payloads bytes d d'' :=
  ⟨h'.database.trans h.database,h'.run,fun hc k =>
    (h'.rows (hc.of_sameRows h.database (h.rows hc)) k).trans (h.rows hc k)⟩

theorem rebuildDiscoveryHead_keeps (h : IndexedRun checks payloads bytes d) {row : ExecutionRow}
    (hrow : d.database.executions.get? id = some row) :
    ∃ d' diagnostic, d.rebuildDiscoveryHead payloads id = .ok (d',diagnostic) ∧
      RebuildKeeps checks payloads bytes d d' := by
  obtain ⟨ix,diagnostic,hok,hothers,hrebuilt⟩ := rebuildDiscoveryHead_spec h.kept (h.mirrors id) hrow
  refine ⟨_,diagnostic,hok,rfl,h.rebuild hok,fun hc k => ?_⟩
  by_cases hk : k.1 = id
  · exact (hc id).unique hrebuilt hk
  · obtain ⟨cs,hcs⟩ := (hc k.1).exists_rows
    exact hcs.unique (hothers k.1 hk cs hcs) rfl

structure PageDone (checks : PayloadChecks) (payloads : PayloadCodec) (bytes : SealedEnvelope → Nat)
    (ids : List Text) (d : IndexedDatabase) (page : DiscoveryRebuildPage)
    (r : IndexedDatabase × DiscoveryRebuildPage × Option Err) (done rest : List Text) : Prop where
  split : ids = done ++ rest
  processed : r.2.1.processed = page.processed + done.length
  position : r.2.1.afterExecutionID = done.getLast?.getD page.afterExecutionID
  keeps : RebuildKeeps checks payloads bytes d r.1
  finished : r.2.2 = none → rest = [] ∧ r.2.1.more = page.more

theorem rebuildHeads_done (faults : Text → Fault) (ids : List Text) (page : DiscoveryRebuildPage)
    (h : IndexedRun checks payloads bytes d)
    (hids : ∀ id ∈ ids, ∃ row, d.database.executions.get? id = some row) :
    ∃ done rest, PageDone checks payloads bytes ids d page (rebuildHeads payloads faults ids d page) done
      rest := by
  induction ids generalizing d page with
  | nil => exact ⟨[],[],rfl,rfl,rfl,.refl h,fun _ => ⟨rfl,rfl⟩⟩
  | cons id rest ih =>
    obtain ⟨row,hrow⟩ := hids id List.mem_cons_self
    obtain ⟨d',diagnostic,hok,hkeeps⟩ := rebuildDiscoveryHead_keeps h hrow
    unfold rebuildHeads
    cases hf : faults id with
    | rolledBack err => exact ⟨[],id :: rest,rfl,rfl,rfl,.refl h,fun hn => (nomatch hn)⟩
    | unacknowledged err =>
      simp only [hok]
      exact ⟨[],id :: rest,rfl,rfl,rfl,hkeeps,fun hn => (nomatch hn)⟩
    | none =>
      simp only [hok]
      have hids' : ∀ id ∈ rest, ∃ row, d'.database.executions.get? id = some row := by
        intro id' hid'
        rw [hkeeps.database]
        exact hids id' (List.mem_cons_of_mem _ hid')
      obtain ⟨done,left,hdone⟩ := ih { page with
        diagnostics := page.diagnostics ++ diagnostic.toList
        processed := page.processed + 1
        afterExecutionID := id } hkeeps.run hids'
      refine ⟨id :: done,left,by rw [hdone.split]; rfl,?_,?_,hkeeps.trans hdone.keeps,hdone.finished⟩
      · rw [hdone.processed,List.length_cons,Nat.add_right_comm,Nat.add_assoc]
      · rw [hdone.position,List.getLast?_cons]
        rfl

theorem rebuildHeads_completes (ids : List Text) (page : DiscoveryRebuildPage)
    (h : IndexedRun checks payloads bytes d)
    (hids : ∀ id ∈ ids, ∃ row, d.database.executions.get? id = some row) :
    (rebuildHeads payloads (fun _ => .none) ids d page).2.2 = none := by
  induction ids generalizing d page with
  | nil => rfl
  | cons id rest ih =>
    obtain ⟨row,hrow⟩ := hids id List.mem_cons_self
    obtain ⟨d',diagnostic,hok,hkeeps⟩ := rebuildDiscoveryHead_keeps h hrow
    simp only [rebuildHeads,hok]
    refine ih _ hkeeps.run fun id' hid' => ?_
    rw [hkeeps.database]
    exact hids id' (List.mem_cons_of_mem _ hid')

def remaining (c : Collation) (db : Database) (afterID : Text) : List Text :=
  Keyset.after (collate c) (headIDs c db) (some (collate c afterID))

omit [Sealing] in
theorem mem_of_remaining {db : Database} {afterID : Text} (h : id ∈ remaining c db afterID) :
    ∃ row, db.executions.get? id = some row := by
  obtain ⟨row,hrow,-⟩ := mem_headIDs.mp (List.mem_filter.mp h).1
  exact ⟨row,hrow⟩

omit [Sealing] in
theorem remaining_position {db : Database} {afterID : Text} {done rest : List Text}
    (h : remaining c db afterID = done ++ rest) : remaining c db (done.getLast?.getD afterID) = rest := by
  have hpos : Keyset.position (collate c) done (some (collate c afterID)) =
      some (collate c (done.getLast?.getD afterID)) := by
    cases hlast : done.getLast? with
    | none => simp [Keyset.position,hlast]
    | some id => simp [Keyset.position,hlast]
  have hafter := Keyset.after_position (headIDs_pairwise c db) h
  rwa [hpos] at hafter

structure Confirms (c : Collation) (d : IndexedDatabase) (afterID : Text) (limit : Nat)
    (page : DiscoveryRebuildPage) (err : Option Err) : Prop where
  split : remaining c d.database afterID =
    confirmed c d afterID limit page ++ remaining c d.database page.afterExecutionID
  last : err = none → page.more = false → remaining c d.database page.afterExecutionID = []
  progress : err = none → page.more = true → confirmed c d afterID limit page ≠ []

theorem rebuildDiscovery_confirms {faults : Text → Fault} {afterID : Text} {limit : Nat}
    (hlimit : limit ≠ 0 ∧ limit ≤ maxWaitScanHeads) (h : IndexedRun checks payloads bytes d)
    {page : DiscoveryRebuildPage} {err : Option Err}
    (hcall : rebuildDiscovery payloads c none faults d afterID limit = (d',page,err)) :
    RebuildKeeps checks payloads bytes d d' ∧ Confirms c d afterID limit page err := by
  have hvalid : ¬ (limit = 0 ∨ limit > maxWaitScanHeads) := by omega
  simp only [rebuildDiscovery,if_neg hvalid] at hcall
  have hids : discoveryRebuildIDs c d.database afterID limit =
      (remaining c d.database afterID).take (limit + 1) := rfl
  rw [hids,Keyset.take_succ_take] at hcall
  have hrows : ∀ id ∈ (remaining c d.database afterID).take limit,
      ∃ row, d.database.executions.get? id = some row :=
    fun id hid => mem_of_remaining (List.mem_of_mem_take hid)
  obtain ⟨done,rest,hdone⟩ := rebuildHeads_done faults _ ⟨afterID,
    decide (((remaining c d.database afterID).take (limit + 1)).length > limit),0,[]⟩ h hrows
  rw [hcall] at hdone
  have hprocessed : page.processed = done.length := hdone.processed.trans (Nat.zero_add _)
  have hsplit : remaining c d.database afterID =
      done ++ (rest ++ (remaining c d.database afterID).drop limit) := by
    rw [← List.append_assoc,← hdone.split,List.take_append_drop]
  have hlength : done.length ≤ limit := by
    have := congrArg List.length hdone.split
    rw [List.length_take,List.length_append] at this
    omega
  have hconfirmed : confirmed c d afterID limit page = done := by
    rw [confirmed,hids,hprocessed,List.take_take,Nat.min_eq_left (by omega),hsplit,List.take_left]
  have hposition : remaining c d.database page.afterExecutionID =
      rest ++ (remaining c d.database afterID).drop limit := by
    rw [show page.afterExecutionID = done.getLast?.getD afterID from hdone.position]
    exact remaining_position hsplit
  refine ⟨hdone.keeps,⟨?_,?_,?_⟩⟩
  · rw [hconfirmed,hposition]
    exact hsplit
  · intro herr hmore
    obtain ⟨hrest,hmore'⟩ := hdone.finished herr
    have hnot : ¬ limit < ((remaining c d.database afterID).take (limit + 1)).length := by
      simpa [hmore] using hmore'
    rw [hposition,hrest,Keyset.drop_eq_nil_of_not_more hnot]
    rfl
  · intro herr hmore hnil
    obtain ⟨hrest,hmore'⟩ := hdone.finished herr
    have hfull : limit < ((remaining c d.database afterID).take (limit + 1)).length := by
      simpa [hmore] using hmore'
    have hempty : ((remaining c d.database afterID).take limit).length = 0 := by
      rw [hdone.split,hrest,← hconfirmed,hnil]
      rfl
    rw [List.length_take] at hfull hempty
    omega

variable {limits : Nat → Nat}

theorem RebuildPass.exact (hlimits : ∀ n, limits n ≠ 0 ∧ limits n ≤ maxWaitScanHeads) {n : Nat}
    {afterID : Text} {heads : List Text} (h : RebuildPass payloads c limits n d afterID heads d')
    (hrun : IndexedRun checks payloads bytes d) :
    heads = remaining c d.database afterID ∧ RebuildKeeps checks payloads bytes d d' := by
  induction h with
  | last faults call done =>
    obtain ⟨hkeeps,hconfirms⟩ := rebuildDiscovery_confirms (hlimits _) hrun call
    refine ⟨?_,hkeeps⟩
    rw [hconfirms.split,hconfirms.last rfl done,List.append_nil]
  | next faults call more tail ih =>
    obtain ⟨hkeeps,hconfirms⟩ := rebuildDiscovery_confirms (hlimits _) hrun call
    obtain ⟨hrest,hkeeps'⟩ := ih hkeeps.run
    refine ⟨?_,hkeeps.trans hkeeps'⟩
    rw [hconfirms.split,hrest,hkeeps.database]
  | retry faults call tail ih =>
    obtain ⟨hkeeps,hconfirms⟩ := rebuildDiscovery_confirms (hlimits _) hrun call
    obtain ⟨hrest,hkeeps'⟩ := ih hkeeps.run
    refine ⟨?_,hkeeps.trans hkeeps'⟩
    rw [hconfirms.split,hrest,hkeeps.database]
  | again err faults call tail ih =>
    -- a listing that fails has touched nothing
    have hsame : _ = _ := call
    simp only [rebuildDiscovery] at hsame
    split at hsame
    · cases hsame
      exact ih hrun
    · cases hsame
      exact ih hrun

theorem RebuildPass.exists (hlimits : ∀ n, limits n ≠ 0 ∧ limits n ≤ maxWaitScanHeads) (n : Nat)
    (afterID : Text) (hrun : IndexedRun checks payloads bytes d) :
    ∃ heads d', RebuildPass payloads c limits n d afterID heads d' := by
  -- every page that leaves something behind confirms at least one head
  induction hsize : (remaining c d.database afterID).length using Nat.strong_induction_on
    generalizing n d afterID with
  | _ size ih =>
    rcases hcall : rebuildDiscovery payloads c none (fun _ => .none) d afterID (limits n) with ⟨d',page,err⟩
    have herr : err = none := by
      have hvalid : ¬ (limits n = 0 ∨ limits n > maxWaitScanHeads) := by
        have := hlimits n
        omega
      have hdone : (rebuildHeads payloads (fun _ => .none)
          ((discoveryRebuildIDs c d.database afterID (limits n)).take (limits n)) d
          ⟨afterID,decide ((discoveryRebuildIDs c d.database afterID (limits n)).length > limits n),0,[]⟩).2.2 =
            none :=
        rebuildHeads_completes _ _ hrun fun id hid =>
          mem_of_remaining (List.mem_of_mem_take (List.mem_of_mem_take hid))
      simp only [rebuildDiscovery,if_neg hvalid] at hcall
      rw [hcall] at hdone
      exact hdone
    subst herr
    obtain ⟨hkeeps,hconfirms⟩ := rebuildDiscovery_confirms (hlimits n) hrun hcall
    cases hmore : page.more with
    | false => exact ⟨_,d',.last _ hcall hmore⟩
    | true =>
      have hless : (remaining c d'.database page.afterExecutionID).length < size := by
        have hpos := List.length_pos_iff.mpr (hconfirms.progress rfl hmore)
        have hlength := congrArg List.length hconfirms.split
        rw [List.length_append] at hlength
        rw [hkeeps.database]
        omega
      obtain ⟨rest,d'',htail⟩ := ih _ hless (n + 1) page.afterExecutionID hkeeps.run rfl
      exact ⟨_,d'',.next _ hcall hmore htail⟩

theorem remaining_nil (hrun : IndexedRun checks payloads bytes d) :
    remaining c d.database [] = headIDs c d.database := by
  refine List.filter_eq_self.mpr fun id hid => ?_
  obtain ⟨row,hrow,hrev⟩ := mem_headIDs.mp hid
  have hne : id ≠ [] := by
    refine hrun.named ?_
    rw [headOf_row hrow]
    exact Nat.ne_of_gt hrev
  exact decide_eq_true (c.nil_lt id hne)

structure MirrorsHeads (checks : PayloadChecks) (payloads : PayloadCodec) (bytes : SealedEnvelope → Nat)
    (c : Collation) : Prop where
  /-- The rows of a head that loads are exactly its candidates, at its revision. -/
  candidates : ∀ d, IndexedRun checks payloads bytes d → ∀ id x, loadExecution d.database id = .ok x →
    ∃ cs, executionCandidates payloads x = .ok cs ∧ RowsOf d.discovery id cs ∧
      ∀ r ∈ cs, r.revision = x.envelope.revision
  /-- A deleted execution has no rows. -/
  deleted : ∀ d, IndexedRun checks payloads bytes d → ∀ id row, d.database.executions.get? id = some row →
    row.payloadDeleted = true → RowsOf d.discovery id []
  /-- A full pass confirms every written head exactly once; it leaves the heads, and a consistent
  index, as they were. -/
  pass : ∀ d, IndexedRun checks payloads bytes d → ∀ limits : Nat → Nat,
    (∀ n, limits n ≠ 0 ∧ limits n ≤ maxWaitScanHeads) →
    ∀ heads d', RebuildPass payloads c limits 0 d [] heads d' →
      heads.Nodup ∧ (∀ id, id ∈ heads ↔ (headOf d.database id).1 ≠ 0) ∧ d'.database = d.database ∧
        IndexedRun checks payloads bytes d' ∧ (Consistent payloads d → SameRows d d')
  /-- Whatever the limits, a pass without faults ends. -/
  ends : ∀ d, IndexedRun checks payloads bytes d → ∀ limits : Nat → Nat,
    (∀ n, limits n ≠ 0 ∧ limits n ≤ maxWaitScanHeads) →
    ∃ heads d', RebuildPass payloads c limits 0 d [] heads d'

theorem discovery_mirrors_heads (checks : PayloadChecks) (payloads : PayloadCodec)
    (bytes : SealedEnvelope → Nat) (c : Collation) : MirrorsHeads checks payloads bytes c where
  candidates d hrun id x hload := by
    obtain ⟨cs,hcs,hrows⟩ := hrun.loaded_rows hload
    exact ⟨cs,hcs,hrows,fun r hr => (executionCandidates_address hcs hr).2⟩
  deleted d hrun id row hrow hdeleted := hrun.deleted_rows hrow hdeleted
  pass d hrun limits hlimits heads d' hpass := by
    obtain ⟨hheads,hkeeps⟩ := hpass.exact hlimits hrun
    rw [remaining_nil hrun] at hheads
    subst hheads
    refine ⟨?_,fun id => ?_,hkeeps.database,hkeeps.run,hkeeps.rows⟩
    · refine (headIDs_pairwise c d.database).imp (S := fun a b => a ≠ b) ?_
      rintro a b hlt rfl
      exact lt_irrefl _ hlt
    · rw [mem_headIDs,headOf]
      cases hrow : d.database.executions.get? id with
      | none => simp
      | some row => simp [Nat.pos_iff_ne_zero]
  ends d hrun limits hlimits := RebuildPass.exists hlimits 0 [] hrun

end Exact
end Flowy.Postgres
