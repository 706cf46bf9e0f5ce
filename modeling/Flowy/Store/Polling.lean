import Mathlib.Data.List.Lex
import Flowy.PayloadText
import Flowy.Store.Due

/-! Cycles of polls for due work: what they go through, what they return and that they end. -/
namespace Flowy.Postgres

/-- A cycle of calls that all succeed, from a cursor until nothing more is announced: the rows they went
through, what they found and what they reported. -/
inductive DueCycle {ω : Type} (call : DiscoveryCursor → Nat → Result (ScanPage ω))
    (visited : DiscoveryCursor → Nat → List DueCandidate) (limits : Nat → Nat) :
    Nat → DiscoveryCursor → List DueCandidate → List ω → List DiscoveryDiagnostic → Prop
  | last {n : Nat} {cursor : DiscoveryCursor} {page : ScanPage ω} (ok : call cursor (limits n) = .ok page)
      (done : page.more = false) :
      DueCycle call visited limits n cursor (visited cursor (limits n)) page.found page.diagnostics
  | next {n : Nat} {cursor : DiscoveryCursor} {page : ScanPage ω} {rows : List DueCandidate}
      {found : List ω} {diagnostics : List DiscoveryDiagnostic} (ok : call cursor (limits n) = .ok page)
      (more : page.more = true)
      (tail : DueCycle call visited limits (n + 1) page.cursor rows found diagnostics) :
      DueCycle call visited limits n cursor (visited cursor (limits n) ++ rows) (page.found ++ found)
        (page.diagnostics ++ diagnostics)

def ValidLimits (limits : Nat → Nat) : Prop := ∀ n, limits n ≠ 0 ∧ limits n ≤ maxWaitScanHeads

section Rows

variable [Sealing] {payloads : PayloadCodec} {c : Collation} {d : IndexedDatabase} {r : DueCandidate}

theorem Consistent.row (h : Consistent payloads d) {k : CandidateKey}
    (hr : d.discovery.rows.get? k = some r) : ∃ x cs, loadExecution d.database r.executionID = .ok x ∧
      executionCandidates payloads x = .ok cs ∧ r ∈ cs ∧ r.key = k := by
  cases h k.1 with
  | loaded load candidates rows =>
    obtain ⟨hmem,hkey⟩ := (rows k r rfl).mp hr
    have hid : r.executionID = k.1 := congrArg Prod.fst hkey
    exact ⟨_,_,by rw [hid]; exact load,candidates,hmem,hkey⟩
  | setAside load rows =>
    obtain ⟨hmem,-⟩ := (rows k r rfl).mp hr
    cases hmem

theorem Consistent.loaded (h : Consistent payloads d) {id : Text} {x : SealedEnvelope}
    (hload : loadExecution d.database id = .ok x) :
    ∃ cs, executionCandidates payloads x = .ok cs ∧ RowsOf d.discovery id cs := by
  cases h id with
  | loaded load candidates rows =>
    rw [hload] at load
    cases load
    exact ⟨_,candidates,rows⟩
  | setAside load rows =>
    rw [hload] at load
    cases load

theorem loadExecution_named {db : Database} {id : Text} {x : SealedEnvelope} (h : loadExecution db id = .ok x) :
    x.envelope.executionID = id := by
  unfold loadExecution at h
  split at h
  · cases h
  · obtain ⟨_,-,hloaded⟩ := loadAnchoredEnvelope_eq_ok h
    exact hloaded.named

def dueRows (c : Collation) (d : IndexedDatabase) (profile : WaitCapabilityProfile) (kind : CandidateKind)
    (now : Time) : List DueCandidate :=
  dueCandidates c d.discovery.rows (discoveryProfileDigest profile) kind.text now

theorem mem_dueRows {profile : WaitCapabilityProfile} {kind : CandidateKind} {now : Time} :
    r ∈ dueRows c d profile kind now ↔ (∃ k, d.discovery.rows.get? k = some r) ∧
      r.profileDigest = discoveryProfileDigest profile ∧ r.kind = kind ∧
      r.deadline.ns ≤ (truncateMicroseconds now).ns := by
  simp only [dueRows,dueCandidates,Keyset.mem_ordered,List.mem_filter,GoMap.mem_values_iff,
    Bool.and_eq_true,beq_iff_eq,decide_eq_true_eq]
  constructor
  · rintro ⟨hmem,⟨hdigest,hkind⟩,hdue⟩
    exact ⟨hmem,hdigest,CandidateKind.text_injective hkind,hdue⟩
  · rintro ⟨hmem,hdigest,rfl,hdue⟩
    exact ⟨hmem,⟨hdigest,rfl⟩,hdue⟩

theorem dueRows_pairwise (h : Consistent payloads d) (c : Collation) (profile : WaitCapabilityProfile)
    (kind : CandidateKind) (now : Time) :
    (dueRows c d profile kind now).Pairwise fun a b => a.dueKey c < b.dueKey c := by
  refine Keyset.ordered_pairwise _ ?_
  have hkeyed : ∀ k r, d.discovery.rows.get? k = some r → r.key = k := fun k r hr =>
    (h.row hr).elim fun _ ⟨_,_,_,_,hkey⟩ => hkey
  have hvalues : d.discovery.rows.values.Nodup := by
    refine List.Nodup.map_on ?_ d.discovery.rows.nodup_entries
    rintro ⟨k,r⟩ hr ⟨k',r'⟩ hr' (rfl : r = r')
    rw [GoMap.mem_entries_iff] at hr hr'
    rw [← hkeyed k r hr,← hkeyed k' r hr']
  refine List.Nodup.map_on ?_ (hvalues.filter _)
  intro r hr r' hr' hkey
  simp only [List.mem_filter,GoMap.mem_values_iff,Bool.and_eq_true,beq_iff_eq] at hr hr'
  obtain ⟨⟨k,hk⟩,⟨-,hkind⟩,-⟩ := hr
  obtain ⟨⟨k',hk'⟩,⟨-,hkind'⟩,-⟩ := hr'
  have hpair := Prod.mk.inj (toLex.injective hkey)
  have hnames := Prod.mk.inj (toLex.injective hpair.2)
  have hsame : k = k' := by
    rw [← hkeyed k r hk,← hkeyed k' r' hk']
    have hid : r.executionID = r'.executionID := hnames.1
    have hidentity : r.identity = r'.identity := hnames.2
    simp only [DueCandidate.key,hid,hidentity,CandidateKind.text_injective (hkind.trans hkind'.symm)]
  rw [hsame,hk'] at hk
  exact (Option.some.inj hk).symm

structure Readable {ω : Type} (payloads : PayloadCodec) (db : Database)
    (visit : SealedEnvelope → DueCandidate → Result ω) (reads : DueCandidate → ω → Prop)
    (r : DueCandidate) : Prop where
  named : r.executionID ≠ []
  identity : r.identity ≠ []
  micros : r.deadline.ns % 1000 = 0
  read : ∃ x item, validateDueCandidate payloads db r = .ok x ∧ visit x r = .ok item ∧ reads r item

end Rows

section Scanning

variable [Sealing] {payloads : PayloadCodec} {c : Collation} {s : ExecutionStore} {d : IndexedDatabase}
  {ω : Type} {visit : SealedEnvelope → DueCandidate → Result ω} {reads : DueCandidate → ω → Prop}
  {profile : WaitCapabilityProfile} {kind : CandidateKind} {now : Time}

theorem visitDueCandidates_reads {rows : List DueCandidate}
    (h : ∀ r ∈ rows, Readable payloads d.database visit reads r) (page : ScanPage ω) :
    ∃ items, List.Forall₂ reads rows items ∧
      visitDueCandidates payloads visit d.database rows page =
        .ok (rows.foldl ScanPage.advance { page with found := page.found ++ items }) := by
  induction rows generalizing page with
  | nil => exact ⟨[],.nil,by simp [visitDueCandidates]⟩
  | cons r rest ih =>
    obtain ⟨x,item,hvalid,hvisit,hreads⟩ := (h r List.mem_cons_self).read
    obtain ⟨items,hitems,hok⟩ := ih (fun r hr => h r (List.mem_cons_of_mem _ hr))
      (ScanPage.advance { page with found := page.found ++ [item] } r)
    refine ⟨item :: items,.cons hreads hitems,?_⟩
    simp only [visitDueCandidates,hvalid,hvisit,hok,List.foldl_cons]
    simp [ScanPage.advance]

def cursorAfter (profile : WaitCapabilityProfile) (kind : CandidateKind) (now : Time) :
    Option DueCandidate → DiscoveryCursor
  | none => .empty
  | some r => ⟨now,r.deadline,r.executionID,r.identity,discoveryProfileDigest profile,kind.text⟩

def positionAfter (profile : WaitCapabilityProfile) (kind : CandidateKind) (now : Time) :
    Option DueCandidate → DiscoveryCursor
  | none => ⟨now,.zero,[],[],discoveryProfileDigest profile,kind.text⟩
  | some r => cursorAfter profile kind now (some r)

theorem foldl_advance (rows : List DueCandidate) (page : ScanPage ω) {last : Option DueCandidate}
    (h : page.cursor = positionAfter profile kind now last) :
    rows.foldl ScanPage.advance page =
      { page with cursor := positionAfter profile kind now (rows.getLast?.or last) } := by
  induction rows generalizing page last with
  | nil =>
    rw [List.foldl_nil,List.getLast?_nil,Option.none_or,← h]
  | cons r rest ih =>
    have hnext : (page.advance r).cursor = positionAfter profile kind now (some r) := by
      simp only [ScanPage.advance,h]
      cases last <;> rfl
    rw [List.foldl_cons,ih (page.advance r) hnext,List.getLast?_cons]
    cases rest.getLast? <;> rfl

def dueAfter (c : Collation) (d : IndexedDatabase) (profile : WaitCapabilityProfile) (kind : CandidateKind)
    (now : Time) (last : Option DueCandidate) : List DueCandidate :=
  Keyset.after (DueCandidate.dueKey c) (dueRows c d profile kind now) (last.map (DueCandidate.dueKey c))

structure Pollable (payloads : PayloadCodec) (c : Collation) (d : IndexedDatabase)
    (profile : WaitCapabilityProfile) (kind : CandidateKind) (now : Time)
    (visit : SealedEnvelope → DueCandidate → Result ω) (reads : DueCandidate → ω → Prop) : Prop where
  cutoff : now.isZero = false
  ready : unready d = false
  rows : ∀ r ∈ dueRows c d profile kind now, Readable payloads d.database visit reads r
  ordered : (dueRows c d profile kind now).Pairwise fun a b => a.dueKey c < b.dueKey c
  dated : ∀ r ∈ dueRows c d profile kind now, r.deadline.isZero = false

theorem discoveryPosition_after (h : Pollable payloads c d profile kind now visit reads)
    (hs : s.waitProfile = some profile) {last : Option DueCandidate}
    (hlast : ∀ r ∈ last, r ∈ dueRows c d profile kind now) {limit : Nat}
    (hlimit : limit ≠ 0 ∧ limit ≤ maxWaitScanHeads) :
    s.discoveryPosition now (cursorAfter profile kind now last) limit kind =
      .ok (positionAfter profile kind now last) := by
  have hguard : (now.isZero || limit == 0 || decide (limit > maxWaitScanHeads)) = false := by
    simp [h.cutoff,hlimit.1,Nat.not_lt.mpr hlimit.2]
  simp only [ExecutionStore.discoveryPosition,hs,hguard,Bool.false_eq_true,if_false]
  cases last with
  | none => rfl
  | some r =>
    have hr := hlast r rfl
    have hread := h.rows r hr
    have hne : cursorAfter profile kind now (some r) ≠ .empty := fun heq =>
      hread.named (congrArg DiscoveryCursor.afterExecutionID heq)
    have hdue : r.deadline.after now = false := by
      have hle := (mem_dueRows.mp hr).2.2.2
      have := truncateMicroseconds_le now
      rw [← Bool.not_eq_true,Time.after,Time.before_iff]
      omega
    rw [if_neg hne]
    simp [cursorAfter,positionAfter,h.dated r hr,hread.named,hread.identity,hdue]

theorem readDueCandidates_after (h : Pollable payloads c d profile kind now visit reads)
    {last : Option DueCandidate} (hlast : ∀ r ∈ last, r ∈ dueRows c d profile kind now) (limit : Nat) :
    readDueCandidates c d (positionAfter profile kind now last) limit =
      .ok ((dueAfter c d profile kind now last).take (limit + 1)) := by
  simp only [readDueCandidates,h.ready,Bool.false_eq_true,if_false]
  cases last with
  | none => rfl
  | some r =>
    have hstart : dueSelection c (positionAfter profile kind now (some r)) = some (r.dueKey c) := by
      have hdated := h.dated r (hlast r rfl)
      have hmicros := truncateMicroseconds_of_dvd (h.rows r (hlast r rfl)).micros
      simp only [dueSelection,positionAfter,cursorAfter,hdated,Bool.false_eq_true,if_false,hmicros]
      rfl
    rw [hstart]
    rfl

theorem scanDueCandidates_after (h : Pollable payloads c d profile kind now visit reads)
    (hs : s.waitProfile = some profile) {last : Option DueCandidate}
    (hlast : ∀ r ∈ last, r ∈ dueRows c d profile kind now) {limit : Nat}
    (hlimit : limit ≠ 0 ∧ limit ≤ maxWaitScanHeads) :
    ∃ items, List.Forall₂ reads ((dueAfter c d profile kind now last).take limit) items ∧
      visitedRows c s d now kind (cursorAfter profile kind now last) limit =
        (dueAfter c d profile kind now last).take limit ∧
      scanDueCandidates payloads c s d now (cursorAfter profile kind now last) limit kind visit =
        .ok ⟨items,positionAfter profile kind now
          (((dueAfter c d profile kind now last).take limit).getLast?.or last),
          decide (limit < (dueAfter c d profile kind now last).length),[]⟩ := by
  have hmem : ∀ r ∈ (dueAfter c d profile kind now last).take limit, r ∈ dueRows c d profile kind now := by
    intro r hr
    have hr := List.mem_of_mem_take hr
    cases last with
    | none => exact hr
    | some l => exact List.mem_of_mem_filter hr
  have hmore : decide (((dueAfter c d profile kind now last).take (limit + 1)).length > limit) =
      decide (limit < (dueAfter c d profile kind now last).length) := by
    rw [List.length_take,decide_eq_decide]
    omega
  obtain ⟨items,hitems,hvisit⟩ := visitDueCandidates_reads (fun r hr => h.rows r (hmem r hr))
    (⟨[],positionAfter profile kind now last,
      decide (limit < (dueAfter c d profile kind now last).length),[]⟩ : ScanPage ω)
  have hposition := discoveryPosition_after h hs hlast hlimit
  have hread := readDueCandidates_after h hlast limit
  refine ⟨items,hitems,?_,?_⟩
  · simp only [visitedRows,hposition]
    change ((readDueCandidates c d (positionAfter profile kind now last) limit).toOption.getD []).take limit = _
    rw [hread]
    exact Keyset.take_succ_take _ limit
  · simp only [scanDueCandidates,hposition,bind_eq_ok,Except.ok.injEq,exists_eq_left',hread]
    rw [Keyset.take_succ_take,hmore,hvisit,foldl_advance _ _ rfl]
    simp

theorem cursor_next (h : Pollable payloads c d profile kind now visit reads) {last : Option DueCandidate}
    (hlast : ∀ r ∈ last, r ∈ dueRows c d profile kind now) {limit : Nat} (hlimit : limit ≠ 0)
    (hmore : limit < (dueAfter c d profile kind now last).length) :
    ∃ next ∈ dueRows c d profile kind now,
      ((dueAfter c d profile kind now last).take limit).getLast?.or last = some next ∧
      dueAfter c d profile kind now (some next) = (dueAfter c d profile kind now last).drop limit := by
  have hne : (dueAfter c d profile kind now last).take limit ≠ [] := by
    rw [← List.length_pos_iff,List.length_take]
    omega
  obtain ⟨next,hnext⟩ := Option.isSome_iff_exists.mp (List.getLast?_isSome.mpr hne)
  have hrest := Keyset.after_position h.ordered
    (List.take_append_drop limit (dueAfter c d profile kind now last)).symm
  have hmem := List.mem_of_mem_take (List.mem_of_getLast? hnext)
  refine ⟨next,?_,by rw [hnext]; rfl,?_⟩
  · cases last with
    | none => exact hmem
    | some l => exact List.mem_of_mem_filter hmem
  · rw [← hrest,Keyset.position,hnext]
    rfl

variable {limits : Nat → Nat}

theorem DueCycle.exact (h : Pollable payloads c d profile kind now visit reads)
    (hs : s.waitProfile = some profile) (hlimits : ValidLimits limits) {n : Nat} {cursor : DiscoveryCursor}
    {seen : List DueCandidate} {found : List ω} {diagnostics : List DiscoveryDiagnostic}
    (hcycle : DueCycle (fun cursor limit => scanDueCandidates payloads c s d now cursor limit kind visit)
      (visitedRows c s d now kind) limits n cursor seen found diagnostics) :
    ∀ last, (∀ r ∈ last, r ∈ dueRows c d profile kind now) → cursor = cursorAfter profile kind now last →
      seen = dueAfter c d profile kind now last ∧ diagnostics = [] ∧ List.Forall₂ reads seen found := by
  induction hcycle with
  | @last n cursor page ok done =>
    rintro last hlast rfl
    obtain ⟨items,hitems,hvisited,hok⟩ := scanDueCandidates_after h hs hlast (hlimits n)
    rw [hok] at ok
    cases ok
    have hall : (dueAfter c d profile kind now last).take (limits n) = dueAfter c d profile kind now last := by
      refine List.take_of_length_le (Nat.le_of_not_lt ?_)
      simpa using done
    rw [hvisited]
    exact ⟨hall,rfl,hitems⟩
  | @next n cursor page rows found diagnostics ok more tail ih =>
    rintro last hlast rfl
    obtain ⟨items,hitems,hvisited,hok⟩ := scanDueCandidates_after h hs hlast (hlimits n)
    rw [hok] at ok
    cases ok
    obtain ⟨next,hnext,hposition,hrest⟩ := cursor_next h hlast (hlimits n).1 (by simpa using more)
    obtain ⟨hseen,hdiagnostics,hreads⟩ := ih (some next) (by simpa using hnext) (by rw [hposition]; rfl)
    rw [hvisited]
    refine ⟨?_,by rw [hdiagnostics]; rfl,List.rel_append hitems hreads⟩
    rw [hseen,hrest,List.take_append_drop]

theorem DueCycle.exists (h : Pollable payloads c d profile kind now visit reads)
    (hs : s.waitProfile = some profile) (hlimits : ValidLimits limits) (n : Nat)
    (last : Option DueCandidate) (hlast : ∀ r ∈ last, r ∈ dueRows c d profile kind now) :
    ∃ seen found diagnostics,
      DueCycle (fun cursor limit => scanDueCandidates payloads c s d now cursor limit kind visit)
        (visitedRows c s d now kind) limits n (cursorAfter profile kind now last) seen found diagnostics := by
  -- a page that announces more has gone through at least one row
  induction hsize : (dueAfter c d profile kind now last).length using Nat.strong_induction_on
    generalizing n last with
  | _ size ih =>
    obtain ⟨items,-,-,hok⟩ := scanDueCandidates_after h hs hlast (hlimits n)
    by_cases hmore : limits n < (dueAfter c d profile kind now last).length
    · obtain ⟨next,hnext,hposition,hrest⟩ := cursor_next h hlast (hlimits n).1 hmore
      have hless : (dueAfter c d profile kind now (some next)).length < size := by
        have := (hlimits n).1
        rw [hrest,List.length_drop]
        omega
      obtain ⟨seen,found,diagnostics,htail⟩ := ih _ hless (n + 1) (some next) (by simpa using hnext) rfl
      rw [hposition] at hok
      exact ⟨_,_,_,.next hok (decide_eq_true hmore) htail⟩
    · exact ⟨_,_,_,.last hok (decide_eq_false hmore)⟩

end Scanning

section Work

variable [Sealing] {payloads : PayloadCodec} {c : Collation} {s : ExecutionStore} {d : IndexedDatabase}
  {profile : WaitCapabilityProfile} {now : Time} {r : DueCandidate} {x : SealedEnvelope}
  {cs : List DueCandidate}

inductive CandidateOf (payloads : PayloadCodec) (x : SealedEnvelope) (r : DueCandidate) : Prop
  | wait {profile : WaitCapabilityProfile} {ws : List DurableWaitRecord} {w : DurableWaitRecord}
      (bound : x.envelope.runtimeProfile = some profile)
      (inspected : inspectExecutionWaits payloads x = .ok ws) (mem : w ∈ ws) (armed : w.state = .armed)
      (eq : r = waitCandidate x.envelope profile w)
  | retry {profile : WaitCapabilityProfile} {ws : List DurableWaitRecord} {qs : List PendingActivityRetry}
      {q : PendingActivityRetry} (bound : x.envelope.runtimeProfile = some profile)
      (inspected : inspectExecutionWaits payloads x = .ok ws)
      (pending : inspectPendingActivityRetries payloads x = .ok qs) (mem : q ∈ qs)
      (eq : r = retryCandidate x.envelope profile q)

theorem executionCandidates_source (h : executionCandidates payloads x = .ok cs) (hr : r ∈ cs) :
    CandidateOf payloads x r := by
  unfold executionCandidates at h
  split at h
  · rename_i profile hterminal hprofile
    simp only [bind_eq_ok,Except.ok.injEq] at h
    obtain ⟨ws,hws,qs,hqs,rfl⟩ := h
    rcases List.mem_append.mp hr with hr | hr
    · obtain ⟨w,hw,rfl⟩ := List.mem_map.mp hr
      obtain ⟨hmem,hstate⟩ := List.mem_filter.mp hw
      exact .wait hprofile hws hmem (eq_of_beq hstate) rfl
    · obtain ⟨q,hq,rfl⟩ := List.mem_map.mp hr
      exact .retry hprofile hws hqs hq rfl
  · cases h
    cases hr

theorem executionCandidates_bound (hcs : executionCandidates payloads x = .ok cs)
    (hterminal : x.envelope.terminal = none) (hprofile : x.envelope.runtimeProfile = some profile) :
    ∃ ws qs, inspectExecutionWaits payloads x = .ok ws ∧ inspectPendingActivityRetries payloads x = .ok qs ∧
      cs = (ws.filter fun w => w.state == .armed).map (waitCandidate x.envelope profile) ++
        qs.map (retryCandidate x.envelope profile) := by
  simp only [executionCandidates,hterminal,hprofile,bind_eq_ok,Except.ok.injEq] at hcs
  obtain ⟨ws,hws,qs,hqs,rfl⟩ := hcs
  exact ⟨ws,qs,hws,hqs,rfl⟩

theorem validateDueCandidate_ok (hload : loadExecution d.database r.executionID = .ok x)
    (hcs : executionCandidates payloads x = .ok cs) (hr : r ∈ cs) (hrevised : x.envelope.revision ≠ 0)
    (hprofile : ∃ p, x.envelope.runtimeProfile = some p ∧ discoveryProfileDigest p = r.profileDigest) :
    validateDueCandidate payloads d.database r = .ok x := by
  obtain ⟨p,hbound,hdigest⟩ := hprofile
  have hrevision := (executionCandidates_address hcs hr).2
  have hexpected : (cs.any fun current => current.identity == r.identity && current.kind == r.kind &&
      current.deadline == r.deadline) = true := List.any_eq_true.mpr ⟨r,hr,by simp⟩
  rw [validateDueCandidate,if_neg (by rw [hrevision]; exact hrevised),hload]
  simp only [bind_eq_ok,Except.ok.injEq,exists_eq_left',hrevision,ne_eq,not_true_eq_false,if_false,hbound,
    Option.any_some,hdigest,beq_self_eq_true,Bool.not_true,Bool.false_eq_true]
  exact ⟨cs,by rw [hcs]; rfl,by simp [hexpected]⟩

def ReadsWait (payloads : PayloadCodec) (db : Database) (profile : WaitCapabilityProfile) (r : DueCandidate)
    (item : DueWait) : Prop :=
  ∃ x ws, loadExecution db r.executionID = .ok x ∧ x.envelope.runtimeProfile = some profile ∧
    inspectExecutionWaits payloads x = .ok ws ∧ item.wait ∈ ws ∧ item.wait.state = .armed ∧
    item.revision = x.envelope.revision ∧ r = waitCandidate x.envelope profile item.wait

def ReadsRetry (payloads : PayloadCodec) (db : Database) (profile : WaitCapabilityProfile) (r : DueCandidate)
    (item : PendingActivityRetry) : Prop :=
  ∃ x qs, loadExecution db r.executionID = .ok x ∧ x.envelope.runtimeProfile = some profile ∧
    inspectPendingActivityRetries payloads x = .ok qs ∧ item ∈ qs ∧
    r = retryCandidate x.envelope profile item

theorem visitWait_ok (hs : s.waitProfile = some profile) {ws : List DurableWaitRecord}
    {w : DurableWaitRecord} (hbound : x.envelope.runtimeProfile = some profile)
    (hws : inspectExecutionWaits payloads x = .ok ws) (hw : w ∈ ws) (harmed : w.state = .armed)
    (hdue : w.spec.deadline.ns ≤ now.ns) :
    s.visitWait payloads now x (waitCandidate x.envelope profile w) = .ok ⟨w,x.envelope.revision⟩ := by
  have hfacts := inspectExecutionWaits_facts hws
  have hwritten := hfacts.written (List.ne_nil_of_mem hw)
  let due := fun record : DurableWaitRecord => s.waitProfile == some record.profile &&
    record.state == .armed && !now.before record.spec.deadline
  have hdueW : due w = true := by
    have hbefore : now.before w.spec.deadline = false := by
      rw [← Bool.not_eq_true,Time.before_iff]
      omega
    simp [due,hs,hfacts.profile w hw profile hbound,harmed,hbefore]
  -- no other wait of the head has the same generation
  have hfind : ((ws.filter due).map fun record => (⟨record,x.envelope.revision⟩ : DueWait)).find?
      (fun item => item.wait.generation == w.generation) = some ⟨w,x.envelope.revision⟩ := by
    rw [List.find?_map,Option.map_eq_some_iff]
    cases hfound : (ws.filter due).find?
        ((fun item : DueWait => item.wait.generation == w.generation) ∘
          fun record => ⟨record,x.envelope.revision⟩) with
    | none =>
      have := List.find?_eq_none.mp hfound w (List.mem_filter.mpr ⟨hw,hdueW⟩)
      exact absurd (beq_self_eq_true _) this
    | some w' =>
      have hmem := (List.mem_filter.mp (List.mem_of_find?_eq_some hfound)).1
      have hbeq := List.find?_some hfound
      have hgen : w'.generation = w.generation := eq_of_beq hbeq
      exact ⟨w',rfl,by rw [hfacts.unique w' hmem w hw hgen]⟩
  have hcandidates : s.dueWaitCandidates payloads x now =
      .ok ((ws.filter due).map fun record => ⟨record,x.envelope.revision⟩) := by
    simp only [ExecutionStore.dueWaitCandidates,hwritten,Bool.false_eq_true,if_false,hws]
    rfl
  rw [ExecutionStore.visitWait,hcandidates]
  simp only [bind,Except.bind,waitCandidate]
  rw [hfind]

theorem visitRetry_ok {qs : List PendingActivityRetry} {q : PendingActivityRetry}
    (hqs : inspectPendingActivityRetries payloads x = .ok qs) (hq : q ∈ qs)
    (hdue : q.deadline.ns ≤ now.ns) :
    visitRetry payloads now x (retryCandidate x.envelope profile q) = .ok q := by
  have hfacts := inspectPendingActivityRetries_facts hqs
  have hbefore : now.before q.deadline = false := by
    rw [← Bool.not_eq_true,Time.before_iff]
    omega
  have hfind : qs.find? (fun r => r.identity == q.identity && !now.before r.deadline) = some q := by
    cases hfound : qs.find? fun r => r.identity == q.identity && !now.before r.deadline with
    | none =>
      have := List.find?_eq_none.mp hfound q hq
      simp [hbefore] at this
    | some q' =>
      have hsame := List.find?_some hfound
      simp only [Bool.and_eq_true,beq_iff_eq] at hsame
      rw [hfacts.unique q' (List.mem_of_find?_eq_some hfound) q hq hsame.1]
  rw [visitRetry,hqs]
  simp only [bind,Except.bind,retryCandidate]
  rw [hfind]

theorem wait_readable (h : Consistent payloads d) (hs : s.waitProfile = some profile)
    (hr : r ∈ dueRows c d profile .wait now) :
    Readable payloads d.database (s.visitWait payloads now) (ReadsWait payloads d.database profile) r := by
  obtain ⟨⟨k,hk⟩,hdigest,hkind,hdue⟩ := mem_dueRows.mp hr
  obtain ⟨x,cs,hload,hcs,hmem,-⟩ := h.row hk
  cases executionCandidates_source hcs hmem with
  | retry bound inspected pending mem eq =>
    rw [eq] at hkind
    cases hkind
  | @wait profile' ws w bound inspected mem armed eq =>
    have hfacts := inspectExecutionWaits_facts inspected
    have hsame : profile' = profile := by
      refine discoveryProfileDigest_injective (s.valid profile (by rw [hs]; rfl)) ?_
      rw [eq] at hdigest
      exact hdigest
    subst hsame
    subst eq
    refine ⟨hfacts.named,hfacts.generation w mem,(discoveryDeadline_spec _).2.2,x,
      ⟨w,x.envelope.revision⟩,?_,?_,?_⟩
    · exact validateDueCandidate_ok hload hcs hmem hfacts.revised ⟨_,bound,rfl⟩
    · exact visitWait_ok hs bound inspected mem armed (le_of_selected hdue)
    · exact ⟨x,ws,hload,bound,inspected,mem,armed,rfl,rfl⟩

theorem retry_readable (h : Consistent payloads d) (hs : s.waitProfile = some profile)
    (hr : r ∈ dueRows c d profile .retry now) :
    Readable payloads d.database (visitRetry payloads now) (ReadsRetry payloads d.database profile) r ∧
      r.deadline.isZero = false := by
  obtain ⟨⟨k,hk⟩,hdigest,hkind,hdue⟩ := mem_dueRows.mp hr
  obtain ⟨x,cs,hload,hcs,hmem,-⟩ := h.row hk
  cases executionCandidates_source hcs hmem with
  | wait bound inspected mem armed eq =>
    rw [eq] at hkind
    cases hkind
  | @retry profile' ws qs q bound inspected pending mem eq =>
    have hfacts := inspectExecutionWaits_facts inspected
    have hretries := inspectPendingActivityRetries_facts pending
    have hsame : profile' = profile := by
      refine discoveryProfileDigest_injective (s.valid profile (by rw [hs]; rfl)) ?_
      rw [eq] at hdigest
      exact hdigest
    subst hsame
    subst eq
    refine ⟨⟨hfacts.named,hretries.identity q mem,(discoveryDeadline_spec _).2.2,x,q,?_,?_,?_⟩,?_⟩
    · exact validateDueCandidate_ok hload hcs hmem hfacts.revised ⟨_,bound,rfl⟩
    · exact visitRetry_ok pending mem (le_of_selected hdue)
    · exact ⟨x,qs,hload,bound,pending,mem,rfl⟩
    · have hpos := hretries.deadline q mem
      have hle := (discoveryDeadline_spec q.deadline).1
      change ((discoveryDeadline q.deadline).ns == 0) = false
      rw [beq_eq_false_iff_ne]
      omega

end Work

section Cycles

variable {ω : Type}

/-- What polling for one kind of work does at a cutoff: it goes through `rows` one by one, reports
nothing, and returns pieces of work that are due, among them all that were due a microsecond before. -/
structure PollsExactly (call : DiscoveryCursor → Nat → Result (ScanPage ω))
    (visited : DiscoveryCursor → Nat → List DueCandidate) (rows : List DueCandidate)
    (reads : DueCandidate → ω → Prop) (work : ω → Prop) (deadline : ω → Time) (now : Time) : Prop where
  ends : ∀ limits, ValidLimits limits →
    ∃ seen found diagnostics, DueCycle call visited limits 0 .empty seen found diagnostics
  visits : ∀ limits, ValidLimits limits → ∀ seen found diagnostics,
    DueCycle call visited limits 0 .empty seen found diagnostics →
      seen = rows ∧ diagnostics = [] ∧ List.Forall₂ reads rows found
  due : ∀ limits, ValidLimits limits → ∀ seen found diagnostics,
    DueCycle call visited limits 0 .empty seen found diagnostics →
      ∀ item ∈ found, work item ∧ (deadline item).ns ≤ now.ns
  complete : ∀ limits, ValidLimits limits → ∀ seen found diagnostics,
    DueCycle call visited limits 0 .empty seen found diagnostics →
      ∀ item, work item → (deadline item).ns + 1000 ≤ now.ns → item ∈ found

variable [Sealing] {payloads : PayloadCodec} {c : Collation} {s : ExecutionStore} {d : IndexedDatabase}
  {profile : WaitCapabilityProfile} {kind : CandidateKind} {now : Time}
  {visit : SealedEnvelope → DueCandidate → Result ω} {reads : DueCandidate → ω → Prop} {work : ω → Prop}
  {deadline : ω → Time}

theorem Pollable.polls (h : Pollable payloads c d profile kind now visit reads)
    (hs : s.waitProfile = some profile)
    (hdue : ∀ r ∈ dueRows c d profile kind now, ∀ item, reads r item →
      work item ∧ (deadline item).ns ≤ now.ns)
    (hall : ∀ item, work item → (deadline item).ns + 1000 ≤ now.ns →
      ∃ r ∈ dueRows c d profile kind now, ∀ item', reads r item' → item' = item) :
    PollsExactly (fun cursor limit => scanDueCandidates payloads c s d now cursor limit kind visit)
      (visitedRows c s d now kind) (dueRows c d profile kind now) reads work deadline now := by
  have hvisits : ∀ limits, ValidLimits limits → ∀ seen found diagnostics,
      DueCycle (fun cursor limit => scanDueCandidates payloads c s d now cursor limit kind visit)
        (visitedRows c s d now kind) limits 0 .empty seen found diagnostics →
      seen = dueRows c d profile kind now ∧ diagnostics = [] ∧
        List.Forall₂ reads (dueRows c d profile kind now) found := by
    intro limits hlimits seen found diagnostics hcycle
    obtain ⟨hseen,hdiagnostics,hreads⟩ := hcycle.exact h hs hlimits none (by simp) rfl
    obtain rfl : seen = dueRows c d profile kind now := hseen
    exact ⟨rfl,hdiagnostics,hreads⟩
  refine ⟨fun limits hlimits => DueCycle.exists h hs hlimits 0 none (by simp),hvisits,?_,?_⟩
  · intro limits hlimits seen found diagnostics hcycle item hitem
    obtain ⟨r,hr,hread⟩ := forall₂_mem_right (hvisits limits hlimits seen found diagnostics hcycle).2.2 hitem
    exact hdue r hr item hread
  · intro limits hlimits seen found diagnostics hcycle item hwork hearly
    obtain ⟨r,hr,hunique⟩ := hall item hwork hearly
    obtain ⟨item',hitem',hread⟩ := forall₂_mem_left
      (hvisits limits hlimits seen found diagnostics hcycle).2.2 hr
    rw [← hunique item' hread]
    exact hitem'

end Cycles

section Main

variable [Sealing] {payloads : PayloadCodec} {c : Collation} {s : ExecutionStore} {d : IndexedDatabase}
  {profile : WaitCapabilityProfile} {now : Time}

def ArmedWait (payloads : PayloadCodec) (db : Database) (profile : WaitCapabilityProfile) (item : DueWait) :
    Prop :=
  ∃ id x ws, loadExecution db id = .ok x ∧ x.envelope.runtimeProfile = some profile ∧
    inspectExecutionWaits payloads x = .ok ws ∧ item.wait ∈ ws ∧ item.wait.state = .armed ∧
    item.revision = x.envelope.revision

def PendingRetry (payloads : PayloadCodec) (db : Database) (profile : WaitCapabilityProfile)
    (item : PendingActivityRetry) : Prop :=
  ∃ id x qs, loadExecution db id = .ok x ∧ x.envelope.runtimeProfile = some profile ∧
    inspectPendingActivityRetries payloads x = .ok qs ∧ item ∈ qs

structure ScansDueWork (payloads : PayloadCodec) (c : Collation) (s : ExecutionStore) (d : IndexedDatabase)
    (profile : WaitCapabilityProfile) (now : Time) : Prop where
  /-- The rows of a cycle are those of the profile and the kind that are due at the truncated cutoff. -/
  selected : ∀ kind r, r ∈ dueRows c d profile kind now ↔ (∃ k, d.discovery.rows.get? k = some r) ∧
    r.profileDigest = discoveryProfileDigest profile ∧ r.kind = kind ∧
    r.deadline.ns ≤ (truncateMicroseconds now).ns
  ordered : ∀ kind, (dueRows c d profile kind now).Pairwise fun a b => a.dueKey c < b.dueKey c
  waits : (∀ r ∈ dueRows c d profile .wait now, r.deadline ≠ .zero) →
    PollsExactly (discoverDueWaits payloads c s d now) (visitedRows c s d now .wait)
      (dueRows c d profile .wait now) (ReadsWait payloads d.database profile)
      (ArmedWait payloads d.database profile) (fun item => item.wait.spec.deadline) now
  retries : PollsExactly (discoverDueActivityRetries payloads c s d now) (visitedRows c s d now .retry)
    (dueRows c d profile .retry now) (ReadsRetry payloads d.database profile)
    (PendingRetry payloads d.database profile) (fun item => item.deadline) now

theorem armedWait_row (h : Consistent payloads d) {item : DueWait}
    (hwork : ArmedWait payloads d.database profile item)
    (hearly : item.wait.spec.deadline.ns + 1000 ≤ now.ns) :
    ∃ r ∈ dueRows c d profile .wait now, ∀ item', ReadsWait payloads d.database profile r item' →
      item' = item := by
  obtain ⟨id,x,ws,hload,hbound,hws,hmem,harmed,hrevision⟩ := hwork
  have hfacts := inspectExecutionWaits_facts hws
  obtain rfl := loadExecution_named hload
  obtain ⟨cs,hcs,hrows⟩ := h.loaded hload
  obtain ⟨ws',qs,hws',-,rfl⟩ := executionCandidates_bound hcs (hfacts.running _ hmem harmed) hbound
  rw [hws] at hws'
  cases hws'
  have hrow : waitCandidate x.envelope profile item.wait ∈
      (ws.filter fun w => w.state == .armed).map (waitCandidate x.envelope profile) ++
        qs.map (retryCandidate x.envelope profile) :=
    List.mem_append_left _ (List.mem_map_of_mem (List.mem_filter.mpr ⟨hmem,by simp [harmed]⟩))
  refine ⟨waitCandidate x.envelope profile item.wait,mem_dueRows.mpr
    ⟨⟨_,(hrows _ _ rfl).mpr ⟨hrow,rfl⟩⟩,rfl,rfl,selected_of_le hearly⟩,?_⟩
  rintro ⟨w',revision⟩ ⟨x',ws',hload',-,hws',hmem',-,hrevision',heq⟩
  have hsame : x' = x := Except.ok.inj (hload'.symm.trans hload)
  subst hsame
  rw [hws] at hws'
  cases hws'
  have hgen : item.wait.generation = w'.generation := congrArg DueCandidate.identity heq
  obtain ⟨w,revision'⟩ := item
  rw [DueWait.mk.injEq]
  exact ⟨(hfacts.unique _ hmem _ hmem' hgen).symm,hrevision'.trans hrevision.symm⟩

theorem pendingRetry_row (h : Consistent payloads d) {item : PendingActivityRetry}
    (hwork : PendingRetry payloads d.database profile item)
    (hearly : item.deadline.ns + 1000 ≤ now.ns) :
    ∃ r ∈ dueRows c d profile .retry now, ∀ item', ReadsRetry payloads d.database profile r item' →
      item' = item := by
  obtain ⟨id,x,qs,hload,hbound,hqs,hmem⟩ := hwork
  have hfacts := inspectPendingActivityRetries_facts hqs
  obtain rfl := loadExecution_named hload
  obtain ⟨cs,hcs,hrows⟩ := h.loaded hload
  obtain ⟨ws,qs',-,hqs',rfl⟩ := executionCandidates_bound hcs (hfacts.running (List.ne_nil_of_mem hmem)) hbound
  rw [hqs] at hqs'
  cases hqs'
  have hrow : retryCandidate x.envelope profile item ∈
      (ws.filter fun w => w.state == .armed).map (waitCandidate x.envelope profile) ++
        qs.map (retryCandidate x.envelope profile) :=
    List.mem_append_right _ (List.mem_map_of_mem hmem)
  refine ⟨retryCandidate x.envelope profile item,mem_dueRows.mpr
    ⟨⟨_,(hrows _ _ rfl).mpr ⟨hrow,rfl⟩⟩,rfl,rfl,selected_of_le hearly⟩,?_⟩
  rintro item' ⟨x',qs',hload',-,hqs',hmem',heq⟩
  have hsame : x' = x := Except.ok.inj (hload'.symm.trans hload)
  subst hsame
  rw [hqs] at hqs'
  cases hqs'
  exact (hfacts.unique _ hmem _ hmem' (congrArg DueCandidate.identity heq)).symm

theorem due_scanning_complete (h : Consistent payloads d) (hready : unready d = false)
    (hs : s.waitProfile = some profile) (hnow : now ≠ .zero) :
    ScansDueWork payloads c s d profile now where
  selected kind r := mem_dueRows
  ordered kind := dueRows_pairwise h c profile kind now
  waits hdated := by
    have hpoll : Pollable payloads c d profile .wait now (s.visitWait payloads now)
        (ReadsWait payloads d.database profile) :=
      ⟨by simpa [← Bool.not_eq_true,Time.isZero_iff] using hnow,hready,fun r hr => wait_readable h hs hr,
        dueRows_pairwise h c profile .wait now,
        fun r hr => by simpa [← Bool.not_eq_true,Time.isZero_iff] using hdated r hr⟩
    refine hpoll.polls hs ?_ fun item hwork hearly => armedWait_row h hwork hearly
    rintro r hr item ⟨x,ws,hload,hbound,hws,hmem,harmed,hrevision,rfl⟩
    exact ⟨⟨_,x,ws,hload,hbound,hws,hmem,harmed,hrevision⟩,le_of_selected (mem_dueRows.mp hr).2.2.2⟩
  retries := by
    have hpoll : Pollable payloads c d profile .retry now (visitRetry payloads now)
        (ReadsRetry payloads d.database profile) :=
      ⟨by simpa [← Bool.not_eq_true,Time.isZero_iff] using hnow,hready,
        fun r hr => (retry_readable h hs hr).1,dueRows_pairwise h c profile .retry now,
        fun r hr => (retry_readable h hs hr).2⟩
    refine hpoll.polls hs ?_ fun item hwork hearly => pendingRetry_row h hwork hearly
    rintro r hr item ⟨x,qs,hload,hbound,hqs,hmem,rfl⟩
    exact ⟨⟨_,x,qs,hload,hbound,hqs,hmem⟩,le_of_selected (mem_dueRows.mp hr).2.2.2⟩

theorem IndexedRun.consistent {checks : PayloadChecks} {bytes : SealedEnvelope → Nat}
    (h : IndexedRun checks payloads bytes d)
    (htext : (d.database.history.all fun _ x => RawEnvelope.wellFormedText x.envelope) = true) :
    Consistent payloads d := by
  intro id
  cases h.mirrors id with
  | unwritten head rows =>
    obtain ⟨err,hload,-⟩ := loadExecution_gone head (h.kept.unwritten id)
    exact .setAside hload rows
  | deleted head written named gone rows =>
    obtain ⟨err,hload,-⟩ := loadExecution_gone head gone
    exact .setAside hload rows
  | live head written document candidates distinct rows =>
    have hstable := stable_of_wellFormedText ((GoMap.all_iff _ _).mp htext _ _ document)
    have hload := loadExecution_live h.kept head document
    rw [if_pos hstable] at hload
    rcases rows with rows | ⟨hill,-⟩
    · exact .loaded hload (executionCandidates_reread ((h.kept _).documents _ _ document).1 hstable candidates)
        rows
    · rw [hstable] at hill
      cases hill

end Main

section Example

attribute [local instance] Sealing.hex

def byteOrder : Collation where
  order := LinearOrder.lift' (fun t : Text => t.map UInt8.toNat)
    (List.map_injective_iff.mpr fun _ _ => UInt8.toNat_inj.mp)
  nil_lt t ht := by
    cases t with
    | nil => exact absurd rfl ht
    | cons b t => exact List.nil_lt_cons _ _

def timerProfile : WaitCapabilityProfile :=
  ⟨ascii "p",ascii "j",ascii "l",ascii "t",ascii "c",ascii "r",ascii "o"⟩

def timerStore : ExecutionStore := ⟨some timerProfile,fun _ h => by cases h; rfl⟩

def timerWaits (id : Text) (deadline : Time) : Waits :=
  match planDurableWait id (ascii "n") 1 1 ⟨ascii "t",ascii "k",deadline,0,ascii "m",ascii "p",ascii "c",
      ascii "e",ascii "o",.firstCommitted⟩ timerProfile with
  | .ok wait => GoMap.set ∅ wait.identity wait
  | .error _ => ∅

def waitsOfA : Waits := timerWaits (ascii "a") ⟨-1⟩

def waitsOfB : Waits := timerWaits (ascii "b") ⟨1⟩

def timerPayloads : PayloadCodec := samplePayloads [] [waitsOfA,waitsOfB]

def timerOps (id : Text) : List StoreOp :=
  [.acquire id (ascii "w") 1000,.commit 0 ⟨id,ascii "w",1,⟨1001⟩⟩
    { rawStart id (some timerProfile) with
      waits := waitsText (if id = ascii "a" then waitsOfA else waitsOfB) }]

def timerDatabase (ids : List Text) : IndexedDatabase :=
  (ids.flatMap timerOps).foldl
    (fun d op => (d.step sampleChecks timerPayloads (fun _ => 0) sampleClock op).1) ⟨⟨∅,∅⟩,⟨∅,∅⟩⟩

theorem timerDatabase_run (ids : List Text) :
    IndexedRun sampleChecks timerPayloads (fun _ => 0) (timerDatabase ids) :=
  List.foldlRecOn _ _ .init fun _ h op _ => h.step sampleClock op

def healthy (d : IndexedDatabase) : Bool :=
  (d.database.history.all fun _ x => RawEnvelope.wellFormedText x.envelope) && !unready d

theorem timerDatabase_healthy {ids : List Text} (h : healthy (timerDatabase ids) = true) :
    Consistent timerPayloads (timerDatabase ids) ∧ unready (timerDatabase ids) = false := by
  simp only [healthy,Bool.and_eq_true,Bool.not_eq_true'] at h
  exact ⟨(timerDatabase_run ids).consistent h.1,h.2⟩

theorem due_scanning_complete_timer :
    ∃ seen found, DueCycle
      (discoverDueWaits timerPayloads byteOrder timerStore (timerDatabase [ascii "b"]) ⟨2000⟩)
      (visitedRows byteOrder timerStore (timerDatabase [ascii "b"]) ⟨2000⟩ .wait) (fun _ => 1) 0 .empty seen
      found [] ∧ seen.map (fun r => r.deadline) = [⟨1000⟩] ∧ found.length = 1 := by
  have heval : (healthy (timerDatabase [ascii "b"]) &&
      (dueRows byteOrder (timerDatabase [ascii "b"]) timerProfile .wait ⟨2000⟩).map (fun r => r.deadline) ==
        [⟨1000⟩]) = true := by decide +kernel
  simp only [Bool.and_eq_true,beq_iff_eq] at heval
  obtain ⟨hconsistent,hready⟩ := timerDatabase_healthy heval.1
  have hscan : ScansDueWork timerPayloads byteOrder timerStore (timerDatabase [ascii "b"]) timerProfile
      ⟨2000⟩ := due_scanning_complete hconsistent hready rfl (by decide)
  have hpoll := hscan.waits fun r hr hzero => by
    have hmem : r.deadline ∈ [(⟨1000⟩ : Time)] := by
      rw [← heval.2]
      exact List.mem_map_of_mem hr
    rw [hzero] at hmem
    simp [Time.zero] at hmem
  have hlimits : ValidLimits fun _ => 1 := fun _ => ⟨Nat.one_ne_zero,show 1 ≤ maxWaitScanHeads by decide⟩
  obtain ⟨seen,found,diagnostics,hcycle⟩ := hpoll.ends _ hlimits
  obtain ⟨hseen,hdiagnostics,hreads⟩ := hpoll.visits _ hlimits _ _ _ hcycle
  rw [hdiagnostics] at hcycle
  refine ⟨seen,found,hcycle,by rw [hseen]; exact heval.2,?_⟩
  rw [← hreads.length_eq,← List.length_map (fun r : DueCandidate => r.deadline),heval.2]
  rfl

/-- A wait whose deadline is the last nanosecond before year 1 is stored with the zero time, and a page
that ends at it cannot be continued. At the zero time nothing is polled at all. -/
theorem zero_deadline_stops_cycle :
    ∃ d, Consistent timerPayloads d ∧ unready d = false ∧
      (∃ page, discoverDueWaits timerPayloads byteOrder timerStore d ⟨5000⟩ .empty 1 = .ok page ∧
        page.more = true ∧
        discoverDueWaits timerPayloads byteOrder timerStore d ⟨5000⟩ page.cursor 1 =
          .error discoveryCursorInvalid) ∧
      discoverDueWaits timerPayloads byteOrder timerStore d .zero .empty 1 = fail .waitInvalid := by
  let d := timerDatabase [ascii "a",ascii "b"]
  have heval : ((discoverDueWaits timerPayloads byteOrder timerStore d ⟨5000⟩ .empty 1).toOption.any
      fun page => healthy d && page.more && (page.cursor != .empty && page.cursor.afterDeadline == .zero)) =
        true := by
    decide +kernel
  obtain ⟨page,hpage,hcursor⟩ := exists_of_toOption_any heval
  simp only [Bool.and_eq_true,beq_iff_eq,bne_iff_ne] at hcursor
  obtain ⟨⟨hhealthy,hmore⟩,hne,hzero⟩ := hcursor
  obtain ⟨hconsistent,hready⟩ := timerDatabase_healthy hhealthy
  refine ⟨d,hconsistent,hready,⟨page,hpage,hmore,?_⟩,rfl⟩
  have hposition : timerStore.discoveryPosition ⟨5000⟩ page.cursor 1 .wait = .error discoveryCursorInvalid := by
    simp [ExecutionStore.discoveryPosition,timerStore,Time.isZero,maxWaitScanHeads,hne,hzero,Time.zero]
  rw [discoverDueWaits,scanDueCandidates,hposition]
  rfl

end Example
end Flowy.Postgres
