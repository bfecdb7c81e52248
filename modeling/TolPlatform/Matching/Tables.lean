import Mathlib.Data.Int.ConditionallyCompleteOrder
import TolPlatform.Library.Grouping
import TolPlatform.Library.Table
import TolPlatform.Matching.Ranking
import TolPlatform.Passports.Tables

/-!
# The tables of matching

The rows that `apps/api/src/modules/matching/service.ts` reads and writes, and their repositories. Match
results are only ever added. What others maintain and matching reads is the `Market`: opportunities,
capacity profiles and the providers' passports.

`mem_listLatestByOpportunity` says which rows the listing returns, `listLatestByOpportunity_nodup` that
there is one for a capacity, and `listLatestByOpportunity_pairwise` in which order they come.
-/

namespace TolPlatform.Matching

/-! ### Rows -/

structure Opportunity where
  id : Uuid
  ownerOrgId : Uuid
  status : OpportunityStatus
  currency : String
  movable30dMinor : Int
  jurisdictions : List String
  mccs : List String
  version : ℕ
  deriving DecidableEq, Repr

inductive RecordStatus
  | active | retired
  deriving DecidableEq, Repr

structure CapacityProfile where
  id : Uuid
  providerOrgId : Uuid
  asOf : Instant
  acceptingNewVolume : Bool
  jurisdictions : List String
  mccsAccepted : List String
  mccsExcluded : List String
  currency : String
  monthlyCapacityMinor : Int
  minTicketMinor : Int
  maxTicketMinor : Int
  maxChargebackBps : Int
  maxFraudBps : Int
  maxRefundBps : Int
  settlementRail : String
  settlementCadenceDays : Int
  commercialTerms : Option MatchCommercialTerms
  createdAt : Instant
  status : RecordStatus
  version : ℕ
  sourceType : SourceType
  deriving DecidableEq, Repr

/-- What matching reads and does not write. -/
structure Market where
  opportunities : List Opportunity := []
  capacityProfiles : List CapacityProfile := []
  passports : Passports.Db := {}
  /-- The primary key. -/
  capacityProfiles_nodup : (capacityProfiles.map CapacityProfile.id).Nodup := by decide

structure MatchResult where
  id : Uuid
  opportunityId : Uuid
  capacityId : Uuid
  eligible : Bool
  eligibilityResults : List RuleResult
  ruleVersion : String
  rankingBreakdown : Option MatchRankingBreakdown
  rank : Option Int
  totalScore : Option ℚ
  algorithmVersion : Option String
  inputVersions : List String
  evaluatedAt : Instant
  deriving DecidableEq, Repr

structure Db where
  market : Market := {}
  matchResults : List MatchResult := []
  trails : Trails := {}

def matchResults : Table Db MatchResult Uuid where
  rows := Db.matchResults
  put l db := { db with matchResults := l }
  key := MatchResult.id

/-! ### Reading the market -/

namespace OpportunityRepository

def findById (market : Market) (id : Uuid) : Option Opportunity :=
  market.opportunities.find? (·.id = id)

end OpportunityRepository

namespace CapacityProfileRepository

def newestFirst (l : List CapacityProfile) : List CapacityProfile :=
  l.sortOn fun c ↦ OrderDual.toDual c.createdAt

def list (market : Market) (limit : ℕ := 100) : List CapacityProfile :=
  (newestFirst (market.capacityProfiles.filter (·.status = .active))).take limit

def listByProviderOrg (market : Market) (providerOrgId : Uuid) : List CapacityProfile :=
  newestFirst (market.capacityProfiles.filter fun c ↦
    c.providerOrgId = providerOrgId ∧ c.status = .active)

/-- A listing has a profile once. -/
theorem list_nodup (market : Market) (limit : ℕ) :
    ((list market limit).map CapacityProfile.id).Nodup := by
  have hactive := market.capacityProfiles_nodup.sublist
    ((List.filter_sublist (p := fun c : CapacityProfile ↦ c.status = .active)).map _)
  have hsorted := ((List.sortOn_perm (fun c : CapacityProfile ↦ OrderDual.toDual c.createdAt)
    _).map CapacityProfile.id).nodup_iff.2 hactive
  exact hsorted.sublist ((List.take_sublist limit _).map _)

end CapacityProfileRepository

/-! ### Match results -/

structure CreateMatchResultInput where
  opportunityId : Uuid
  capacityId : Uuid
  eligible : Bool
  eligibilityResults : List RuleResult
  ruleVersion : String
  rankingBreakdown : Option MatchRankingBreakdown := none
  rank : Option Int := none
  totalScore : Option ℚ := none
  algorithmVersion : Option String := none
  inputVersions : List String
  evaluatedAt : Instant
  deriving DecidableEq, Repr

/-- The guards of JSON columns: of a value and the name of its column. -/
structure JsonGuards where
  assertJsonSafeObjectArray : List RuleResult → String → Except Thrown Unit
  assertJsonSafePlainObject : MatchRankingBreakdown → String → Except Thrown Unit
  assertStringArray : List String → String → Except Thrown Unit

def matchResultInputError (message : String) : Thrown :=
  .inputError s!"invalid MatchResult input: {message}"

namespace CreateMatchResultInput

def hasRankingData (input : CreateMatchResultInput) : Bool :=
  input.rankingBreakdown.isSome || input.rank.isSome || input.totalScore.isSome ||
    input.algorithmVersion.isSome

def hasAllRankingData (input : CreateMatchResultInput) : Bool :=
  input.rankingBreakdown.isSome && input.rank.isSome && input.totalScore.isSome &&
    input.algorithmVersion.isSome

theorem rank_eq_none_of_hasRankingData {input : CreateMatchResultInput}
    (h : input.hasRankingData = false) : input.rank = none := by
  simp only [hasRankingData, Bool.or_eq_false_iff, Option.isSome_eq_false_iff,
    Option.isNone_iff_eq_none] at h
  exact h.1.1.2

def toRow (input : CreateMatchResultInput) (id : Uuid) : MatchResult :=
  { input with id }

end CreateMatchResultInput

namespace MatchResultRepository

def guardBreakdown (guards : JsonGuards) (input : CreateMatchResultInput) : Except Thrown Unit :=
  match input.rankingBreakdown.filter fun _ ↦ input.eligible with
  | none => .ok ()
  | some breakdown =>
    guards.assertJsonSafePlainObject breakdown "MatchResult.rankingBreakdown"

/-- Ranking data is there exactly when the capacity is eligible. -/
def create (guards : JsonGuards) (id : Uuid) (input : CreateMatchResultInput) :
    Tx Db Thrown MatchResult := do
  Tx.check (guards.assertJsonSafeObjectArray input.eligibilityResults
    "MatchResult.eligibilityResults")
  Tx.check (guards.assertStringArray input.inputVersions "MatchResult.inputVersions")
  Tx.check (throwIf (input.eligible = false ∧ input.hasRankingData) (matchResultInputError "ranking fields (rankingBreakdown/rank/totalScore/algorithmVersion) must be null/omitted when eligible is false — the spec's own 'eligibility runs first' invariant, enforced at the repository boundary"))
  Tx.check (throwIf (input.eligible ∧ ¬ input.hasAllRankingData) (matchResultInputError "rankingBreakdown/rank/totalScore/algorithmVersion must ALL be present when eligible is true — the spec's own invariant, enforced at the repository boundary, cuts both ways"))
  Tx.check (guardBreakdown guards input)
  matchResults.insert .uniqueViolation (input.toRow id)

/-- The latest `evaluatedAt` of each capacity, of the rows of one opportunity. -/
def latestTimestamps (rows : List MatchResult) : List (Uuid × Instant) :=
  (rows.groupedBy MatchResult.capacityId).filterMap fun group ↦
    (group.2.map MatchResult.evaluatedAt).max?.map (group.1, ·)

/-- The comparator. Of two rows without a rank the difference of the ranks is `∞ - ∞`, which is not a
number: it is not `0`, so the ids are not consulted, and the sort takes it for `0`. -/
def compareListed (a b : MatchResult) : Ordering :=
  if a.eligible ≠ b.eligible then if a.eligible then .lt else .gt
  else
    match a.rank, b.rank with
    | none, none => .eq
    | none, some _ => .gt
    | some _, none => .lt
    | some r, some s => if r ≠ s then compare r s else compare a.capacityId b.capacityId

/-- `ORDER BY evaluatedAt DESC, id ASC`. -/
def storedOrder (r : MatchResult) : Lex (Instantᵒᵈ × Uuid) := toLex (.toDual r.evaluatedAt, r.id)

/-- The rows of the latest evaluation of their capacity. -/
def latestRows (db : Db) (opportunityId : Uuid) : List MatchResult :=
  let stored := db.matchResults.filter (·.opportunityId = opportunityId)
  stored.filter fun r ↦ (r.capacityId, r.evaluatedAt) ∈ latestTimestamps stored

def listLatestByOpportunity (db : Db) (opportunityId : Uuid) : List MatchResult :=
  let rows := (latestRows db opportunityId).sortOn storedOrder
  (rows.firstBy MatchResult.capacityId).sortBy compareListed

/-! ### What is created -/

section

variable {guards : JsonGuards} {id : Uuid} {input : CreateMatchResultInput} {db db' : Db}
  {row : MatchResult}

/-- A row that is created has ranking data exactly when it is eligible. -/
theorem create_eq_ok (h : create guards id input db = .ok (row, db')) :
    row = input.toRow id ∧ id ∉ matchResults.keys db ∧
      db' = matchResults.put (db.matchResults ++ [row]) db ∧
      (input.eligible = true → input.hasAllRankingData = true) ∧
      (input.eligible = false → input.hasRankingData = false) := by
  obtain ⟨-, -, h⟩ := Tx.check_bind_eq_ok.1 h
  obtain ⟨-, -, h⟩ := Tx.check_bind_eq_ok.1 h
  obtain ⟨_, hineligible, h⟩ := Tx.check_bind_eq_ok.1 h
  obtain ⟨_, heligible, h⟩ := Tx.check_bind_eq_ok.1 h
  obtain ⟨-, -, h⟩ := Tx.check_bind_eq_ok.1 h
  obtain ⟨hfresh, rfl, rfl⟩ := Table.insert_eq_ok_iff.1 h
  have hall : input.eligible = true → input.hasAllRankingData = true := by
    simpa using throwIf_eq_ok_iff.1 heligible
  have hnone : input.eligible = false → input.hasRankingData = false := by
    simpa using throwIf_eq_ok_iff.1 hineligible
  exact ⟨rfl, hfresh, rfl, hall, hnone⟩

end

/-! ### Which rows are listed -/

section

variable {rows : List MatchResult} {row : MatchResult}

theorem mem_latestTimestamps (hrow : row ∈ rows) :
    (row.capacityId, row.evaluatedAt) ∈ latestTimestamps rows ↔
      ∀ r ∈ rows, r.capacityId = row.capacityId → r.evaluatedAt ≤ row.evaluatedAt := by
  rw [latestTimestamps, List.mem_filterMap]
  have hgroup : row ∈ rows.filter fun r ↦ r.capacityId = row.capacityId :=
    List.mem_filter.2 ⟨hrow, decide_eq_true rfl⟩
  constructor
  · rintro ⟨⟨capacityId, group⟩, hmem, hmax⟩ r hr hcapacity
    obtain ⟨latest, hlatest, heq⟩ := Option.map_eq_some_iff.1 hmax
    obtain ⟨rfl, rfl⟩ := Prod.mk.inj heq
    obtain ⟨rfl, -⟩ := List.mem_groupedBy_iff.1 hmem
    exact (List.max?_eq_some_iff.1 hlatest).2 _
      (List.mem_map_of_mem (List.mem_filter.2 ⟨hr, decide_eq_true hcapacity⟩))
  · intro hlatest
    refine ⟨(row.capacityId, rows.filter fun r ↦ r.capacityId = row.capacityId),
      List.mem_groupedBy_iff.2 ⟨rfl, List.ne_nil_of_mem hgroup⟩,
      Option.map_eq_some_iff.2 ⟨row.evaluatedAt, List.max?_eq_some_iff.2 ⟨?_, ?_⟩, rfl⟩⟩
    · exact List.mem_map_of_mem hgroup
    · intro t ht
      obtain ⟨r, hr, rfl⟩ := List.mem_map.1 ht
      obtain ⟨hr, hcapacity⟩ := List.mem_filter.1 hr
      exact hlatest r hr (of_decide_eq_true hcapacity)

variable {db : Db} {opportunityId : Uuid}

/-- `row` is the one to list for its capacity: no row of it is later, and of those as late none has a
smaller id. -/
def IsLatest (db : Db) (opportunityId : Uuid) (row : MatchResult) : Prop :=
  row ∈ db.matchResults ∧ row.opportunityId = opportunityId ∧
    ∀ r ∈ db.matchResults, r.opportunityId = opportunityId → r.capacityId = row.capacityId →
      r.evaluatedAt < row.evaluatedAt ∨ r.evaluatedAt = row.evaluatedAt ∧ row.id ≤ r.id

theorem storedOrder_le_iff {a r : MatchResult} : storedOrder a ≤ storedOrder r ↔
    r.evaluatedAt < a.evaluatedAt ∨ r.evaluatedAt = a.evaluatedAt ∧ a.id ≤ r.id := by
  rw [storedOrder, storedOrder, Prod.Lex.toLex_le_toLex, OrderDual.toDual_lt_toDual,
    OrderDual.toDual.injective.eq_iff, eq_comm]

theorem mem_latestRows : row ∈ latestRows db opportunityId ↔
    row ∈ db.matchResults ∧ row.opportunityId = opportunityId ∧
      ∀ r ∈ db.matchResults, r.opportunityId = opportunityId → r.capacityId = row.capacityId →
        r.evaluatedAt ≤ row.evaluatedAt := by
  have hstored {r : MatchResult} : r ∈ db.matchResults.filter (·.opportunityId = opportunityId) ↔
      r ∈ db.matchResults ∧ r.opportunityId = opportunityId := by
    rw [List.mem_filter, decide_eq_true_iff]
  rw [latestRows, List.mem_filter, decide_eq_true_iff, and_congr_right mem_latestTimestamps,
    hstored, and_assoc]
  simp only [hstored, and_imp]

/-- What is kept for a capacity comes first of its latest rows. -/
theorem le_of_mem_firstBy_latestRows {a : MatchResult}
    (ha : a ∈ ((latestRows db opportunityId).sortOn storedOrder).firstBy MatchResult.capacityId)
    (hrow : row ∈ latestRows db opportunityId) (hcapacity : row.capacityId = a.capacityId) :
    a ∈ latestRows db opportunityId ∧ a.evaluatedAt = row.evaluatedAt ∧ a.id ≤ row.id := by
  have ha' : a ∈ latestRows db opportunityId :=
    List.mem_sortOn.1 ((List.firstBy_sublist _ _).subset ha)
  obtain ⟨hamem, haopportunity, hamax⟩ := mem_latestRows.1 ha'
  obtain ⟨hmem, hopportunity, hmax⟩ := mem_latestRows.1 hrow
  have heq : a.evaluatedAt = row.evaluatedAt :=
    le_antisymm (hmax a hamem haopportunity hcapacity.symm) (hamax row hmem hopportunity hcapacity)
  have hle := List.key_le_of_mem_firstBy_sortOn storedOrder ha hrow hcapacity
  rcases storedOrder_le_iff.1 hle with hlt | ⟨-, hle⟩
  · exact absurd heq hlt.ne'
  · exact ⟨ha', heq, hle⟩

/-- **Which rows are listed.** -/
theorem mem_listLatestByOpportunity (hids : (matchResults.keys db).Nodup) :
    row ∈ listLatestByOpportunity db opportunityId ↔ IsLatest db opportunityId row := by
  rw [listLatestByOpportunity, (List.sortBy_perm _ _).mem_iff]
  constructor
  · intro hrow
    have hlatest := List.mem_sortOn.1 ((List.firstBy_sublist _ _).subset hrow)
    obtain ⟨hmem, hopportunity, hmax⟩ := mem_latestRows.1 hlatest
    refine ⟨hmem, hopportunity, fun r hr hro hcapacity ↦ ?_⟩
    rcases (hmax r hr hro hcapacity).lt_or_eq with hlt | heq
    · exact .inl hlt
    · have hr' : r ∈ latestRows db opportunityId := mem_latestRows.2 ⟨hr, hro, fun r' hr' hro' hc ↦
        heq ▸ hmax r' hr' hro' (hc.trans hcapacity)⟩
      exact .inr ⟨heq, (le_of_mem_firstBy_latestRows hrow hr' hcapacity).2.2⟩
  · rintro ⟨hmem, hopportunity, hfirst⟩
    have hrow : row ∈ latestRows db opportunityId := by
      refine mem_latestRows.2 ⟨hmem, hopportunity, fun r hr hro hcapacity ↦ ?_⟩
      exact (hfirst r hr hro hcapacity).elim le_of_lt fun h ↦ h.1.le
    obtain ⟨a, ha, hcapacity⟩ := List.exists_mem_firstBy MatchResult.capacityId
      (List.mem_sortOn.2 hrow : row ∈ (latestRows db opportunityId).sortOn storedOrder)
    obtain ⟨ha', heq, hid⟩ := le_of_mem_firstBy_latestRows ha hrow hcapacity.symm
    obtain ⟨hamem, haopportunity, -⟩ := mem_latestRows.1 ha'
    rcases hfirst a hamem haopportunity hcapacity with hlt | ⟨-, hid'⟩
    · exact absurd heq hlt.ne
    · obtain rfl : a = row := List.inj_on_of_nodup_map hids hamem hmem (le_antisymm hid hid')
      exact ha

/-- **A row for every capacity that has any.** -/
theorem exists_mem_listLatestByOpportunity (hids : (matchResults.keys db).Nodup)
    (hrow : row ∈ db.matchResults) (hopportunity : row.opportunityId = opportunityId) :
    ∃ a ∈ listLatestByOpportunity db opportunityId, a.capacityId = row.capacityId := by
  let mine := db.matchResults.filter fun r ↦
    r.opportunityId = opportunityId ∧ r.capacityId = row.capacityId
  have hmine {r : MatchResult} : r ∈ mine ↔ r ∈ db.matchResults ∧
      r.opportunityId = opportunityId ∧ r.capacityId = row.capacityId := by
    rw [List.mem_filter, decide_eq_true_iff]
  rcases hhead : (mine.sortOn storedOrder).head? with _ | a
  · have hnil := List.head?_eq_none_iff.1 hhead
    have hmem : row ∈ mine.sortOn storedOrder := List.mem_sortOn.2 (hmine.2 ⟨hrow, hopportunity, rfl⟩)
    rw [hnil] at hmem
    cases hmem
  · obtain ⟨ha, haopportunity, hcapacity⟩ := hmine.1 (List.mem_sortOn.1 (List.mem_of_head? hhead))
    refine ⟨a, (mem_listLatestByOpportunity hids).2 ⟨ha, haopportunity, fun r hr hro hrc ↦ ?_⟩,
      hcapacity⟩
    have hle := List.key_le_of_head?_sortOn storedOrder hhead (hmine.2 ⟨hr, hro, hrc.trans hcapacity⟩)
    exact storedOrder_le_iff.1 hle

/-- **One row for a capacity.** -/
theorem listLatestByOpportunity_nodup :
    ((listLatestByOpportunity db opportunityId).map MatchResult.capacityId).Nodup :=
  ((List.sortBy_perm _ _).map _).nodup_iff.2 (List.nodup_map_firstBy _ _)

end

/-! ### In which order they come -/

/-- What the comparator goes by: eligible rows first, then by rank, then by capacity; rows without a rank
come last and are not told apart. -/
def listedOrder (r : MatchResult) : Lex (ℕ × Lex (WithTop Int × Uuid)) :=
  toLex (if r.eligible then 0 else 1, toLex
    (match r.rank with
    | none => (⊤, "")
    | some rank => (rank, r.capacityId)))

theorem eligible_of_listedOrder_le {a b : MatchResult} (h : listedOrder a ≤ listedOrder b)
    (hb : b.eligible = true) : a.eligible = true := by
  rw [listedOrder, listedOrder, Prod.Lex.toLex_le_toLex] at h
  by_contra ha
  simp [ha, hb] at h

theorem rank_of_listedOrder_le {a b : MatchResult} (h : listedOrder a ≤ listedOrder b)
    (heligible : a.eligible = b.eligible) {r s : Int} (hr : a.rank = some r) (hs : b.rank = some s) :
    r < s ∨ r = s ∧ a.capacityId ≤ b.capacityId := by
  rw [listedOrder, listedOrder, hr, hs, heligible, Prod.Lex.toLex_le_toLex] at h
  simpa [Prod.Lex.toLex_le_toLex] using h

theorem compareListed_ne_gt_iff (a b : MatchResult) :
    compareListed a b ≠ .gt ↔ listedOrder a ≤ listedOrder b := by
  rw [compareListed, listedOrder, listedOrder, Prod.Lex.toLex_le_toLex]
  by_cases heligible : a.eligible = b.eligible
  · rw [if_neg (not_not.2 heligible), heligible]
    simp only [lt_irrefl, false_or, true_and]
    rcases a.rank with _ | r <;> rcases b.rank with _ | s
    · simp
    · simp [Prod.Lex.toLex_le_toLex]
    · simp [Prod.Lex.toLex_le_toLex]
    · simp only [Prod.Lex.toLex_le_toLex, WithTop.coe_lt_coe, WithTop.coe_inj]
      rcases eq_or_ne r s with rfl | hne
      · simp [compare_le_iff_le]
      · simp [hne, compare_le_iff_le, le_iff_lt_or_eq]
  · rw [if_pos heligible]
    cases ha : a.eligible <;> cases hb : b.eligible <;> simp_all

theorem listLatestByOpportunity_pairwise (db : Db) (opportunityId : Uuid) :
    (listLatestByOpportunity db opportunityId).Pairwise fun a b ↦ listedOrder a ≤ listedOrder b := by
  rw [listLatestByOpportunity, List.sortBy_eq_sortOn compareListed_ne_gt_iff]
  exact List.pairwise_sortOn _ _

end MatchResultRepository

end TolPlatform.Matching
