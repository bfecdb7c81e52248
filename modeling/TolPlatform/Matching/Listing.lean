import TolPlatform.Matching.Service

/-!
# The listing over many passes

Passes over an opportunity follow one another, and between them the market is whatever it has become.
The listing takes for each capacity its row of the latest pass that had it as a candidate
(`mem_listing_iff`), so it stitches passes together. It is always ordered, eligible rows first and by
rank, and what it has from any one pass is that pass's ranking (`listing_isPicture`). It is one ranking
of the latest pass as long as no capacity that this pass leaves out has an eligible row
(`IsPicture.coherent`). A capacity that has left the pool keeps the rank it had among others, and then
it is not (`listing_not_coherent`).
-/

namespace TolPlatform.Matching

/-! ### Runs -/

inductive Turn
  | market (m : Market)
  | evaluate (d : Draws) (actor : Actor) (opportunityId : Uuid) (input : EvaluateMatchesRequest)
      (context : RequestContext)

/-- A pass that has committed. -/
structure Pass where
  opportunityId : Uuid
  now : Instant
  rows : List MatchResult
  deriving DecidableEq

def Pass.capacities (p : Pass) : List Uuid := p.rows.map MatchResult.capacityId

/-- A database with the passes that have filled it. -/
structure History where
  db : Db
  passes : List Pass := []

namespace History

/-- A pass that throws leaves nothing. -/
def turn (guards : JsonGuards) (h : History) : Turn → History
  | .market m => { h with db := { h.db with market := m } }
  | .evaluate d actor opportunityId input context =>
    match (evaluate guards d actor opportunityId input context).commit h.db with
    | (.ok rows, db) => { db, passes := h.passes ++ [⟨opportunityId, d.now, rows⟩] }
    | (.error _, db) => { h with db }

def passesOf (h : History) (opportunityId : Uuid) : List Pass :=
  h.passes.filter (·.opportunityId = opportunityId)

def listing (h : History) (opportunityId : Uuid) : List MatchResult :=
  MatchResultRepository.listLatestByOpportunity h.db opportunityId

/-- What is stored is what the passes have stored. -/
structure Recorded (h : History) : Prop where
  stored : h.db.matchResults = h.passes.flatMap Pass.rows
  ids_nodup : (matchResults.keys h.db).Nodup
  isPass : ∀ p ∈ h.passes, IsPass p.opportunityId p.now p.rows

end History

def run (guards : JsonGuards) (market : Market) (turns : List Turn) : History :=
  turns.foldl (History.turn guards) { db := { market } }

section

variable {guards : JsonGuards} {h : History}

theorem History.Recorded.turn (hrec : h.Recorded) (t : Turn) : (h.turn guards t).Recorded := by
  cases t with
  | market m => exact ⟨hrec.stored, hrec.ids_nodup, hrec.isPass⟩
  | evaluate d actor opportunityId input context =>
    rw [History.turn]
    split
    · rename_i rows db hcommit
      obtain ⟨hstored, -, hnodup, hfresh, hpass⟩ := evaluate_eq_ok (Tx.commit_eq_ok.1 hcommit)
      refine ⟨?_, ?_, ?_⟩
      · simp [hstored, hrec.stored]
      · have hkeys : matchResults.keys db = matchResults.keys h.db ++ rows.map MatchResult.id := by
          change db.matchResults.map _ = h.db.matchResults.map _ ++ _
          rw [hstored, List.map_append]
          rfl
        rw [hkeys]
        refine hrec.ids_nodup.append hnodup fun id hid hid' ↦ ?_
        obtain ⟨row, hrow, rfl⟩ := List.mem_map.1 hid'
        exact hfresh row hrow hid
      · intro p hp
        rcases List.mem_append.1 hp with hp | hp
        · exact hrec.isPass p hp
        · obtain rfl := List.mem_singleton.1 hp
          exact hpass
    · rename_i e db hcommit
      rw [Tx.commit_eq_error hcommit]
      exact hrec

theorem run_recorded (guards : JsonGuards) (market : Market) (turns : List Turn) :
    (run guards market turns).Recorded := by
  induction turns using List.reverseRecOn with
  | nil => exact ⟨rfl, List.nodup_nil, nofun⟩
  | append_singleton turns t ih =>
    rw [run, List.foldl_concat]
    exact ih.turn t

end

/-! ### What the listing is -/

/-- Both rows are ranked, the first before the second. -/
def Outranks (a b : MatchResult) : Prop := ∃ r ∈ a.rank, ∃ s ∈ b.rank, r < s

theorem Outranks.asymm {a b : MatchResult} (h : Outranks a b) : ¬ Outranks b a := by
  obtain ⟨r, hr, s, hs, hlt⟩ := h
  rintro ⟨s', hs', r', hr', hlt'⟩
  obtain rfl := Option.mem_unique hr hr'
  obtain rfl := Option.mem_unique hs hs'
  omega

/-- The listing is one ranking, of the latest pass: a row for a capacity, the eligible ones first and
ranked from 1 by descending score, and no capacity that the latest pass leaves out stands level with or
before one that it has. -/
structure Coherent (latest : Pass) (rows : List MatchResult) : Prop where
  one_row : (rows.map MatchResult.capacityId).Nodup
  eligible_first : rows.Pairwise fun a b ↦ b.eligible = true → a.eligible = true
  ranked : RankedFromOne (rows.filter (·.eligible))
  latest_first : ∀ a ∈ rows, ∀ b ∈ rows, a.capacityId ∉ latest.capacities →
    b.capacityId ∈ latest.capacities → ¬ ∃ r ∈ a.rank, ∃ s ∈ b.rank, r ≤ s

/-- The rows of one pass, among those that are eligible. -/
def eligibleOf (p : Pass) (rows : List MatchResult) : List MatchResult :=
  rows.filter fun row ↦ row.eligible ∧ row ∈ p.rows

/-- What the listing is after any passes: every capacity that was ever a candidate, as the latest pass
that had it left it, eligible rows first, by rank and then by capacity. -/
structure IsPicture (passes : List Pass) (rows : List MatchResult) : Prop where
  one_row : (rows.map MatchResult.capacityId).Nodup
  capacities : ∀ c, c ∈ rows.map MatchResult.capacityId ↔ ∃ p ∈ passes, c ∈ p.capacities
  newest : ∀ row ∈ rows, ∃ p ∈ passes, row ∈ p.rows ∧
    ∀ q ∈ passes, row.capacityId ∈ q.capacities → q.now ≤ p.now
  eligible_first : rows.Pairwise fun a b ↦ b.eligible = true → a.eligible = true
  by_rank : (rows.filter (·.eligible)).Pairwise fun a b ↦
    ∃ r ∈ a.rank, ∃ s ∈ b.rank, r < s ∨ r = s ∧ a.capacityId < b.capacityId
  unranked : ∀ row ∈ rows, row.eligible = false → row.rank = none
  /-- What stems from one pass is in the order of its ranking. -/
  within_pass : ∀ p ∈ passes, (eligibleOf p rows).Pairwise fun a b ↦
    Outranks a b ∧ ScoredNoLower a b
  /-- The latest pass is listed as a whole, in its ranking from 1. -/
  latest : ∀ p ∈ passes, (∀ q ∈ passes, q = p ∨ q.now < p.now) →
    (∀ row ∈ p.rows, row ∈ rows) ∧ RankedFromOne (eligibleOf p rows)

namespace IsPicture

variable {passes : List Pass} {rows : List MatchResult}

/-- **When the listing is one ranking**: no capacity that the latest pass leaves out is listed as
eligible. -/
theorem coherent (h : IsPicture passes rows) {p : Pass} (hp : p ∈ passes)
    (hlatest : ∀ q ∈ passes, q = p ∨ q.now < p.now)
    (heligible : ∀ row ∈ rows, row.eligible = true → row.capacityId ∈ p.capacities) :
    Coherent p rows := by
  obtain ⟨hlisted, hranked⟩ := h.latest p hp hlatest
  have hmem : ∀ row ∈ rows, row.eligible = true → row ∈ p.rows := by
    intro row hrow hel
    obtain ⟨row', hrow', hcapacity⟩ := List.mem_map.1 (heligible row hrow hel)
    obtain rfl := List.inj_on_of_nodup_map h.one_row (hlisted row' hrow') hrow hcapacity
    exact hrow'
  have hfilter : rows.filter (·.eligible) = eligibleOf p rows :=
    List.filter_congr fun row hrow ↦ by simpa using hmem row hrow
  refine ⟨h.one_row, h.eligible_first, hfilter ▸ hranked, fun a ha b _ habsent _ ↦ ?_⟩
  rintro ⟨r, hr, -⟩
  -- a capacity that is left out is not eligible, so it has no rank
  have hineligible : a.eligible = false := by
    rw [← Bool.not_eq_true]
    exact fun hel ↦ habsent (heligible a ha hel)
  rw [h.unranked a ha hineligible] at hr
  cases hr

end IsPicture

namespace RankedFromOne

variable {rows : List MatchResult} {a b : MatchResult}

theorem exists_rank (h : RankedFromOne rows) (ha : a ∈ rows) : ∃ r, a.rank = some r := by
  have hmem : a.rank ∈ rows.map MatchResult.rank := List.mem_map_of_mem ha
  rw [h.ranks] at hmem
  obtain ⟨i, -, hi⟩ := List.mem_map.1 hmem
  exact ⟨_, hi.symm⟩

theorem pairwise_outranks (h : RankedFromOne rows) : rows.Pairwise Outranks := by
  have hranks : (rows.map MatchResult.rank).Pairwise fun x y ↦ ∃ r ∈ x, ∃ s ∈ y, r < s := by
    rw [h.ranks, List.pairwise_map]
    exact List.pairwise_lt_range.imp fun {i j} hij ↦ ⟨_, rfl, _, rfl, by omega⟩
  exact (List.pairwise_map.1 hranks :)

/-- A lower rank has no lower score. -/
theorem scoredNoLower (h : RankedFromOne rows) (ha : a ∈ rows) (hb : b ∈ rows)
    (hlt : Outranks a b) : ScoredNoLower a b := by
  exact List.rel_of_pairwise (fun _ _ ↦ Outranks.asymm) h.pairwise_outranks h.scores ha hb hlt

end RankedFromOne

/-! ### The listing of a run -/

namespace History.Recorded

variable {h : History} {opportunityId : Uuid} {p q : Pass} {row r : MatchResult}

theorem isPass_of_mem (hrec : h.Recorded) (hp : p ∈ h.passesOf opportunityId) :
    IsPass opportunityId p.now p.rows := by
  obtain ⟨hmem, hopportunity⟩ := List.mem_filter.1 hp
  obtain rfl := of_decide_eq_true hopportunity
  exact hrec.isPass p hmem

/-- The stored rows of an opportunity are those of its passes. -/
theorem mem_stored_iff (hrec : h.Recorded) :
    row ∈ h.db.matchResults ∧ row.opportunityId = opportunityId ↔
      ∃ p ∈ h.passesOf opportunityId, row ∈ p.rows := by
  rw [hrec.stored, List.mem_flatMap]
  constructor
  · rintro ⟨⟨p, hp, hrow⟩, hopportunity⟩
    have hpass := ((hrec.isPass p hp).evaluated_at row hrow).1
    exact ⟨p, List.mem_filter.2 ⟨hp, decide_eq_true (hpass.symm.trans hopportunity)⟩, hrow⟩
  · rintro ⟨p, hp, hrow⟩
    exact ⟨⟨p, (List.mem_filter.1 hp).1, hrow⟩, ((hrec.isPass_of_mem hp).evaluated_at row hrow).1⟩

/-- **Which rows are listed**: for a capacity, the row of the latest pass that had it. -/
theorem mem_listing_iff (hrec : h.Recorded) : row ∈ h.listing opportunityId ↔
    ∃ p ∈ h.passesOf opportunityId, row ∈ p.rows ∧
      ∀ q ∈ h.passesOf opportunityId, ∀ r ∈ q.rows, r.capacityId = row.capacityId →
        q.now < p.now ∨ q.now = p.now ∧ row.id ≤ r.id := by
  rw [listing, MatchResultRepository.mem_listLatestByOpportunity hrec.ids_nodup,
    MatchResultRepository.IsLatest, ← and_assoc, hrec.mem_stored_iff]
  have hnow {p : Pass} (hp : p ∈ h.passesOf opportunityId) {row : MatchResult} (hrow : row ∈ p.rows) :
      row.evaluatedAt = p.now := ((hrec.isPass_of_mem hp).evaluated_at row hrow).2
  constructor
  · rintro ⟨⟨p, hp, hrow⟩, hlatest⟩
    refine ⟨p, hp, hrow, fun q hq r hr hcapacity ↦ ?_⟩
    obtain ⟨hstored, hopportunity⟩ := hrec.mem_stored_iff.2 ⟨q, hq, hr⟩
    have hle := hlatest r hstored hopportunity hcapacity
    rwa [hnow hp hrow, hnow hq hr] at hle
  · rintro ⟨p, hp, hrow, hlatest⟩
    refine ⟨⟨p, hp, hrow⟩, fun r hstored hopportunity hcapacity ↦ ?_⟩
    obtain ⟨q, hq, hr⟩ := hrec.mem_stored_iff.1 ⟨hstored, hopportunity⟩
    rw [hnow hp hrow, hnow hq hr]
    exact hlatest q hq r hr hcapacity

/-- Every capacity that was ever a candidate is listed. -/
theorem exists_mem_listing (hrec : h.Recorded) (hp : p ∈ h.passesOf opportunityId)
    (hrow : row ∈ p.rows) : ∃ a ∈ h.listing opportunityId, a.capacityId = row.capacityId := by
  obtain ⟨hstored, hopportunity⟩ := hrec.mem_stored_iff.2 ⟨p, hp, hrow⟩
  exact MatchResultRepository.exists_mem_listLatestByOpportunity hrec.ids_nodup hstored hopportunity

/-- A pass later than all others is listed as a whole. -/
theorem mem_listing_of_latest (hrec : h.Recorded) (hp : p ∈ h.passesOf opportunityId)
    (hlatest : ∀ q ∈ h.passesOf opportunityId, q = p ∨ q.now < p.now) (hrow : row ∈ p.rows) :
    row ∈ h.listing opportunityId := by
  refine hrec.mem_listing_iff.2 ⟨p, hp, hrow, fun q hq r hr hcapacity ↦ ?_⟩
  rcases hlatest q hq with rfl | hlt
  · obtain rfl := List.inj_on_of_nodup_map (hrec.isPass_of_mem hp).capacities_nodup hr hrow hcapacity
    exact .inr ⟨rfl, le_rfl⟩
  · exact .inl hlt

/-- A listed row is ranked if it is eligible, and otherwise not. -/
theorem rank_of_mem_listing (hrec : h.Recorded) (hrow : row ∈ h.listing opportunityId) :
    (row.eligible = true → ∃ r, row.rank = some r) ∧ (row.eligible = false → row.rank = none) := by
  obtain ⟨p, hp, hrow, -⟩ := hrec.mem_listing_iff.1 hrow
  obtain ⟨ranked, hperm, hranked⟩ := (hrec.isPass_of_mem hp).ranked
  refine ⟨fun hel ↦ hranked.exists_rank (hperm.symm.subset (List.mem_filter.2 ⟨hrow, hel⟩)), ?_⟩
  exact (hrec.isPass_of_mem hp).unranked row hrow

/-- Eligible rows are listed by rank, then by capacity. -/
theorem listing_by_rank (hrec : h.Recorded) :
    ((h.listing opportunityId).filter (·.eligible)).Pairwise fun a b ↦
      ∃ r ∈ a.rank, ∃ s ∈ b.rank, r < s ∨ r = s ∧ a.capacityId < b.capacityId := by
  have hnodup : (h.listing opportunityId).Pairwise fun a b ↦ a.capacityId ≠ b.capacityId :=
    List.pairwise_map.1 MatchResultRepository.listLatestByOpportunity_nodup
  have hsorted := MatchResultRepository.listLatestByOpportunity_pairwise h.db opportunityId
  refine ((hsorted.and hnodup).filter _).imp_of_mem fun {a b} ha hb ↦ ?_
  rintro ⟨hle, hne⟩
  obtain ⟨ha, hael⟩ := List.mem_filter.1 ha
  obtain ⟨hb, hbel⟩ := List.mem_filter.1 hb
  obtain ⟨r, hr⟩ := (hrec.rank_of_mem_listing ha).1 hael
  obtain ⟨s, hs⟩ := (hrec.rank_of_mem_listing hb).1 hbel
  refine ⟨r, hr, s, hs, ?_⟩
  exact (MatchResultRepository.rank_of_listedOrder_le hle (hael.trans hbel.symm) hr hs).imp_right
    fun h ↦ ⟨h.1, h.2.lt_of_ne hne⟩

/-- What is listed of one pass is in the order of its ranking. -/
theorem listing_within_pass (hrec : h.Recorded) (hp : p ∈ h.passesOf opportunityId) :
    (eligibleOf p (h.listing opportunityId)).Pairwise fun a b ↦
      Outranks a b ∧ ScoredNoLower a b := by
  obtain ⟨ranked, hperm, hranked⟩ := (hrec.isPass_of_mem hp).ranked
  have hmem {a : MatchResult} (ha : a ∈ eligibleOf p (h.listing opportunityId)) : a ∈ ranked := by
    obtain ⟨-, h⟩ := List.mem_filter.1 ha
    obtain ⟨hel, hrow⟩ := of_decide_eq_true h
    exact hperm.symm.subset (List.mem_filter.2 ⟨hrow, hel⟩)
  have hsublist : (eligibleOf p (h.listing opportunityId)).Sublist
      ((h.listing opportunityId).filter (·.eligible)) :=
    List.monotone_filter_right _ fun row hrow ↦ (of_decide_eq_true hrow).1
  refine (hrec.listing_by_rank.sublist hsublist).imp_of_mem fun {a b} ha hb ↦ ?_
  rintro ⟨r, hr, s, hs, hlt | ⟨rfl, hlt⟩⟩
  · have houtranks : Outranks a b := ⟨r, hr, s, hs, hlt⟩
    exact ⟨houtranks, hranked.scoredNoLower (hmem ha) (hmem hb) houtranks⟩
  · -- one pass gives a rank once
    have hranks : (ranked.map MatchResult.rank).Nodup := by
      rw [hranked.ranks]
      exact List.nodup_range.map fun i j hij ↦ by simpa using hij
    obtain rfl := List.inj_on_of_nodup_map hranks (hmem ha) (hmem hb) (hr.trans hs.symm)
    exact absurd hlt (lt_irrefl _)

/-- The latest pass is listed in its ranking. -/
theorem listing_rankedFromOne (hrec : h.Recorded) (hp : p ∈ h.passesOf opportunityId)
    (hlatest : ∀ q ∈ h.passesOf opportunityId, q = p ∨ q.now < p.now) :
    RankedFromOne (eligibleOf p (h.listing opportunityId)) := by
  obtain ⟨ranked, hperm, hranked⟩ := (hrec.isPass_of_mem hp).ranked
  have hlisted : (h.listing opportunityId).Nodup :=
    MatchResultRepository.listLatestByOpportunity_nodup.of_map
  have hrows : (p.rows.filter (·.eligible)).Nodup :=
    (hrec.isPass_of_mem hp).capacities_nodup.of_map.filter _
  have hsame : (eligibleOf p (h.listing opportunityId)).Perm ranked := by
    refine (List.perm_ext_iff_of_nodup (hlisted.filter _) (hperm.nodup_iff.2 hrows)).2 fun row ↦ ?_
    rw [hperm.mem_iff, List.mem_filter, List.mem_filter, decide_eq_true_iff]
    constructor
    · exact fun ⟨_, hel, hrow⟩ ↦ ⟨hrow, hel⟩
    · exact fun ⟨hrow, hel⟩ ↦ ⟨hrec.mem_listing_of_latest hp hlatest hrow, hel, hrow⟩
  -- both are in the order of their ranks
  have heq : eligibleOf p (h.listing opportunityId) = ranked :=
    hsame.eq_of_pairwise (fun _ _ _ _ hab hba ↦ absurd hba hab.asymm)
      ((hrec.listing_within_pass hp).imp And.left) hranked.pairwise_outranks
  rw [heq]
  exact hranked

/-- **What the listing is.** -/
theorem isPicture (hrec : h.Recorded) (opportunityId : Uuid) :
    IsPicture (h.passesOf opportunityId) (h.listing opportunityId) where
  one_row := MatchResultRepository.listLatestByOpportunity_nodup
  capacities c := by
    constructor
    · intro hc
      obtain ⟨row, hrow, rfl⟩ := List.mem_map.1 hc
      obtain ⟨p, hp, hrow, -⟩ := hrec.mem_listing_iff.1 hrow
      exact ⟨p, hp, List.mem_map_of_mem hrow⟩
    · rintro ⟨p, hp, hc⟩
      obtain ⟨row, hrow, rfl⟩ := List.mem_map.1 hc
      obtain ⟨a, ha, hcapacity⟩ := hrec.exists_mem_listing hp hrow
      exact hcapacity ▸ List.mem_map_of_mem ha
  newest row hrow := by
    obtain ⟨p, hp, hrow, hnewest⟩ := hrec.mem_listing_iff.1 hrow
    refine ⟨p, hp, hrow, fun q hq hc ↦ ?_⟩
    obtain ⟨r, hr, hcapacity⟩ := List.mem_map.1 hc
    exact (hnewest q hq r hr hcapacity).elim le_of_lt fun h ↦ h.1.le
  eligible_first :=
    (MatchResultRepository.listLatestByOpportunity_pairwise h.db opportunityId).imp
      MatchResultRepository.eligible_of_listedOrder_le
  by_rank := hrec.listing_by_rank
  unranked row hrow := (hrec.rank_of_mem_listing hrow).2
  within_pass _ hp := hrec.listing_within_pass hp
  latest _ hp hlatest :=
    ⟨fun _ ↦ hrec.mem_listing_of_latest hp hlatest, hrec.listing_rankedFromOne hp hlatest⟩

end History.Recorded

/-- **Every listing is a picture** of the passes so far, and one ranking of the latest of them as long as
no capacity that it leaves out is listed as eligible. -/
theorem listing_isPicture (guards : JsonGuards) (market : Market) (turns : List Turn)
    (opportunityId : Uuid) :
    let h := run guards market turns
    IsPicture (h.passesOf opportunityId) (h.listing opportunityId) ∧
      ∀ latest ∈ h.passesOf opportunityId,
        (∀ p ∈ h.passesOf opportunityId, p = latest ∨ p.now < latest.now) →
        (∀ row ∈ h.listing opportunityId, row.eligible = true →
          row.capacityId ∈ latest.capacities) →
        Coherent latest (h.listing opportunityId) := by
  have hpicture := (run_recorded guards market turns).isPicture opportunityId
  exact ⟨hpicture, fun latest hlatest hlater heligible ↦
    hpicture.coherent hlatest hlater heligible⟩

/-! ### A capacity that leaves the pool -/

/-- Passes known by their instants and candidates, the last of them later than the others. -/
theorem History.exists_latest {h : History} {opportunityId : Uuid}
    {before : List (Instant × List Uuid)} {now : Instant} {capacities : List Uuid}
    (hpasses : (h.passesOf opportunityId).map (fun p ↦ (p.now, p.capacities)) =
      before ++ [(now, capacities)])
    (hbefore : ∀ p ∈ before, p.1 < now) :
    ∃ earlier latest, h.passesOf opportunityId = earlier ++ [latest] ∧
      latest.capacities = capacities ∧ ∀ p ∈ earlier, p.now < latest.now := by
  obtain ⟨earlier, rest, hsplit, rfl, hrest⟩ := List.map_eq_append_iff.1 hpasses
  obtain ⟨latest, rfl, hlatest⟩ := List.map_eq_singleton_iff.1 hrest
  obtain ⟨rfl, rfl⟩ := Prod.mk.inj hlatest
  exact ⟨earlier, latest, hsplit, rfl, fun p hp ↦ hbefore _ (List.mem_map_of_mem hp)⟩

namespace Sample

def guards : JsonGuards where
  assertJsonSafeObjectArray _ _ := .ok ()
  assertJsonSafePlainObject _ _ := .ok ()
  assertStringArray _ _ := .ok ()

def operator : Actor := ⟨"olga", some "platform", some .platformOwner, some "m1"⟩

def capacity (id providerOrgId : Uuid) (status : RecordStatus) : CapacityProfile where
  id := id
  providerOrgId := providerOrgId
  asOf := 0
  acceptingNewVolume := true
  jurisdictions := ["DE"]
  mccsAccepted := ["5411"]
  mccsExcluded := []
  currency := "EUR"
  monthlyCapacityMinor := 500000000
  minTicketMinor := 100
  maxTicketMinor := 0
  maxChargebackBps := 90
  maxFraudBps := 50
  maxRefundBps := 500
  settlementRail := "SEPA"
  settlementCadenceDays := 2
  commercialTerms := some ⟨180, 10, .blended⟩
  createdAt := 0
  status := status
  version := 1
  sourceType := .platform

/-- Two providers with passports that are `READY`, each with one capacity. -/
def market (first second : RecordStatus) : Market where
  opportunities :=
    [{ id := "o1", ownerOrgId := "merchant", status := .matchReady, currency := "EUR",
       movable30dMinor := 100000000, jurisdictions := ["DE"], mccs := ["5411"], version := 1 }]
  capacityProfiles := [capacity "c1" "acquirer1" first, capacity "c2" "acquirer2" second]
  passports := { passports := [⟨"p1", "acquirer1", .ready, 0⟩, ⟨"p2", "acquirer2", .ready, 0⟩] }
  capacityProfiles_nodup := by simp [capacity]

/-- One pass a day. -/
def pass (day : Int) (letter : String) : Turn :=
  .evaluate ⟨fun k ↦ s!"{letter}{k}", day * millisPerDay⟩ operator "o1" {}
    ⟨"req", "corr", "office", "browser"⟩

/-- The first capacity is evaluated alone, then retired, and the second is evaluated alone. -/
def swapped : History :=
  run guards (market .active .retired) [pass 1 "a", .market (market .retired .active), pass 2 "b"]

theorem listing_not_coherent : ∃ earlier latest,
    swapped.passesOf "o1" = earlier ++ [latest] ∧ (∀ p ∈ earlier, p.now < latest.now) ∧
      ¬ Coherent latest (swapped.listing "o1") := by
  have hpasses : (swapped.passesOf "o1").map (fun p ↦ (p.now, p.capacities)) =
      [(millisPerDay, ["c1"])] ++ [(2 * millisPerDay, ["c2"])] := by decide +kernel
  -- both capacities are listed, and both with rank 1
  have hranks : ((swapped.listing "o1").filter (·.eligible)).map MatchResult.rank =
      [some 1, some 1] := by decide +kernel
  obtain ⟨earlier, latest, hsplit, -, hearlier⟩ := History.exists_latest hpasses (by decide)
  refine ⟨earlier, latest, hsplit, hearlier, fun hcoherent ↦ ?_⟩
  have hlength := congrArg List.length hranks
  rw [List.length_map] at hlength
  have h := hcoherent.ranked.ranks
  rw [hranks, hlength] at h
  exact absurd h (by decide)

/-- Both capacities stay, and are evaluated twice. -/
def kept : History :=
  run guards (market .active .active) [pass 1 "a", pass 2 "b"]

theorem listing_coherent_of_kept : ∃ latest ∈ kept.passesOf "o1",
    latest.capacities = ["c1", "c2"] ∧ Coherent latest (kept.listing "o1") := by
  have hpasses : (kept.passesOf "o1").map (fun p ↦ (p.now, p.capacities)) =
      [(millisPerDay, ["c1", "c2"])] ++ [(2 * millisPerDay, ["c1", "c2"])] := by decide +kernel
  have hlisted : (kept.listing "o1").map MatchResult.capacityId = ["c1", "c2"] := by decide +kernel
  obtain ⟨earlier, latest, hsplit, hcapacities, hearlier⟩ :=
    History.exists_latest hpasses (by decide)
  have hmem : latest ∈ kept.passesOf "o1" := hsplit ▸ List.mem_append_right _ List.mem_cons_self
  refine ⟨latest, hmem, hcapacities, (listing_isPicture guards (market .active .active)
    [pass 1 "a", pass 2 "b"] "o1").2 latest hmem (fun p hp ↦ ?_) fun row hrow _ ↦ ?_⟩
  · rcases List.mem_append.1 (hsplit ▸ hp) with hp | hp
    · exact .inr (hearlier p hp)
    · exact .inl (List.mem_singleton.1 hp)
  · have hrow : row.capacityId ∈ (kept.listing "o1").map MatchResult.capacityId :=
      List.mem_map_of_mem hrow
    rwa [hlisted, ← hcapacities] at hrow

end Sample

end TolPlatform.Matching
