import TolPlatform.Matching.Tables

/-!
# Matching

`apps/api/src/modules/matching/service.ts`. An evaluation pass takes every active capacity, decides
which are eligible, ranks these among themselves, once, and stores a row for each. The listing returns
the latest row of each capacity, over all passes.

`evaluate_eq_ok` says what a pass that commits has stored: rows of its own instant, one for a capacity,
whose eligible ones are ranked from 1 by descending score (`RankedFromOne`).
-/

namespace TolPlatform.Matching

/-! ### Inputs -/

/-- `averageTicketMinor` is not negative. -/
structure EvaluateMatchesRequest where
  averageTicketMinor : Option ℕ := none
  requiredSettlementRail : Option String := none
  deriving DecidableEq, Repr

/-- `CROSS_ORG_MATCH_READ_ROLES`. -/
def crossOrgMatchReadRoles : List PersonaRole :=
  [.platformOwner, .marketplaceOperator, .partnershipLead, .underwritingAnalyst,
    .complianceReviewer, .auditorReadonly]

/-- `MAX_CANDIDATE_CAPACITIES`. -/
def maxCandidateCapacities : ℕ := 500

/-- `READINESS_STALE_AFTER_DAYS`. -/
def readinessStaleAfterDays : ℕ+ := ⟨90, by decide⟩

def toMatchOpportunityInput (o : Opportunity) : MatchOpportunityInput where
  id := o.id
  currency := o.currency
  jurisdictions := o.jurisdictions
  mccs := o.mccs
  movable30dMinor := o.movable30dMinor

def toMatchCapacityInput (c : CapacityProfile) (freshnessClass : FreshnessClass) :
    MatchCapacityInput where
  id := c.id
  currency := c.currency
  jurisdictions := c.jurisdictions
  mccsAccepted := c.mccsAccepted
  mccsExcluded := c.mccsExcluded
  acceptingNewVolume := c.acceptingNewVolume
  monthlyCapacityMinor := c.monthlyCapacityMinor
  minTicketMinor := c.minTicketMinor
  maxTicketMinor := c.maxTicketMinor
  maxChargebackBps := c.maxChargebackBps
  maxFraudBps := c.maxFraudBps
  maxRefundBps := c.maxRefundBps
  settlementRail := c.settlementRail
  settlementCadenceDays := c.settlementCadenceDays
  freshnessClass := freshnessClass
  commercialTerms := c.commercialTerms

/-- `STALE` as soon as the readiness has aged, whether or not the passport has been demoted yet. -/
def liveProviderPassportStatus (market : Market) (providerOrgId : Uuid) (now : Instant) :
    Option PassportStatus := do
  let passport ← Passports.PassportRepository.findByOrganizationId market.passports providerOrgId
  let latest :=
    Passports.ReadinessResultRepository.findLatestByPassport market.passports passport.id
  if isPassportReadinessStale passport.status (latest.map (·.computedAt)) now
      readinessStaleAfterDays then
    return .stale
  else return passport.status

/-! ### One evaluation pass -/

/-- A candidate with its verdict. -/
structure Evaluated where
  capacity : CapacityProfile
  matchCapacity : MatchCapacityInput
  eligibility : EligibilityResult

def loadOpportunity (market : Market) (opportunityId : Uuid) : Except Thrown Opportunity :=
  orThrow (OpportunityRepository.findById market opportunityId) (notFound "Opportunity not found.")

def requireEvaluable (actor : Actor) (opportunity : Opportunity) : Except Thrown Unit := do
  requireAllowed (can actor .matchingEvaluate ⟨.matchResult, some opportunity.ownerOrgId⟩)
  throwIf (opportunity.status ≠ .matchReady ∧ opportunity.status ≠ .invited)
    (badRequest s!"Opportunity must be MATCH_READY or INVITED to evaluate matches (current status: {opportunity.status}).")

def evaluateCapacity (market : Market) (now : Instant) (opportunity : Opportunity)
    (input : EvaluateMatchesRequest) (capacity : CapacityProfile) : Except Thrown Evaluated := do
  let freshnessClass := classifyCapacityFreshness capacity.asOf capacity.sourceType now
  let matchCapacity := toMatchCapacityInput capacity freshnessClass
  let eligibility ← evaluateEligibility (toMatchOpportunityInput opportunity) matchCapacity
    { now
      providerPassportStatus := liveProviderPassportStatus market capacity.providerOrgId now
      averageTicketMinor := input.averageTicketMinor.map Int.ofNat
      requiredSettlementRail := input.requiredSettlementRail
      inputVersions := some [s!"opportunity:{opportunity.id}:v{opportunity.version}",
        s!"capacity:{capacity.id}:v{capacity.version}"] }
  return { capacity, matchCapacity, eligibility }

def rankingContext (now : Instant) (opportunity : Opportunity) (input : EvaluateMatchesRequest) :
    MatchContext where
  now := now
  averageTicketMinor := input.averageTicketMinor.map Int.ofNat
  inputVersions := some [s!"opportunity:{opportunity.id}:v{opportunity.version}"]

/-- The eligible candidates, ranked among themselves. -/
def rankEligible (now : Instant) (opportunity : Opportunity) (input : EvaluateMatchesRequest)
    (evaluated : List Evaluated) : List RankedMatch :=
  rankMatches (toMatchOpportunityInput opportunity)
    ((evaluated.filter (·.eligibility.eligible)).map Evaluated.matchCapacity)
    (rankingContext now opportunity input)

/-- `rankByCapacityId.get(id)`, of a map that is filled in order. -/
def rankByCapacityId (ranked : List RankedMatch) (capacityId : Uuid) : Option RankedMatch :=
  ranked.reverse.find? (·.capacityId = capacityId)

def toCreateInput (now : Instant) (opportunity : Opportunity) (ranked : List RankedMatch)
    (entry : Evaluated) : CreateMatchResultInput :=
  let rankEntry := rankByCapacityId ranked entry.capacity.id
  { opportunityId := opportunity.id
    capacityId := entry.capacity.id
    eligible := entry.eligibility.eligible
    eligibilityResults := entry.eligibility.results
    ruleVersion := entry.eligibility.ruleVersion
    rankingBreakdown := rankEntry.map (·.breakdown)
    rank := rankEntry.map fun r ↦ (r.rank : Int)
    totalScore := rankEntry.map (·.breakdown.total)
    algorithmVersion := rankEntry.map (·.breakdown.algorithmVersion)
    inputVersions := entry.eligibility.inputVersions
    evaluatedAt := now }

/-- The payload of both trails. -/
def evaluatedPayload (opportunity : Opportunity) (evaluated : List Evaluated) :
    List (String × JsonValue) :=
  [("opportunityId", .string opportunity.id), ("candidateCount", .number evaluated.length),
    ("eligibleCount", .number (evaluated.filter (·.eligibility.eligible)).length),
    ("ruleVersion", .string MatchingConfig.ruleVersion),
    ("algorithmVersion", .string MatchingConfig.algorithmVersion)]

def evaluatedTrails (actor : Actor) (context : RequestContext) (opportunity : Opportunity)
    (evaluated : List Evaluated) (t : Trails) : Trails :=
  (t.auditOfNone actor context (some opportunity.ownerOrgId) "matching.evaluated" "match_result"
    (evaluatedPayload opportunity evaluated)).timeline actor context "match.computed" "opportunity"
    opportunity.id (evaluatedPayload opportunity evaluated)

/-- Everything before the transaction. -/
def planEvaluation (market : Market) (now : Instant) (actor : Actor) (opportunityId : Uuid)
    (input : EvaluateMatchesRequest) : Except Thrown (Opportunity × List Evaluated) := do
  let opportunity ← loadOpportunity market opportunityId
  requireEvaluable actor opportunity
  let candidates := CapacityProfileRepository.list market maxCandidateCapacities
  let evaluated ← candidates.mapM (evaluateCapacity market now opportunity input)
  return (opportunity, evaluated)

def evaluate (guards : JsonGuards) (d : Draws) (actor : Actor) (opportunityId : Uuid)
    (input : EvaluateMatchesRequest) (context : RequestContext) : Tx Db Thrown (List MatchResult) := do
  let db ← get
  let (opportunity, evaluated) ← Tx.check (planEvaluation db.market d.now actor opportunityId input)
  let ranked := rankEligible d.now opportunity input evaluated
  let created ← Table.insertEach (MatchResultRepository.create guards) d.ids
    (evaluated.map (toCreateInput d.now opportunity ranked))
  modify fun db : Db ↦ { db with trails := evaluatedTrails actor context opportunity evaluated db.trails }
  return created

/-! ### What a pass stores -/

/-- Both rows are scored, the first no lower than the second. -/
def ScoredNoLower (a b : MatchResult) : Prop := ∃ s ∈ a.totalScore, ∃ t ∈ b.totalScore, t ≤ s

/-- Rows that are ranked `1, 2, …`, by descending score. -/
structure RankedFromOne (rows : List MatchResult) : Prop where
  ranks : rows.map MatchResult.rank = (List.range rows.length).map fun i : ℕ ↦ some ((i : Int) + 1)
  scores : rows.Pairwise ScoredNoLower

/-- The rows of one pass over an opportunity. -/
structure IsPass (opportunityId : Uuid) (now : Instant) (rows : List MatchResult) : Prop where
  evaluated_at : ∀ row ∈ rows, row.opportunityId = opportunityId ∧ row.evaluatedAt = now
  capacities_nodup : (rows.map MatchResult.capacityId).Nodup
  ranked : ∃ ranked : List MatchResult, ranked.Perm (rows.filter (·.eligible)) ∧ RankedFromOne ranked
  unranked : ∀ row ∈ rows, row.eligible = false → row.rank = none

section

variable {market : Market} {now : Instant} {opportunity : Opportunity}
  {input : EvaluateMatchesRequest} {ranked : List RankedMatch} {evaluated : List Evaluated}
  {r : RankedMatch}

theorem evaluateCapacity_eq_ok {capacity : CapacityProfile} {e : Evaluated}
    (h : evaluateCapacity market now opportunity input capacity = .ok e) :
    e.capacity = capacity ∧ e.matchCapacity.id = capacity.id := by
  obtain ⟨eligibility, -, h⟩ := Except.bind_eq_ok'.1 h
  obtain rfl := Except.ok.inj h
  exact ⟨rfl, rfl⟩

/-- A plan is about the opportunity that was asked for, and has a candidate once. -/
theorem planEvaluation_eq_ok {actor : Actor} {opportunityId : Uuid}
    (h : planEvaluation market now actor opportunityId input = .ok (opportunity, evaluated)) :
    opportunity.id = opportunityId ∧ (evaluated.map (·.capacity.id)).Nodup ∧
      ∀ e ∈ evaluated, e.matchCapacity.id = e.capacity.id := by
  obtain ⟨found, hfound, h⟩ := Except.bind_eq_ok'.1 h
  obtain ⟨-, -, h⟩ := Except.bind_eq_ok'.1 h
  obtain ⟨all, hall, h⟩ := Except.bind_eq_ok'.1 h
  obtain ⟨rfl, rfl⟩ := Prod.mk.inj (Except.ok.inj h)
  have hcandidates := Except.mapM_eq_ok.1 hall
  refine ⟨?_, ?_, fun e he ↦ ?_⟩
  · have hid := List.find?_some (orThrow_eq_ok_iff.1 hfound)
    exact of_decide_eq_true hid
  · rw [← hcandidates.map_eq (f := CapacityProfile.id) (g := fun e ↦ e.capacity.id) fun c e he ↦
      congrArg CapacityProfile.id (evaluateCapacity_eq_ok he).1.symm]
    exact CapacityProfileRepository.list_nodup _ _
  · obtain ⟨capacity, -, heval⟩ := hcandidates.exists_left he
    obtain ⟨rfl, hid⟩ := evaluateCapacity_eq_ok heval
    exact hid

theorem rankByCapacityId_of_mem (hnodup : (ranked.map RankedMatch.capacityId).Nodup)
    (hr : r ∈ ranked) : rankByCapacityId ranked r.capacityId = some r := by
  have hreverse : (ranked.reverse.map RankedMatch.capacityId).Nodup := by
    rwa [List.map_reverse, List.nodup_reverse]
  exact (List.find?_eq_some_iff_of_nodup hreverse).2 ⟨List.mem_reverse.2 hr, rfl⟩

/-- The rows of the eligible candidates, in the order of the ranking. -/
theorem exists_rankedFromOne (ranked : List RankedMatch) {rows : List MatchResult}
    (hnodup : (rows.map MatchResult.capacityId).Nodup)
    (hcapacities : (rows.map MatchResult.capacityId).Perm (ranked.map RankedMatch.capacityId))
    (hranks : ranked.map RankedMatch.rank = (List.range ranked.length).map (· + 1))
    (htotals : ranked.Pairwise fun a b ↦ b.breakdown.total ≤ a.breakdown.total)
    (hrows : ∀ row ∈ rows,
      row.rank = (rankByCapacityId ranked row.capacityId).map (fun r ↦ (r.rank : Int)) ∧
        row.totalScore = (rankByCapacityId ranked row.capacityId).map (·.breakdown.total)) :
    ∃ l : List MatchResult, l.Perm rows ∧ RankedFromOne l := by
  have hnodup' : (ranked.map RankedMatch.capacityId).Nodup := hcapacities.nodup_iff.1 hnodup
  have hentry {r : RankedMatch} (hr : r ∈ ranked) : rankByCapacityId ranked r.capacityId = some r :=
    rankByCapacityId_of_mem hnodup' hr
  -- each row has an entry of the ranking, and the entries are the ranking
  have hentries : (ranked.map some).Perm
      (rows.map fun row ↦ rankByCapacityId ranked row.capacityId) := by
    have h := (hcapacities.map (rankByCapacityId ranked)).symm
    rw [List.map_map, List.map_map] at h
    rwa [← List.map_congr_left fun r hr ↦ (hentry hr :)]
  obtain ⟨l, hl, hperm⟩ : ∃ l : List MatchResult,
      ranked.map some = l.map (fun row ↦ rankByCapacityId ranked row.capacityId) ∧ l.Perm rows :=
    (iff_of_eq (congrFun₂ (List.eq_map_comp_perm _) _ _)).2 hentries
  have hlength : ranked.length = l.length := by simpa using congrArg List.length hl
  refine ⟨l, hperm, ⟨?_, ?_⟩⟩
  · calc l.map MatchResult.rank
        = (l.map fun row ↦ rankByCapacityId ranked row.capacityId).map
            (·.map fun r ↦ (r.rank : Int)) := by
          rw [List.map_map]
          exact List.map_congr_left fun row hrow ↦ (hrows row (hperm.subset hrow)).1
      _ = (ranked.map RankedMatch.rank).map fun rank : ℕ ↦ some (rank : Int) := by
          rw [← hl, List.map_map, List.map_map]
          rfl
      _ = (List.range l.length).map fun i : ℕ ↦ some ((i : Int) + 1) := by
          rw [hranks, hlength, List.map_map]
          rfl
  · have hentry_totals : (l.map fun row ↦ rankByCapacityId ranked row.capacityId).Pairwise
        fun x y ↦ ∃ r ∈ x, ∃ s ∈ y, s.breakdown.total ≤ r.breakdown.total := by
      rw [← hl, List.pairwise_map]
      exact htotals.imp fun hle ↦ ⟨_, rfl, _, rfl, hle⟩
    refine (List.pairwise_map.1 hentry_totals).imp_of_mem fun {a b} ha hb ↦ ?_
    rintro ⟨r, hr, s, hs, hle⟩
    rw [ScoredNoLower, (hrows a (hperm.subset ha)).2, (hrows b (hperm.subset hb)).2]
    exact ⟨_, Option.mem_map_of_mem _ hr, _, Option.mem_map_of_mem _ hs, hle⟩

/-- The row of a candidate. -/
structure RowOf (opportunityId : Uuid) (now : Instant) (ranked : List RankedMatch) (e : Evaluated)
    (row : MatchResult) : Prop where
  opportunityId_eq : row.opportunityId = opportunityId
  evaluatedAt_eq : row.evaluatedAt = now
  capacityId_eq : row.capacityId = e.capacity.id
  eligible_eq : row.eligible = e.eligibility.eligible
  rank_eq : row.rank = (rankByCapacityId ranked e.capacity.id).map fun r ↦ (r.rank : Int)
  totalScore_eq : row.totalScore = (rankByCapacityId ranked e.capacity.id).map (·.breakdown.total)
  unranked : row.eligible = false → row.rank = none

/-- One row for each candidate, ranked by the ranking of the eligible ones, is a pass. -/
theorem isPass_of_rows {opportunityId : Uuid} {rows : List MatchResult}
    (hrows : List.Forall₂ (RowOf opportunityId now (rankEligible now opportunity input evaluated))
      evaluated rows)
    (hnodup : (evaluated.map (·.capacity.id)).Nodup)
    (hmatch : ∀ e ∈ evaluated, e.matchCapacity.id = e.capacity.id) :
    IsPass opportunityId now rows := by
  have hcapacities : evaluated.map (·.capacity.id) = rows.map MatchResult.capacityId :=
    hrows.map_eq fun e row h ↦ h.capacityId_eq.symm
  -- the eligible candidates and their rows
  have heligible : List.Forall₂ (RowOf opportunityId now _)
      (evaluated.filter (·.eligibility.eligible)) (rows.filter (·.eligible)) :=
    List.rel_filter (fun _ _ h ↦ iff_of_eq (congrArg (· = true) h.eligible_eq.symm)) hrows
  refine ⟨fun row hrow ↦ ?_, hcapacities ▸ hnodup, ?_, fun row hrow ↦ ?_⟩
  · obtain ⟨e, -, h⟩ := hrows.exists_left hrow
    exact ⟨h.opportunityId_eq, h.evaluatedAt_eq⟩
  · refine exists_rankedFromOne (rankEligible now opportunity input evaluated) ?_ ?_
      (rankMatches_ranks _ _ _) (rankMatches_totals _ _ _) fun row hrow ↦ ?_
    · exact (hcapacities ▸ hnodup).sublist (List.filter_sublist.map _)
    · refine .trans (.of_eq ?_) (rankMatches_capacityIds _ _ _).symm
      rw [List.map_map, ← heligible.map_eq (f := fun e ↦ e.capacity.id) fun e row h ↦
        h.capacityId_eq.symm]
      exact List.map_congr_left fun e he ↦ (hmatch e (List.mem_of_mem_filter he)).symm
    · obtain ⟨e, -, h⟩ := heligible.exists_left hrow
      rw [h.capacityId_eq]
      exact ⟨h.rank_eq, h.totalScore_eq⟩
  · obtain ⟨e, -, h⟩ := hrows.exists_left hrow
    exact h.unranked

end

section

variable {guards : JsonGuards} {d : Draws} {actor : Actor} {opportunityId : Uuid}
  {input : EvaluateMatchesRequest} {context : RequestContext} {db db' : Db} {rows : List MatchResult}

/-- **What a pass stores.** -/
theorem evaluate_eq_ok
    (h : evaluate guards d actor opportunityId input context db = .ok (rows, db')) :
    db'.matchResults = db.matchResults ++ rows ∧ db'.market = db.market ∧
      (rows.map MatchResult.id).Nodup ∧ (∀ row ∈ rows, row.id ∉ matchResults.keys db) ∧
      IsPass opportunityId d.now rows := by
  rw [evaluate, Tx.get_bind_eq_ok] at h
  obtain ⟨⟨opportunity, evaluated⟩, hplan, h⟩ := Tx.check_bind_eq_ok.1 h
  obtain ⟨created, s, hinsert, h⟩ := Tx.bind_eq_ok.1 h
  rw [Tx.modify_bind_eq_ok] at h
  obtain ⟨rfl, rfl⟩ := Prod.mk.inj (Tx.pure_eq_ok.1 h)
  obtain ⟨rfl, hmade, hids, hfresh⟩ := Table.insertEach_eq_ok
    (R := fun input row ↦ ∃ id, row = input.toRow id ∧
      (input.eligible = false → input.hasRankingData = false))
    (fun h ↦ by
      obtain ⟨rfl, hfresh, rfl, -, hnone⟩ := MatchResultRepository.create_eq_ok h
      exact ⟨⟨_, rfl, hnone⟩, hfresh, rfl⟩) hinsert
  refine ⟨rfl, rfl, hids, hfresh, ?_⟩
  obtain ⟨rfl, hnodup, hmatchCapacity⟩ := planEvaluation_eq_ok hplan
  have hrows : List.Forall₂
      (RowOf opportunity.id d.now (rankEligible d.now opportunity input evaluated)) evaluated rows := by
    refine (List.forall₂_map_left_iff.1 hmade).imp fun e row ↦ ?_
    rintro ⟨id, rfl, hnone⟩
    exact ⟨rfl, rfl, rfl, rfl, rfl, rfl, fun hineligible ↦
      CreateMatchResultInput.rank_eq_none_of_hasRankingData (hnone hineligible)⟩
  exact isPass_of_rows hrows hnodup hmatchCapacity

end

/-! ### Listing -/

def list (db : Db) (actor : Actor) (opportunityId : Uuid) : Except Thrown (List MatchResult) := do
  let opportunity ← loadOpportunity db.market opportunityId
  requireAllowed (can actor .matchList ⟨.matchResult, some opportunity.ownerOrgId⟩
    { isParticipant := true })
  let all := MatchResultRepository.listLatestByOpportunity db opportunityId
  if actor.role.any (· ∈ crossOrgMatchReadRoles) then return all
  else if actor.organizationId = some opportunity.ownerOrgId then return all
  else
    match actor.role, actor.organizationId with
    | some .acquirerProviderUser, some organizationId =>
      let myCapacities := CapacityProfileRepository.listByProviderOrg db.market organizationId
      return all.filter (·.capacityId ∈ myCapacities.map CapacityProfile.id)
    | _, _ => return []

/-- Whoever lists sees rows of the one listing, in its order. -/
theorem list_sublist {db : Db} {actor : Actor} {opportunityId : Uuid} {rows : List MatchResult}
    (h : list db actor opportunityId = .ok rows) :
    rows.Sublist (MatchResultRepository.listLatestByOpportunity db opportunityId) := by
  obtain ⟨opportunity, -, h⟩ := Except.bind_eq_ok'.1 h
  obtain ⟨-, -, h⟩ := Except.bind_eq_ok'.1 h
  split at h
  · exact Except.ok.inj h ▸ List.Sublist.refl _
  split at h
  · exact Except.ok.inj h ▸ List.Sublist.refl _
  split at h
  · exact Except.ok.inj h ▸ List.filter_sublist
  · exact Except.ok.inj h ▸ List.nil_sublist _

end TolPlatform.Matching
