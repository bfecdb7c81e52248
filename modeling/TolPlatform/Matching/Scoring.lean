import TolPlatform.Matching.Eligibility

/-!
# Scoring

`packages/matching/src/scoring.ts`: nine factors, each a score from 0 to 100 with a note that explains
it, and their weighted sum. The checks that the source makes when it is loaded are
`rankingWeights_sum` and `neutralDefaults_mem`; a `Band` is not degenerate, so normalizing over one does
not throw.
-/

namespace TolPlatform

inductive RankingFactor
  | mccProductFit | geographyLicensingFit | volumeTicketFit | riskHistoryFit | settlementCurrencyFit
  | commercialUtility | technicalLaunchFit | providerReliabilityFreshness
  | outcomeCalibratedLikelihood
  deriving DecidableEq, Repr

/-- `RANKING_FACTORS`. -/
def rankingFactors : List RankingFactor :=
  [.mccProductFit, .geographyLicensingFit, .volumeTicketFit, .riskHistoryFit,
    .settlementCurrencyFit, .commercialUtility, .technicalLaunchFit, .providerReliabilityFreshness,
    .outcomeCalibratedLikelihood]

structure RankingFactorContribution where
  factor : RankingFactor
  score : ℚ
  weight : ℚ
  contribution : ℚ
  note : String
  deriving DecidableEq, Repr

structure MatchRankingBreakdown where
  factors : List RankingFactorContribution
  total : ℚ
  algorithmVersion : String
  inputVersions : List String
  deriving DecidableEq, Repr

/-! ### `MATCHING_CONFIG` -/

namespace MatchingConfig

def rankingWeights : RankingFactor → ℚ
  | .mccProductFit => 22 / 100
  | .geographyLicensingFit => 17 / 100
  | .volumeTicketFit => 13 / 100
  | .riskHistoryFit => 13 / 100
  | .settlementCurrencyFit => 10 / 100
  | .commercialUtility => 10 / 100
  | .technicalLaunchFit => 7 / 100
  | .providerReliabilityFreshness => 5 / 100
  | .outcomeCalibratedLikelihood => 3 / 100

def outcomeCalibratedLikelihoodPlaceholder : ℚ := 50

def settlementCadenceDaysBand : Band := { min := 1, max := 10 }

def commercialUtilityFeeBpsBand : Band := { min := 80, max := 450 }

def mccSpecificityPenaltyPerExtra : ℕ := 2

def mccSpecificityPenaltyCap : ℕ := 20

def technicalLaunchFitNeutralDefault : ℚ := 70

def riskHistoryFitNeutralDefault : ℚ := 50

def neutralFactorDefault : ℚ := 50

/-- `assertRankingWeightsSumToOne`. -/
theorem rankingWeights_sum : (rankingFactors.map rankingWeights).sum = 1 := by decide +kernel

/-- `assertNeutralDefaultsInRange`. -/
theorem neutralDefaults_mem : ∀ score ∈ [outcomeCalibratedLikelihoodPlaceholder,
    technicalLaunchFitNeutralDefault, riskHistoryFitNeutralDefault, neutralFactorDefault],
    0 ≤ score ∧ score ≤ 100 := by
  decide +kernel

end MatchingConfig

/-! ### Normalization -/

def clamp0to100 (n : ℚ) : ℚ := max 0 (min 100 n)

/-- Where a value stands in a band, from 0 to 1 inside it. -/
def Band.position (band : Band) (value : ℚ) : ℚ := (value - band.min) / (band.max - band.min)

def normalize (value : ℚ) (band : Band) : ℚ := clamp0to100 (band.position value * 100)

/-- Inverted: less is better. -/
def normalizeInvert (value : ℚ) (band : Band) : ℚ := clamp0to100 ((1 - band.position value) * 100)

def overlapCount (a b : List String) : ℕ := (overlap a b).length

/-! ### The factors -/

structure FactorScore where
  score : ℚ
  note : String

def scoreMccProductFit (opportunity : MatchOpportunityInput) (capacity : MatchCapacityInput) :
    FactorScore :=
  let count := opportunity.mccs.length
  let matched := overlapCount opportunity.mccs capacity.mccsAccepted
  let coverage : ℚ := matched / count
  let extras := capacity.mccsAccepted.length - matched
  let penalty := min MatchingConfig.mccSpecificityPenaltyCap
    (extras * MatchingConfig.mccSpecificityPenaltyPerExtra)
  let percent := round1Text (coverage * 100)
  if opportunity.mccs = [] then ⟨0, "No MCCs specified on opportunity — cannot score fit."⟩
  else ⟨round1 (clamp0to100 (coverage * 100 - penalty)), s!"MCC coverage {percent}% ({matched}/{count}); specificity penalty {penalty} (accepted list carries {extras} MCC(s) beyond this opportunity's own)."⟩

def scoreGeographyLicensingFit (opportunity : MatchOpportunityInput)
    (capacity : MatchCapacityInput) : FactorScore :=
  let count := opportunity.jurisdictions.length
  let matched := overlapCount opportunity.jurisdictions capacity.jurisdictions
  let coverage : ℚ := matched / count
  let percent := round1Text (coverage * 100)
  if opportunity.jurisdictions = [] then
    ⟨0, "No jurisdictions specified on opportunity — cannot score fit."⟩
  else ⟨round1 (coverage * 100), s!"Jurisdiction coverage {percent}% ({matched}/{count})."⟩

def scoreVolumeTicketFit (opportunity : MatchOpportunityInput) (capacity : MatchCapacityInput) :
    FactorScore :=
  let ratio := bigintRatio capacity.monthlyCapacityMinor opportunity.movable30dMinor
  let band := MatchingConfig.volumeHeadroomRatioBand
  let score := match ratio with
    | .finite x => normalize x.value band
    | _ => 100
  let shown := ratioText ratio
  if opportunity.currency ≠ capacity.currency then
    ⟨MatchingConfig.neutralFactorDefault, "Currency mismatch — headroom ratio not comparable; neutral default applied."⟩
  else if opportunity.movable30dMinor = 0 then
    ⟨MatchingConfig.neutralFactorDefault, "Opportunity reports zero near-term movable volume — headroom ratio undefined; neutral default applied."⟩
  else ⟨round1 score, s!"Headroom ratio {shown}x, normalized over [{band.min}x, {band.max}x]."⟩

/-- How much of a ceiling is used, if the figure is known and there is a ceiling. -/
def utilization (value : Option Int) (ceiling : Int) : List ℚ :=
  match value with
  | none => []
  | some bps => if 0 < ceiling then [(bps : ℚ) / ceiling] else []

def scoreRiskHistoryFit (capacity : MatchCapacityInput) (context : MatchContext) : FactorScore :=
  let profile := context.merchantRiskProfile.getD {}
  let utilizations := utilization profile.chargebackBps capacity.maxChargebackBps ++
    utilization profile.fraudBps capacity.maxFraudBps ++
    utilization profile.refundBps capacity.maxRefundBps
  let dimensions := utilizations.length
  let avgUtilization := utilizations.sum / dimensions
  let percent := round1Text (avgUtilization * 100)
  if utilizations = [] then
    ⟨MatchingConfig.riskHistoryFitNeutralDefault, "No merchant risk history supplied yet — neutral default applied."⟩
  else ⟨round1 (clamp0to100 ((1 - avgUtilization) * 100)), s!"Average risk-ceiling utilization {percent}% across {dimensions} configured dimension(s)."⟩

def scoreSettlementCurrencyFit (opportunity : MatchOpportunityInput)
    (capacity : MatchCapacityInput) : FactorScore :=
  let band := MatchingConfig.settlementCadenceDaysBand
  if opportunity.currency ≠ capacity.currency then
    ⟨0, s!"Currency mismatch (opportunity: {opportunity.currency}; capacity: {capacity.currency})."⟩
  else ⟨round1 (normalizeInvert capacity.settlementCadenceDays band), s!"Settlement cadence {capacity.settlementCadenceDays} day(s), normalized (inverted) over [{band.min}, {band.max}] days."⟩

def scoreCommercialUtility (capacity : MatchCapacityInput) : FactorScore :=
  match capacity.commercialTerms with
  | none => ⟨MatchingConfig.neutralFactorDefault, "No commercial terms on file yet — neutral default applied."⟩
  | some terms =>
    let band := MatchingConfig.commercialUtilityFeeBpsBand
    ⟨round1 (normalizeInvert terms.mdrBps band), s!"MDR {terms.mdrBps}bps ({terms.model}, fixed fee {terms.fixedFeeMinor} minor units/txn), normalized (inverted) over [{band.min}, {band.max}]bps."⟩

def scoreTechnicalLaunchFit : FactorScore :=
  ⟨MatchingConfig.technicalLaunchFitNeutralDefault, "Technical/launch fit not modeled yet (CapacityProfile has no TechnicalCapability field) — fixed neutral default applied (ADR-0012)."⟩

def scoreByFreshness : FreshnessClass → ℚ
  | .fresh => 100
  | .aging => 60
  | .stale => 20
  | .unknown => 0

def scoreProviderReliabilityFreshness (capacity : MatchCapacityInput) : FactorScore :=
  ⟨scoreByFreshness capacity.freshnessClass, s!"Capacity freshness class: {capacity.freshnessClass}."⟩

def scoreOutcomeCalibratedLikelihood : FactorScore :=
  ⟨MatchingConfig.outcomeCalibratedLikelihoodPlaceholder, "Fixed placeholder — no black-box model controls invitations yet (ADR-0004); grows only once real outcome data is captured (the spec)."⟩

/-! ### The score -/

def factorScore (opportunity : MatchOpportunityInput) (capacity : MatchCapacityInput)
    (context : MatchContext) : RankingFactor → FactorScore
  | .mccProductFit => scoreMccProductFit opportunity capacity
  | .geographyLicensingFit => scoreGeographyLicensingFit opportunity capacity
  | .volumeTicketFit => scoreVolumeTicketFit opportunity capacity
  | .riskHistoryFit => scoreRiskHistoryFit capacity context
  | .settlementCurrencyFit => scoreSettlementCurrencyFit opportunity capacity
  | .commercialUtility => scoreCommercialUtility capacity
  | .technicalLaunchFit => scoreTechnicalLaunchFit
  | .providerReliabilityFreshness => scoreProviderReliabilityFreshness capacity
  | .outcomeCalibratedLikelihood => scoreOutcomeCalibratedLikelihood

def contributionOf (factor : RankingFactor) (s : FactorScore) : RankingFactorContribution where
  factor := factor
  score := s.score
  weight := MatchingConfig.rankingWeights factor
  contribution := round1 (s.score * MatchingConfig.rankingWeights factor)
  note := s.note

def scoreMatch (opportunity : MatchOpportunityInput) (capacity : MatchCapacityInput)
    (context : MatchContext) : MatchRankingBreakdown :=
  let factors := rankingFactors.map fun factor ↦
    contributionOf factor (factorScore opportunity capacity context factor)
  { factors
    total := round1 (factors.map RankingFactorContribution.contribution).sum
    algorithmVersion := MatchingConfig.algorithmVersion
    inputVersions := context.inputVersions.getD [] }

end TolPlatform
