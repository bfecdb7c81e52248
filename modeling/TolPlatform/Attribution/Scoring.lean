import Mathlib.Algebra.Order.BigOperators.Group.List
import TolPlatform.Claims.Service
import TolPlatform.Shared.Language

/-!
# Scoring claims

`packages/attribution/src/scoring.ts`: history, proximity, evidence and time, each from 0 to 100, in a
weighted sum; a claim on public knowledge only scores 0. A figure is a number of the language, so that
the guards on it can fail; from there on the arithmetic is exact, and rounded where the source rounds.
The vocabulary is that of the claims service, and a tier, type or state that is not in it has no
counterpart here.

What a score is made of is monotone step by step (`claimTotal_le`), and so is the score
(`scoreClaim_isMonotone`).
-/

namespace TolPlatform.Attribution

open Claims (DirectnessTier ClaimEvidenceType EvidenceVerificationState ClaimEvidenceInput
  ClaimEvidenceContribution ClaimScoreBreakdown)

structure ClaimScoringInput where
  priorCommercialHistoryMonths : Number
  directnessTier : DirectnessTier
  evidenceItems : List ClaimEvidenceInput
  submissionLagDays : Number
  inputVersions : Option (List String) := none
  deriving DecidableEq, Repr

def claimScoringInputError (message : String) : Thrown :=
  .inputError s!"invalid claim scoring input: {message}"

/-! ### `ATTRIBUTION_CONFIG` -/

structure FactorWeights where
  history : ℚ
  proximity : ℚ
  evidence : ℚ
  time : ℚ

structure FactorBand where
  min : ℚ
  max : ℚ

namespace AttributionConfig

def algorithmVersion : String := "attribution-v1"

def weights : FactorWeights where
  history := 4 / 10
  proximity := 3 / 10
  evidence := 2 / 10
  time := 1 / 10

def historyMonthsBand : FactorBand := ⟨0, 36⟩

def submissionLagDaysBand : FactorBand := ⟨0, 60⟩

def proximityScoreByTier : DirectnessTier → ℚ
  | .d5 => 100
  | .d4 => 80
  | .d3 => 60
  | .d2 => 35
  | .d1 => 15
  | .d0 => 0

def evidenceBasePoints : ClaimEvidenceType → ℚ
  | .contract => 40
  | .counterpartyAcknowledgment => 35
  | .emailThread => 20
  | .crmRecord => 15
  | .other => 5

def evidenceVerificationMultiplier : EvidenceVerificationState → ℚ
  | .selfReported => 4 / 10
  | .documentExtracted => 7 / 10
  | .apiVerified => 9 / 10
  | .counterpartyConfirmed => 1
  | .operatorVerified => 1

def evidenceScoreCeiling : ℚ := 100

def zeroAttributionTiers : List DirectnessTier := [.d0]

/-- `assertWeightsSumToOne`. -/
theorem weights_sum :
    weights.history + weights.proximity + weights.evidence + weights.time = 1 := by
  norm_num [weights]

end AttributionConfig

/-! ### Normalization -/

def clamp01 (n : ℚ) : ℚ := max 0 (min 1 n)

def assertBand (min max : ℚ) : Except Thrown Unit :=
  throwIf (max = min) (claimScoringInputError
    s!"normalization band is degenerate (min === max === {min}) — cannot normalize")

def normalize (value min max : ℚ) : Except Thrown ℚ := do
  assertBand min max
  return clamp01 ((value - min) / (max - min)) * 100

/-- Inverted: less is better. -/
def normalizeInvert (value min max : ℚ) : Except Thrown ℚ := do
  assertBand min max
  return clamp01 (1 - (value - min) / (max - min)) * 100

/-- The number that is asserted about. -/
def assertFiniteNonNegative (value : Number) (fieldName : String) : Except Thrown ℚ :=
  match value with
  | .finite x =>
    if x.value < 0 then .error (claimScoringInputError s!"{fieldName} must be >= 0, got {value}")
    else .ok x.value
  | _ => .error (claimScoringInputError s!"{fieldName} must be a finite number, got {value}")

/-! ### Evidence -/

structure EvidenceScoreResult where
  total : ℚ
  rawTotal : ℚ
  items : List ClaimEvidenceContribution

def contributionOf (item : ClaimEvidenceInput) : ℚ :=
  round1 (AttributionConfig.evidenceBasePoints item.evidenceType *
    AttributionConfig.evidenceVerificationMultiplier item.verificationState)

def scoreEvidence (items : List ClaimEvidenceInput) : EvidenceScoreResult :=
  let contributions : List ClaimEvidenceContribution := items.mapIdx fun index item ↦
    { index
      evidenceType := item.evidenceType
      verificationState := item.verificationState
      basePoints := AttributionConfig.evidenceBasePoints item.evidenceType
      multiplier := AttributionConfig.evidenceVerificationMultiplier item.verificationState
      contribution := contributionOf item }
  let rawTotal := round1 (contributions.map (·.contribution)).sum
  { total := min AttributionConfig.evidenceScoreCeiling rawTotal, rawTotal, items := contributions }

/-! ### The score -/

def scoreClaim (input : ClaimScoringInput) : Except Thrown ClaimScoreBreakdown := do
  let months ← assertFiniteNonNegative input.priorCommercialHistoryMonths
    "priorCommercialHistoryMonths"
  let lag ← assertFiniteNonNegative input.submissionLagDays "submissionLagDays"
  let historyBand := AttributionConfig.historyMonthsBand
  let lagBand := AttributionConfig.submissionLagDaysBand
  let weights := AttributionConfig.weights
  let history ← normalize months historyBand.min historyBand.max
  let proximity := AttributionConfig.proximityScoreByTier input.directnessTier
  let evidenceResult := scoreEvidence input.evidenceItems
  let time ← normalizeInvert lag lagBand.min lagBand.max
  let weighted := history * weights.history + proximity * weights.proximity +
    evidenceResult.total * weights.evidence + time * weights.time
  let isZeroAttributionTier := input.directnessTier ∈ AttributionConfig.zeroAttributionTiers
  let roundedWeighted := round1 weighted
  return {
    history := round1 history
    proximity := round1 proximity
    evidence := round1 evidenceResult.total
    time := round1 time
    weighted := roundedWeighted
    total := if isZeroAttributionTier then 0 else roundedWeighted
    evidenceBreakdown := evidenceResult.items
    algorithmVersion := AttributionConfig.algorithmVersion
    inputVersions := input.inputVersions.getD []
    cappedFrom :=
      if isZeroAttributionTier ∧ 0 < roundedWeighted then some roundedWeighted else none
    evidenceRawTotal :=
      if evidenceResult.total < evidenceResult.rawTotal then some evidenceResult.rawTotal
      else none }

/-! ### What a total is made of -/

def historyScore (months : ℚ) : ℚ :=
  clamp01 ((months - AttributionConfig.historyMonthsBand.min) /
    (AttributionConfig.historyMonthsBand.max - AttributionConfig.historyMonthsBand.min)) * 100

def timeScore (lag : ℚ) : ℚ :=
  clamp01 (1 - (lag - AttributionConfig.submissionLagDaysBand.min) /
    (AttributionConfig.submissionLagDaysBand.max - AttributionConfig.submissionLagDaysBand.min)) * 100

/-- The four factors, weighted. -/
def weightedScore (months : ℚ) (tier : DirectnessTier) (items : List ClaimEvidenceInput) (lag : ℚ) :
    ℚ :=
  historyScore months * AttributionConfig.weights.history +
    AttributionConfig.proximityScoreByTier tier * AttributionConfig.weights.proximity +
    (scoreEvidence items).total * AttributionConfig.weights.evidence +
    timeScore lag * AttributionConfig.weights.time

def claimTotal (months : ℚ) (tier : DirectnessTier) (items : List ClaimEvidenceInput)
    (lag : ℚ) : ℚ :=
  if tier ∈ AttributionConfig.zeroAttributionTiers then 0
  else round1 (weightedScore months tier items lag)

/-- A figure that passes its guard. -/
def IsFigure (value : Number) (q : ℚ) : Prop := ∃ x, value = .finite x ∧ x.value = q ∧ 0 ≤ q

theorem assertFiniteNonNegative_eq_ok_iff {value : Number} {fieldName : String} {q : ℚ} :
    assertFiniteNonNegative value fieldName = .ok q ↔ IsFigure value q := by
  rcases value with x | negative | -
  · rw [assertFiniteNonNegative]
    split_ifs with hneg
    · refine iff_of_false (by simp) ?_
      rintro ⟨y, hy, rfl, hnonneg⟩
      obtain rfl := Number.finite.inj hy
      exact absurd hneg (not_lt.2 hnonneg)
    · rw [Except.ok.injEq]
      constructor
      · rintro rfl
        exact ⟨x, rfl, rfl, not_lt.1 hneg⟩
      · rintro ⟨y, hy, rfl, -⟩
        rw [Number.finite.inj hy]
  · exact iff_of_false (by simp [assertFiniteNonNegative]) (by simp [IsFigure])
  · exact iff_of_false (by simp [assertFiniteNonNegative]) (by simp [IsFigure])

theorem normalize_history (months : ℚ) :
    normalize months AttributionConfig.historyMonthsBand.min AttributionConfig.historyMonthsBand.max =
      .ok (historyScore months) := by
  rw [normalize, assertBand, throwIf, if_neg (by norm_num [AttributionConfig.historyMonthsBand])]
  rfl

theorem normalizeInvert_lag (lag : ℚ) :
    normalizeInvert lag AttributionConfig.submissionLagDaysBand.min
      AttributionConfig.submissionLagDaysBand.max = .ok (timeScore lag) := by
  rw [normalizeInvert, assertBand, throwIf,
    if_neg (by norm_num [AttributionConfig.submissionLagDaysBand])]
  rfl

/-- **What is scored**: a claim whose figures pass their guards, with this total. -/
theorem scoreClaim_eq_ok {input : ClaimScoringInput} {b : ClaimScoreBreakdown}
    (h : scoreClaim input = .ok b) : ∃ months lag,
      IsFigure input.priorCommercialHistoryMonths months ∧ IsFigure input.submissionLagDays lag ∧
        b.total = claimTotal months input.directnessTier input.evidenceItems lag := by
  obtain ⟨months, hmonths, h⟩ := Except.bind_eq_ok'.1 h
  obtain ⟨lag, hlag, h⟩ := Except.bind_eq_ok'.1 h
  obtain ⟨_, hhistory, h⟩ := Except.bind_eq_ok'.1 h
  obtain ⟨_, htime, h⟩ := Except.bind_eq_ok'.1 h
  obtain rfl := Except.ok.inj ((normalize_history months).symm.trans hhistory)
  obtain rfl := Except.ok.inj ((normalizeInvert_lag lag).symm.trans htime)
  obtain rfl := Except.ok.inj h
  exact ⟨months, lag, assertFiniteNonNegative_eq_ok_iff.1 hmonths,
    assertFiniteNonNegative_eq_ok_iff.1 hlag, rfl⟩

theorem exists_scoreClaim_eq_ok {input : ClaimScoringInput} {months lag : ℚ}
    (hmonths : IsFigure input.priorCommercialHistoryMonths months)
    (hlag : IsFigure input.submissionLagDays lag) : ∃ b, scoreClaim input = .ok b :=
  ⟨_, Except.bind_eq_ok'.2 ⟨months, assertFiniteNonNegative_eq_ok_iff.2 hmonths,
    Except.bind_eq_ok'.2 ⟨lag, assertFiniteNonNegative_eq_ok_iff.2 hlag,
      Except.bind_eq_ok'.2 ⟨_, normalize_history months,
        Except.bind_eq_ok'.2 ⟨_, normalizeInvert_lag lag, rfl⟩⟩⟩⟩⟩

/-! ### Bounds and monotonicity -/

section

variable {x y : ℚ}

theorem clamp01_mono (h : x ≤ y) : clamp01 x ≤ clamp01 y :=
  max_le_max le_rfl (min_le_min le_rfl h)

theorem clamp01_nonneg : 0 ≤ clamp01 x := le_max_left _ _

theorem clamp01_le_one : clamp01 x ≤ 1 := max_le zero_le_one (min_le_left _ _)

theorem percent_le_hundred : clamp01 x * 100 ≤ 100 := by
  have h : clamp01 x ≤ 1 := clamp01_le_one
  linarith

theorem historyScore_mono (h : x ≤ y) : historyScore x ≤ historyScore y := by
  refine mul_le_mul_of_nonneg_right (clamp01_mono ?_) (by norm_num)
  refine div_le_div_of_nonneg_right (sub_le_sub_right h _) ?_
  norm_num [AttributionConfig.historyMonthsBand]

theorem timeScore_anti (h : x ≤ y) : timeScore y ≤ timeScore x := by
  refine mul_le_mul_of_nonneg_right (clamp01_mono (sub_le_sub_left ?_ _)) (by norm_num)
  refine div_le_div_of_nonneg_right (sub_le_sub_right h _) ?_
  norm_num [AttributionConfig.submissionLagDaysBand]

end

section

variable {items items' : List ClaimEvidenceInput} {item : ClaimEvidenceInput}

theorem evidenceBasePoints_nonneg (evidenceType : ClaimEvidenceType) :
    0 ≤ AttributionConfig.evidenceBasePoints evidenceType := by
  cases evidenceType <;> norm_num [AttributionConfig.evidenceBasePoints]

theorem evidenceVerificationMultiplier_nonneg (verificationState : EvidenceVerificationState) :
    0 ≤ AttributionConfig.evidenceVerificationMultiplier verificationState := by
  cases verificationState <;> norm_num [AttributionConfig.evidenceVerificationMultiplier]

theorem contributionOf_nonneg (item : ClaimEvidenceInput) : 0 ≤ contributionOf item :=
  round1_nonneg (mul_nonneg (evidenceBasePoints_nonneg _) (evidenceVerificationMultiplier_nonneg _))

/-- A higher multiplier contributes no less. -/
theorem contributionOf_mono {evidenceType : ClaimEvidenceType} {s s' : EvidenceVerificationState}
    (h : AttributionConfig.evidenceVerificationMultiplier s ≤
      AttributionConfig.evidenceVerificationMultiplier s') :
    contributionOf ⟨evidenceType, s⟩ ≤ contributionOf ⟨evidenceType, s'⟩ :=
  round1_mono (mul_le_mul_of_nonneg_left h (evidenceBasePoints_nonneg _))

theorem scoreEvidence_total : (scoreEvidence items).total =
    min AttributionConfig.evidenceScoreCeiling (round1 (items.map contributionOf).sum) := by
  have hcontributions : (scoreEvidence items).items.map (·.contribution) =
      items.map contributionOf := by
    refine List.ext_getElem (by simp [scoreEvidence]) fun i _ _ ↦ ?_
    simp [scoreEvidence]
  show min _ (round1 ((scoreEvidence items).items.map (·.contribution)).sum) = _
  rw [hcontributions]

theorem scoreEvidence_total_le
    (h : (items.map contributionOf).sum ≤ (items'.map contributionOf).sum) :
    (scoreEvidence items).total ≤ (scoreEvidence items').total := by
  rw [scoreEvidence_total, scoreEvidence_total]
  exact min_le_min le_rfl (round1_mono h)

theorem scoreEvidence_total_nonneg (items : List ClaimEvidenceInput) :
    0 ≤ (scoreEvidence items).total := by
  rw [scoreEvidence_total]
  refine le_min (by norm_num [AttributionConfig.evidenceScoreCeiling])
    (round1_nonneg (List.sum_nonneg ?_))
  exact List.forall_mem_map.2 fun item _ ↦ contributionOf_nonneg item

theorem scoreEvidence_total_le_hundred (items : List ClaimEvidenceInput) :
    (scoreEvidence items).total ≤ 100 := by
  rw [scoreEvidence_total]
  exact min_le_left _ _

theorem scoreEvidence_total_perm (h : items.Perm items') :
    (scoreEvidence items).total = (scoreEvidence items').total := by
  rw [scoreEvidence_total, scoreEvidence_total, (h.map contributionOf).sum_eq]

theorem scoreEvidence_total_cons :
    (scoreEvidence items).total ≤ (scoreEvidence (item :: items)).total := by
  refine scoreEvidence_total_le ?_
  rw [List.map_cons, List.sum_cons]
  exact le_add_of_nonneg_left (contributionOf_nonneg item)

/-- One item is replaced, in its place. -/
theorem scoreEvidence_total_replace {before after : List ClaimEvidenceInput}
    {item' : ClaimEvidenceInput} (h : contributionOf item ≤ contributionOf item') :
    (scoreEvidence (before ++ item :: after)).total ≤
      (scoreEvidence (before ++ item' :: after)).total := by
  refine scoreEvidence_total_le ?_
  simp only [List.map_append, List.map_cons, List.sum_append, List.sum_cons]
  exact add_le_add_right (add_le_add_left h _) _

end

/-- How far a tier is from public knowledge only. -/
def closeness : DirectnessTier → ℕ
  | .d5 => 5
  | .d4 => 4
  | .d3 => 3
  | .d2 => 2
  | .d1 => 1
  | .d0 => 0

theorem proximityScoreByTier_mono {tier tier' : DirectnessTier} (h : closeness tier ≤ closeness tier') :
    AttributionConfig.proximityScoreByTier tier ≤ AttributionConfig.proximityScoreByTier tier' := by
  revert h
  cases tier <;> cases tier' <;> norm_num [closeness, AttributionConfig.proximityScoreByTier]

theorem proximityScoreByTier_nonneg (tier : DirectnessTier) :
    0 ≤ AttributionConfig.proximityScoreByTier tier := by
  cases tier <;> norm_num [AttributionConfig.proximityScoreByTier]

theorem proximityScoreByTier_le_hundred (tier : DirectnessTier) :
    AttributionConfig.proximityScoreByTier tier ≤ 100 := by
  cases tier <;> norm_num [AttributionConfig.proximityScoreByTier]

theorem mem_zeroAttributionTiers_iff {tier : DirectnessTier} :
    tier ∈ AttributionConfig.zeroAttributionTiers ↔ closeness tier = 0 := by
  cases tier <;> decide

section

variable {months months' lag lag' : ℚ} {tier tier' : DirectnessTier}
  {items items' : List ClaimEvidenceInput}

theorem weightedScore_mono (hmonths : months ≤ months') (htier : closeness tier ≤ closeness tier')
    (hitems : (scoreEvidence items).total ≤ (scoreEvidence items').total) (hlag : lag' ≤ lag) :
    weightedScore months tier items lag ≤ weightedScore months' tier' items' lag' := by
  have hhistory := mul_le_mul_of_nonneg_right (historyScore_mono hmonths)
    (show 0 ≤ AttributionConfig.weights.history by norm_num [AttributionConfig.weights])
  have hproximity := mul_le_mul_of_nonneg_right (proximityScoreByTier_mono htier)
    (show 0 ≤ AttributionConfig.weights.proximity by norm_num [AttributionConfig.weights])
  have hevidence := mul_le_mul_of_nonneg_right hitems
    (show 0 ≤ AttributionConfig.weights.evidence by norm_num [AttributionConfig.weights])
  have htime := mul_le_mul_of_nonneg_right (timeScore_anti hlag)
    (show 0 ≤ AttributionConfig.weights.time by norm_num [AttributionConfig.weights])
  exact add_le_add (add_le_add (add_le_add hhistory hproximity) hevidence) htime

theorem weightedScore_nonneg : 0 ≤ weightedScore months tier items lag := by
  have hhistory : 0 ≤ historyScore months := mul_nonneg clamp01_nonneg (by norm_num)
  have htime : 0 ≤ timeScore lag := mul_nonneg clamp01_nonneg (by norm_num)
  have hproximity := proximityScoreByTier_nonneg tier
  have hevidence := scoreEvidence_total_nonneg items
  rw [weightedScore, AttributionConfig.weights]
  positivity

/-- The weights sum to one and every factor is at most 100. -/
theorem weightedScore_le_hundred : weightedScore months tier items lag ≤ 100 := by
  have hhistory : historyScore months ≤ 100 := percent_le_hundred
  have htime : timeScore lag ≤ 100 := percent_le_hundred
  have hproximity := proximityScoreByTier_le_hundred tier
  have hevidence := scoreEvidence_total_le_hundred items
  rw [weightedScore, AttributionConfig.weights]
  linarith

theorem claimTotal_nonneg : 0 ≤ claimTotal months tier items lag := by
  rw [claimTotal]
  split_ifs with hzero
  · exact le_rfl
  · exact round1_nonneg weightedScore_nonneg

/-- **Each step of a total is monotone**, and the override keeps it so: a tier as close as one that
scores is one that scores. -/
theorem claimTotal_le (hmonths : months ≤ months') (htier : closeness tier ≤ closeness tier')
    (hitems : (scoreEvidence items).total ≤ (scoreEvidence items').total) (hlag : lag' ≤ lag) :
    claimTotal months tier items lag ≤ claimTotal months' tier' items' lag' := by
  by_cases hzero : tier ∈ AttributionConfig.zeroAttributionTiers
  · rw [claimTotal, if_pos hzero]
    exact claimTotal_nonneg
  · have hzero' : tier' ∉ AttributionConfig.zeroAttributionTiers := by
      rw [mem_zeroAttributionTiers_iff] at hzero ⊢
      omega
    rw [claimTotal, claimTotal, if_neg hzero, if_neg hzero']
    exact round1_mono (weightedScore_mono hmonths htier hitems hlag)

theorem claimTotal_le_hundred : claimTotal months tier items lag ≤ 100 := by
  rw [claimTotal]
  split_ifs with hzero
  · norm_num
  · exact round1_le_hundred weightedScore_le_hundred

end

/-! ### The claim's score -/

/-- What the score of a claim keeps to, against the scores of the claims that differ from it in one
respect. -/
structure IsMonotoneScore (input : ClaimScoringInput) (score : ClaimScoreBreakdown) : Prop where
  bounded : 0 ≤ score.total ∧ score.total ≤ 100
  zero_of_d0 : input.directnessTier = .d0 → score.total = 0
  history : ∀ months score', input.priorCommercialHistoryMonths < months →
    scoreClaim { input with priorCommercialHistoryMonths := months } = .ok score' →
      score.total ≤ score'.total
  tier : ∀ tier score', closeness input.directnessTier ≤ closeness tier →
    scoreClaim { input with directnessTier := tier } = .ok score' → score.total ≤ score'.total
  added : ∀ item items score', items.Perm (item :: input.evidenceItems) →
    scoreClaim { input with evidenceItems := items } = .ok score' → score.total ≤ score'.total
  verified : ∀ before evidenceType s s' after score',
    input.evidenceItems = before ++ ⟨evidenceType, s⟩ :: after →
    AttributionConfig.evidenceVerificationMultiplier s ≤
      AttributionConfig.evidenceVerificationMultiplier s' →
    scoreClaim { input with evidenceItems := before ++ ⟨evidenceType, s'⟩ :: after } = .ok score' →
      score.total ≤ score'.total
  lag : ∀ days score', input.submissionLagDays < days →
    scoreClaim { input with submissionLagDays := days } = .ok score' → score'.total ≤ score.total
  permuted : ∀ items score', items.Perm input.evidenceItems →
    scoreClaim { input with evidenceItems := items } = .ok score' → score'.total = score.total

theorem IsFigure.eq {value : Number} {q q' : ℚ} (h : IsFigure value q) (h' : IsFigure value q') :
    q = q' := by
  obtain ⟨x, rfl, rfl, -⟩ := h
  obtain ⟨y, hy, rfl, -⟩ := h'
  rw [Number.finite.inj hy]

theorem total_eq {input : ClaimScoringInput} {score : ClaimScoreBreakdown} {months lag : ℚ}
    (h : scoreClaim input = .ok score)
    (hmonths : IsFigure input.priorCommercialHistoryMonths months)
    (hlag : IsFigure input.submissionLagDays lag) :
    score.total = claimTotal months input.directnessTier input.evidenceItems lag := by
  obtain ⟨_, _, hmonths', hlag', htotal⟩ := scoreClaim_eq_ok h
  rw [htotal, hmonths.eq hmonths', hlag.eq hlag']

theorem IsFigure.le_of_lt {value value' : Number} {q q' : ℚ} (h : IsFigure value q)
    (h' : IsFigure value' q') (hlt : value < value') : q ≤ q' := by
  obtain ⟨x, rfl, rfl, -⟩ := h
  obtain ⟨y, rfl, rfl, -⟩ := h'
  exact (Number.finite_lt_finite.1 hlt).le

/-- **The score of a claim is bounded and monotone**, whatever is claimed. -/
theorem scoreClaim_isMonotone {input : ClaimScoringInput} {months lag : ℚ}
    (hmonths : IsFigure input.priorCommercialHistoryMonths months)
    (hlag : IsFigure input.submissionLagDays lag) :
    ∃ score, scoreClaim input = .ok score ∧ IsMonotoneScore input score := by
  obtain ⟨score, hscore⟩ := exists_scoreClaim_eq_ok hmonths hlag
  have htotal := total_eq hscore hmonths hlag
  refine ⟨score, hscore, ?_⟩
  constructor
  case bounded => exact htotal ▸ ⟨claimTotal_nonneg, claimTotal_le_hundred⟩
  case zero_of_d0 =>
    intro htier
    rw [htotal, htier]
    rfl
  case history =>
    intro value score' hlt hscore'
    obtain ⟨months', _, hmonths', -, -⟩ := scoreClaim_eq_ok hscore'
    rw [htotal, total_eq hscore' hmonths' hlag]
    exact claimTotal_le (hmonths.le_of_lt hmonths' hlt) le_rfl le_rfl le_rfl
  case tier =>
    intro tier score' hle hscore'
    rw [htotal, total_eq hscore' hmonths hlag]
    exact claimTotal_le le_rfl hle le_rfl le_rfl
  case added =>
    intro item items score' hperm hscore'
    rw [htotal, total_eq hscore' hmonths hlag]
    refine claimTotal_le le_rfl le_rfl ?_ le_rfl
    show (scoreEvidence input.evidenceItems).total ≤ (scoreEvidence items).total
    rw [scoreEvidence_total_perm hperm]
    exact scoreEvidence_total_cons
  case verified =>
    intro before evidenceType s s' after score' hitems hle hscore'
    rw [htotal, total_eq hscore' hmonths hlag, hitems]
    exact claimTotal_le le_rfl le_rfl (scoreEvidence_total_replace (contributionOf_mono hle)) le_rfl
  case lag =>
    intro value score' hlt hscore'
    obtain ⟨_, lag', -, hlag', -⟩ := scoreClaim_eq_ok hscore'
    rw [htotal, total_eq hscore' hmonths hlag']
    exact claimTotal_le le_rfl le_rfl le_rfl (hlag.le_of_lt hlag' hlt)
  case permuted =>
    intro items score' hperm hscore'
    have heq := scoreEvidence_total_perm hperm
    rw [htotal, total_eq hscore' hmonths hlag]
    exact le_antisymm (claimTotal_le le_rfl le_rfl heq.le le_rfl)
      (claimTotal_le le_rfl le_rfl heq.ge le_rfl)

namespace Sample

/-- Eighteen months of history, two items and a week of lag. -/
def scored : ClaimScoringInput where
  priorCommercialHistoryMonths := .finite (Double.ofInt 18 (by decide))
  directnessTier := .d4
  evidenceItems := [⟨.contract, .apiVerified⟩, ⟨.emailThread, .selfReported⟩]
  submissionLagDays := .finite (Double.ofInt 7 (by decide))

theorem scoreClaim_isMonotone_scored :
    ∃ score, scoreClaim scored = .ok score ∧ IsMonotoneScore scored score :=
  scoreClaim_isMonotone (⟨_, rfl, by norm_num [Double.ofInt], by norm_num⟩ : IsFigure _ 18)
    (⟨_, rfl, by norm_num [Double.ofInt], by norm_num⟩ : IsFigure _ 7)

end Sample

end TolPlatform.Attribution
