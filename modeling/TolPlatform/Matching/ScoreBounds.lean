import Mathlib.Algebra.Order.BigOperators.Group.List
import TolPlatform.Matching.Scoring

/-!
# Bounds on a score

`scoreMatch` rounds a factor score, the score times its weight, and the sum. What that leaves of the
weighted sum is said of `totalOf`, for any nine scores: it is monotone in each, stays between 0 and 100
if they do, and is within `1 / 2` of the weighted sum of what they were rounded from
(`abs_totalOf_sub_le`).

One factor rests on a quotient of two `bigint`s, which the source takes of doubles. `totalWith` has it
as an argument, so that `exactTotal` is the total over exact rationals and `scoreMatch_total` the one of
the model, and everything that is not about the quotient is proved once (`VolumeFit`). They agree where
the quotient is exact (`scoreMatch_total_eq`).
-/

/-- Terms that are close have sums that are. -/
theorem List.abs_sum_map_sub_le {α : Type*} {f g error : α → ℚ} {l : List α}
    (h : ∀ a ∈ l, |f a - g a| ≤ error a) :
    |(l.map f).sum - (l.map g).sum| ≤ (l.map error).sum := by
  induction l with
  | nil => simp
  | cons a l ih =>
    rw [forall_mem_cons] at h
    have hrest := ih h.2
    simp only [map_cons, sum_cons]
    calc |f a + (l.map f).sum - (g a + (l.map g).sum)|
        = |f a - g a + ((l.map f).sum - (l.map g).sum)| := by rw [add_sub_add_comm]
      _ ≤ |f a - g a| + |(l.map f).sum - (l.map g).sum| := abs_add_le _ _
      _ ≤ error a + (l.map error).sum := add_le_add h.1 hrest

namespace TolPlatform

/-- A sum of tenths is one of tenths, and stays as it is. -/
theorem round1_sum_round1 {α : Type*} (f : α → ℚ) (l : List α) :
    round1 (l.map fun a ↦ round1 (f a)).sum = (l.map fun a ↦ round1 (f a)).sum := by
  have htenths : ∃ n : Int, (l.map fun a ↦ round1 (f a)).sum = n / 10 := by
    induction l with
    | nil => exact ⟨0, by simp⟩
    | cons a l ih =>
      obtain ⟨n, hn⟩ := ih
      refine ⟨mathRound (f a * 10) + n, ?_⟩
      rw [List.map_cons, List.sum_cons, hn, round1]
      push_cast
      ring
  obtain ⟨n, hn⟩ := htenths
  rw [hn, round1_tenths]

/-! ### Nine scores, weighted -/

def totalOf (score : RankingFactor → ℚ) : ℚ :=
  round1 (rankingFactors.map fun factor ↦
    round1 (score factor * MatchingConfig.rankingWeights factor)).sum

def weightedSum (score : RankingFactor → ℚ) : ℚ :=
  (rankingFactors.map fun factor ↦ score factor * MatchingConfig.rankingWeights factor).sum

theorem rankingWeights_nonneg (factor : RankingFactor) :
    0 ≤ MatchingConfig.rankingWeights factor := by
  cases factor <;> norm_num [MatchingConfig.rankingWeights]

theorem totalOf_mono {score score' : RankingFactor → ℚ} (h : ∀ factor, score factor ≤ score' factor) :
    totalOf score ≤ totalOf score' := by
  refine round1_mono (List.sum_le_sum fun factor _ ↦ ?_)
  exact round1_mono (mul_le_mul_of_nonneg_right (h factor) (rankingWeights_nonneg factor))

theorem totalOf_mem {score : RankingFactor → ℚ} (h : ∀ factor, 0 ≤ score factor ∧ score factor ≤ 100) :
    0 ≤ totalOf score ∧ totalOf score ≤ 100 := by
  have hzero : totalOf (fun _ ↦ 0) = 0 := by decide +kernel
  have hhundred : totalOf (fun _ ↦ 100) = 100 := by decide +kernel
  exact ⟨hzero ▸ totalOf_mono fun factor ↦ (h factor).1,
    hhundred ▸ totalOf_mono fun factor ↦ (h factor).2⟩

/-- Totals that agree, from scores that differ in one factor: it contributes alike. -/
theorem contribution_eq_of_totalOf_eq {score score' : RankingFactor → ℚ} {factor : RankingFactor}
    (hrest : ∀ other ≠ factor, score other = score' other) (h : totalOf score = totalOf score') :
    round1 (score factor * MatchingConfig.rankingWeights factor) =
      round1 (score' factor * MatchingConfig.rankingWeights factor) := by
  have hmem : factor ∈ rankingFactors := by cases factor <;> decide
  have hothers : (rankingFactors.erase factor).map (fun other ↦
        round1 (score other * MatchingConfig.rankingWeights other)) =
      (rankingFactors.erase factor).map fun other ↦
        round1 (score' other * MatchingConfig.rankingWeights other) := by
    refine List.map_congr_left fun other hother ↦ ?_
    have hne : other ≠ factor := ((by decide : rankingFactors.Nodup).mem_erase_iff.1 hother).1
    rw [hrest other hne]
  rw [totalOf, totalOf, round1_sum_round1, round1_sum_round1,
    ← List.sum_map_erase _ hmem, ← List.sum_map_erase _ hmem, hothers] at h
  exact add_right_cancel h

/-- A score that is rounded moves its contribution by at most a twentieth of the weight, and rounding
the contribution moves it by a twentieth. -/
theorem abs_contribution_sub_le (x : ℚ) (factor : RankingFactor) :
    |round1 (round1 x * MatchingConfig.rankingWeights factor) -
      x * MatchingConfig.rankingWeights factor| ≤
      1 / 20 + 1 / 20 * MatchingConfig.rankingWeights factor := by
  have hweight := rankingWeights_nonneg factor
  have hscore : |round1 x * MatchingConfig.rankingWeights factor -
      x * MatchingConfig.rankingWeights factor| ≤ 1 / 20 * MatchingConfig.rankingWeights factor := by
    rw [← sub_mul, abs_mul, abs_of_nonneg hweight]
    exact mul_le_mul_of_nonneg_right (abs_round1_sub_le _) hweight
  exact (abs_sub_le _ _ _).trans (add_le_add (abs_round1_sub_le _) hscore)

/-- The sum of the contributions is not moved by rounding it. -/
theorem abs_totalOf_sub_le (score : RankingFactor → ℚ) :
    |totalOf (fun factor ↦ round1 (score factor)) - weightedSum score| ≤ 1 / 2 := by
  have herrors : (rankingFactors.map fun factor ↦
      1 / 20 + 1 / 20 * MatchingConfig.rankingWeights factor).sum = 1 / 2 := by
    norm_num [rankingFactors, MatchingConfig.rankingWeights]
  rw [totalOf, round1_sum_round1, ← herrors]
  exact List.abs_sum_map_sub_le fun factor _ ↦ abs_contribution_sub_le (score factor) factor

/-! ### The factors -/

section

variable {x y : ℚ} {band : Band}

theorem clamp0to100_mono (h : x ≤ y) : clamp0to100 x ≤ clamp0to100 y :=
  max_le_max le_rfl (min_le_min le_rfl h)

theorem clamp0to100_mem (x : ℚ) : 0 ≤ clamp0to100 x ∧ clamp0to100 x ≤ 100 :=
  ⟨le_max_left _ _, max_le (by norm_num) (min_le_left _ _)⟩

theorem position_mono (h : x ≤ y) : band.position x ≤ band.position y := by
  have hwidth : (band.min : ℚ) < band.max := by exact_mod_cast band.min_lt_max
  exact div_le_div_of_nonneg_right (sub_le_sub_right h _) (sub_nonneg.2 hwidth.le)

theorem normalize_mono (h : x ≤ y) : normalize x band ≤ normalize y band :=
  clamp0to100_mono (mul_le_mul_of_nonneg_right (position_mono h) (by norm_num))

theorem normalizeInvert_anti (h : x ≤ y) : normalizeInvert y band ≤ normalizeInvert x band :=
  clamp0to100_mono (mul_le_mul_of_nonneg_right (sub_le_sub_left (position_mono h) _) (by norm_num))

theorem round1_mem (h : 0 ≤ x ∧ x ≤ 100) : 0 ≤ round1 x ∧ round1 x ≤ 100 :=
  ⟨round1_nonneg h.1, round1_le_hundred h.2⟩

end

variable {opportunity : MatchOpportunityInput} {capacity capacity' : MatchCapacityInput}
  {context context' : MatchContext}

/-- The merchant's rates, as shares of their ceilings. -/
def utilizations (capacity : MatchCapacityInput) (context : MatchContext) : List ℚ :=
  let profile := context.merchantRiskProfile.getD {}
  utilization profile.chargebackBps capacity.maxChargebackBps ++
    utilization profile.fraudBps capacity.maxFraudBps ++
    utilization profile.refundBps capacity.maxRefundBps

/-- The nine scores before they are rounded, over exact rationals. -/
def unroundedScore (opportunity : MatchOpportunityInput) (capacity : MatchCapacityInput)
    (context : MatchContext) : RankingFactor → ℚ
  | .mccProductFit =>
    let matched := overlapCount opportunity.mccs capacity.mccsAccepted
    let extras := capacity.mccsAccepted.length - matched
    let penalty := min MatchingConfig.mccSpecificityPenaltyCap
      (extras * MatchingConfig.mccSpecificityPenaltyPerExtra)
    if opportunity.mccs = [] then 0
    else clamp0to100 (matched / opportunity.mccs.length * 100 - penalty)
  | .geographyLicensingFit =>
    if opportunity.jurisdictions = [] then 0
    else overlapCount opportunity.jurisdictions capacity.jurisdictions /
      opportunity.jurisdictions.length * 100
  | .volumeTicketFit =>
    if opportunity.currency ≠ capacity.currency then MatchingConfig.neutralFactorDefault
    else if opportunity.movable30dMinor = 0 then MatchingConfig.neutralFactorDefault
    else normalize (capacity.monthlyCapacityMinor / opportunity.movable30dMinor)
      MatchingConfig.volumeHeadroomRatioBand
  | .riskHistoryFit =>
    if utilizations capacity context = [] then MatchingConfig.riskHistoryFitNeutralDefault
    else clamp0to100 ((1 - (utilizations capacity context).sum /
      (utilizations capacity context).length) * 100)
  | .settlementCurrencyFit =>
    if opportunity.currency ≠ capacity.currency then 0
    else normalizeInvert capacity.settlementCadenceDays MatchingConfig.settlementCadenceDaysBand
  | .commercialUtility =>
    match capacity.commercialTerms with
    | none => MatchingConfig.neutralFactorDefault
    | some terms => normalizeInvert terms.mdrBps MatchingConfig.commercialUtilityFeeBpsBand
  | .technicalLaunchFit => MatchingConfig.technicalLaunchFitNeutralDefault
  | .providerReliabilityFreshness => scoreByFreshness capacity.freshnessClass
  | .outcomeCalibratedLikelihood => MatchingConfig.outcomeCalibratedLikelihoodPlaceholder

/-- `scoreVolumeTicketFit` over exact rationals. -/
def exactVolumeTicketFit (opportunity : MatchOpportunityInput) (capacity : MatchCapacityInput) : ℚ :=
  if opportunity.currency ≠ capacity.currency then MatchingConfig.neutralFactorDefault
  else if opportunity.movable30dMinor = 0 then MatchingConfig.neutralFactorDefault
  else round1 (normalize (capacity.monthlyCapacityMinor / opportunity.movable30dMinor)
    MatchingConfig.volumeHeadroomRatioBand)

/-- The nine scores, with the volume factor as given. -/
def scoreWith (volume : MatchOpportunityInput → MatchCapacityInput → ℚ)
    (opportunity : MatchOpportunityInput) (capacity : MatchCapacityInput) (context : MatchContext) :
    RankingFactor → ℚ
  | .volumeTicketFit => volume opportunity capacity
  | factor => (factorScore opportunity capacity context factor).score

def totalWith (volume : MatchOpportunityInput → MatchCapacityInput → ℚ)
    (opportunity : MatchOpportunityInput) (capacity : MatchCapacityInput) (context : MatchContext) :
    ℚ :=
  totalOf (scoreWith volume opportunity capacity context)

/-- The total of a match over exact rationals. -/
def exactTotal : MatchOpportunityInput → MatchCapacityInput → MatchContext → ℚ :=
  totalWith exactVolumeTicketFit

theorem scoreMatch_total : (scoreMatch opportunity capacity context).total =
    totalWith (fun opportunity capacity ↦ (scoreVolumeTicketFit opportunity capacity).score)
      opportunity capacity context := by
  have hscore : (fun factor ↦ (factorScore opportunity capacity context factor).score) =
      scoreWith (fun opportunity capacity ↦ (scoreVolumeTicketFit opportunity capacity).score)
        opportunity capacity context := by
    funext factor
    cases factor <;> rfl
  rw [totalWith, ← hscore]
  rfl

/-- **Over exact rationals the total is the model's**, where the quotient of the doubles is exact. -/
theorem scoreMatch_total_eq {x : Double}
    (hratio : bigintRatio capacity.monthlyCapacityMinor opportunity.movable30dMinor = .finite x)
    (hexact : x.value = capacity.monthlyCapacityMinor / opportunity.movable30dMinor) :
    (scoreMatch opportunity capacity context).total = exactTotal opportunity capacity context := by
  have hvolume : (scoreVolumeTicketFit opportunity capacity).score =
      exactVolumeTicketFit opportunity capacity := by
    rw [scoreVolumeTicketFit, exactVolumeTicketFit, hratio, ← hexact]
    split_ifs <;> rfl
  rw [scoreMatch_total]
  refine congrArg totalOf (funext fun factor ↦ ?_)
  cases factor with
  | volumeTicketFit => exact hvolume
  | _ => rfl

/-! ### Rounded scores -/

/-- The other eight scores are rounded, or whole. -/
theorem factorScore_eq_round1 {factor : RankingFactor} (h : factor ≠ .volumeTicketFit) :
    (factorScore opportunity capacity context factor).score =
      round1 (unroundedScore opportunity capacity context factor) := by
  have hzero : round1 0 = 0 := round1_intCast 0
  have hneutral : round1 50 = 50 := round1_intCast 50
  cases factor with
  | mccProductFit =>
    show (scoreMccProductFit opportunity capacity).score = _
    rw [scoreMccProductFit, unroundedScore]
    split_ifs
    · exact hzero.symm
    · rfl
  | geographyLicensingFit =>
    show (scoreGeographyLicensingFit opportunity capacity).score = _
    rw [scoreGeographyLicensingFit, unroundedScore]
    split_ifs
    · exact hzero.symm
    · rfl
  | volumeTicketFit => exact absurd rfl h
  | riskHistoryFit =>
    show (scoreRiskHistoryFit capacity context).score = _
    rw [scoreRiskHistoryFit, unroundedScore, utilizations]
    split_ifs
    · exact hneutral.symm
    · rfl
  | settlementCurrencyFit =>
    show (scoreSettlementCurrencyFit opportunity capacity).score = _
    rw [scoreSettlementCurrencyFit, unroundedScore]
    split_ifs
    · exact hzero.symm
    · rfl
  | commercialUtility =>
    show (scoreCommercialUtility capacity).score = _
    rw [scoreCommercialUtility, unroundedScore]
    cases capacity.commercialTerms with
    | none => exact hneutral.symm
    | some terms => rfl
  | technicalLaunchFit => exact (round1_intCast 70).symm
  | providerReliabilityFreshness =>
    show scoreByFreshness capacity.freshnessClass = round1 (scoreByFreshness capacity.freshnessClass)
    cases capacity.freshnessClass with
    | fresh => exact (round1_intCast 100).symm
    | aging => exact (round1_intCast 60).symm
    | stale => exact (round1_intCast 20).symm
    | unknown => exact hzero.symm
  | outcomeCalibratedLikelihood => exact hneutral.symm

theorem exactTotal_eq : exactTotal opportunity capacity context =
    totalOf fun factor ↦ round1 (unroundedScore opportunity capacity context factor) := by
  refine congrArg totalOf (funext fun factor ↦ ?_)
  cases factor with
  | volumeTicketFit =>
    have hneutral : round1 50 = 50 := round1_intCast 50
    show exactVolumeTicketFit opportunity capacity = _
    rw [exactVolumeTicketFit, unroundedScore]
    split_ifs
    · exact hneutral.symm
    · exact hneutral.symm
    · rfl
  | _ => exact factorScore_eq_round1 (by simp)

/-! ### Bounds on the factors -/

/-- What the volume factor has to keep to: its range, and that it grows with the capacity alone. -/
structure VolumeFit (volume : MatchOpportunityInput → MatchCapacityInput → ℚ) : Prop where
  mem : ∀ opportunity capacity, 0 ≤ volume opportunity capacity ∧ volume opportunity capacity ≤ 100
  mono : ∀ opportunity capacity capacity', capacity'.currency = capacity.currency →
    0 ≤ opportunity.movable30dMinor → 0 ≤ capacity.monthlyCapacityMinor →
    capacity.monthlyCapacityMinor ≤ capacity'.monthlyCapacityMinor →
      volume opportunity capacity ≤ volume opportunity capacity'

theorem neutral_mem : (0 : ℚ) ≤ 50 ∧ (50 : ℚ) ≤ 100 := by norm_num

theorem scoreMccProductFit_mem : 0 ≤ (scoreMccProductFit opportunity capacity).score ∧
    (scoreMccProductFit opportunity capacity).score ≤ 100 := by
  rw [scoreMccProductFit]
  split_ifs
  · exact ⟨le_rfl, by norm_num⟩
  · exact round1_mem (clamp0to100_mem _)

theorem scoreGeographyLicensingFit_mem : 0 ≤ (scoreGeographyLicensingFit opportunity capacity).score ∧
    (scoreGeographyLicensingFit opportunity capacity).score ≤ 100 := by
  rw [scoreGeographyLicensingFit]
  split_ifs
  · exact ⟨le_rfl, by norm_num⟩
  · have hcovered : ((overlapCount opportunity.jurisdictions capacity.jurisdictions : ℕ) : ℚ) ≤
        opportunity.jurisdictions.length := by
      exact_mod_cast List.length_filter_le _ _
    have hcoverage := div_le_one_of_le₀ hcovered (Nat.cast_nonneg _)
    refine round1_mem ⟨by positivity, ?_⟩
    linarith

theorem scoreRiskHistoryFit_mem : 0 ≤ (scoreRiskHistoryFit capacity context).score ∧
    (scoreRiskHistoryFit capacity context).score ≤ 100 := by
  rw [scoreRiskHistoryFit]
  split_ifs
  · exact neutral_mem
  · exact round1_mem (clamp0to100_mem _)

theorem scoreSettlementCurrencyFit_mem : 0 ≤ (scoreSettlementCurrencyFit opportunity capacity).score ∧
    (scoreSettlementCurrencyFit opportunity capacity).score ≤ 100 := by
  rw [scoreSettlementCurrencyFit]
  split_ifs
  · exact ⟨le_rfl, by norm_num⟩
  · exact round1_mem (clamp0to100_mem _)

theorem scoreCommercialUtility_mem : 0 ≤ (scoreCommercialUtility capacity).score ∧
    (scoreCommercialUtility capacity).score ≤ 100 := by
  rw [scoreCommercialUtility]
  cases capacity.commercialTerms with
  | none => exact neutral_mem
  | some terms => exact round1_mem (clamp0to100_mem _)

theorem scoreByFreshness_mem (freshnessClass : FreshnessClass) :
    0 ≤ scoreByFreshness freshnessClass ∧ scoreByFreshness freshnessClass ≤ 100 := by
  cases freshnessClass <;> norm_num [scoreByFreshness]

theorem totalWith_mem {volume : MatchOpportunityInput → MatchCapacityInput → ℚ}
    (hvolume : VolumeFit volume) :
    0 ≤ totalWith volume opportunity capacity context ∧
      totalWith volume opportunity capacity context ≤ 100 := by
  refine totalOf_mem fun factor ↦ ?_
  cases factor with
  | mccProductFit => exact scoreMccProductFit_mem
  | geographyLicensingFit => exact scoreGeographyLicensingFit_mem
  | volumeTicketFit => exact hvolume.mem opportunity capacity
  | riskHistoryFit => exact scoreRiskHistoryFit_mem
  | settlementCurrencyFit => exact scoreSettlementCurrencyFit_mem
  | commercialUtility => exact scoreCommercialUtility_mem
  | technicalLaunchFit =>
    exact (by norm_num : (0 : ℚ) ≤ 70 ∧ (70 : ℚ) ≤ 100)
  | providerReliabilityFreshness => exact scoreByFreshness_mem capacity.freshnessClass
  | outcomeCalibratedLikelihood => exact neutral_mem

/-! ### Monotonicity of the factors -/

theorem scoreSettlementCurrencyFit_anti {days : Int} (h : capacity.settlementCadenceDays ≤ days) :
    (scoreSettlementCurrencyFit opportunity { capacity with settlementCadenceDays := days }).score ≤
      (scoreSettlementCurrencyFit opportunity capacity).score := by
  rw [scoreSettlementCurrencyFit, scoreSettlementCurrencyFit]
  by_cases hcurrency : opportunity.currency ≠ capacity.currency
  · rw [if_pos hcurrency, if_pos hcurrency]
  · rw [if_neg hcurrency, if_neg hcurrency]
    exact round1_mono (normalizeInvert_anti (by exact_mod_cast h))

theorem scoreCommercialUtility_anti {terms : MatchCommercialTerms} {mdrBps : Int}
    (hterms : capacity.commercialTerms = some terms) (h : terms.mdrBps ≤ mdrBps) :
    (scoreCommercialUtility
      { capacity with commercialTerms := some { terms with mdrBps := mdrBps } }).score ≤
      (scoreCommercialUtility capacity).score := by
  rw [scoreCommercialUtility, scoreCommercialUtility, hterms]
  exact round1_mono (normalizeInvert_anti (by exact_mod_cast h))

/-- A rate that is known and rises: as many shares, and a larger sum. -/
theorem utilization_mono {bps bps' ceiling : Int} (h : bps ≤ bps') :
    List.Forall₂ (· ≤ ·) (utilization (some bps) ceiling) (utilization (some bps') ceiling) := by
  rw [utilization, utilization]
  split_ifs with hceiling
  · refine .cons ?_ .nil
    exact div_le_div_of_nonneg_right (by exact_mod_cast h) (by exact_mod_cast hceiling.le)
  · exact .nil

theorem scoreRiskHistoryFit_anti
    (h : List.Forall₂ (· ≤ ·) (utilizations capacity context) (utilizations capacity context')) :
    (scoreRiskHistoryFit capacity context').score ≤ (scoreRiskHistoryFit capacity context).score := by
  have hlength := h.length_eq
  have hempty : utilizations capacity context' = [] ↔ utilizations capacity context = [] := by
    rw [← List.length_eq_zero_iff, ← hlength, List.length_eq_zero_iff]
  show (if utilizations capacity context' = [] then _ else _ : FactorScore).score ≤
    (if utilizations capacity context = [] then _ else _ : FactorScore).score
  by_cases hnone : utilizations capacity context = []
  · rw [if_pos (hempty.2 hnone), if_pos hnone]
  · rw [if_neg (hempty.not.2 hnone), if_neg hnone]
    refine round1_mono (clamp0to100_mono (mul_le_mul_of_nonneg_right ?_ (by norm_num)))
    refine sub_le_sub_left ?_ _
    show (utilizations capacity context).sum / ((utilizations capacity context).length : ℕ) ≤
      (utilizations capacity context').sum / ((utilizations capacity context').length : ℕ)
    rw [hlength]
    exact div_le_div_of_nonneg_right (List.Forall₂.sum_le_sum h) (Nat.cast_nonneg _)

/-! ### The volume factor -/

theorem exactVolumeTicketFit_volumeFit : VolumeFit exactVolumeTicketFit where
  mem opportunity capacity := by
    rw [exactVolumeTicketFit]
    split_ifs
    · exact neutral_mem
    · exact neutral_mem
    · exact round1_mem (clamp0to100_mem _)
  mono opportunity capacity capacity' hcurrency hmovable _ hle := by
    rw [exactVolumeTicketFit, exactVolumeTicketFit, hcurrency]
    split_ifs
    · exact le_rfl
    · exact le_rfl
    · refine round1_mono (normalize_mono ?_)
      exact div_le_div_of_nonneg_right (by exact_mod_cast hle) (by exact_mod_cast hmovable)

/-- The score of a headroom ratio, before it is rounded. -/
def headroomScore : Number → ℚ
  | .finite x => normalize x.value MatchingConfig.volumeHeadroomRatioBand
  | _ => 100

theorem headroomScore_mem (ratio : Number) : 0 ≤ headroomScore ratio ∧ headroomScore ratio ≤ 100 := by
  rcases ratio with x | negative | -
  · exact clamp0to100_mem _
  · exact ⟨by norm_num [headroomScore], le_rfl⟩
  · exact ⟨by norm_num [headroomScore], le_rfl⟩

/-- A quotient that overflows scores as if it did not end. -/
theorem headroomScore_round_mono {p q : ℚ} (hp : 0 ≤ p) (h : p ≤ q) :
    headroomScore (.round p) ≤ headroomScore (.round q) := by
  have hnot := Number.not_round_lt_of_le hp h
  rcases Number.round_cases (hp.trans h) with ⟨y, hy, -⟩ | ⟨hy, -⟩
  · rw [hy] at hnot ⊢
    rcases Number.round_cases hp with ⟨x, hx, -⟩ | ⟨hx, -⟩
    · rw [hx, Number.finite_lt_finite, not_lt] at hnot
      rw [hx]
      exact normalize_mono hnot
    · rw [hx] at hnot
      exact absurd rfl hnot
  · rw [hy]
    exact (headroomScore_mem _).2

theorem headroomScore_div_mono {m m' n : Int} (hm : 0 ≤ m) (hle : m ≤ m') (hn : 0 < n) :
    headroomScore ((toNumber m).div (toNumber n)) ≤ headroomScore ((toNumber m').div (toNumber n)) := by
  have hm' : 0 ≤ m' := hm.trans hle
  have hnot := not_toNumber_lt_of_le hm hle
  rcases Number.round_cases (show (0 : ℚ) ≤ m' by exact_mod_cast hm') with ⟨x', hx', hvalue'⟩ | ⟨hx', -⟩
  · -- the numerators are numbers, and one quotient is as finite as the other
    obtain ⟨x, hx, hvalue⟩ : ∃ x : Double, toNumber m = .finite x ∧
        x.value = binary64.round (m : ℚ) := by
      rcases Number.round_cases (show (0 : ℚ) ≤ m by exact_mod_cast hm) with hfinite | ⟨hinfinite, -⟩
      · exact hfinite
      · rw [toNumber, toNumber, hx', hinfinite] at hnot
        exact absurd rfl hnot
    have hx0 : 0 ≤ x.value := hvalue ▸ binary64.round_nonneg (by exact_mod_cast hm)
    have hxx' : x.value ≤ x'.value := by
      rw [hvalue, hvalue']
      exact binary64.round_mono (by exact_mod_cast hm) (by exact_mod_cast hle)
    rw [hx, show toNumber m' = .finite x' from hx']
    rcases Number.round_cases (show (0 : ℚ) ≤ n by exact_mod_cast hn.le) with ⟨y, hy, hy'⟩ | ⟨hy, -⟩
    · have hypos : 0 < y.value := by
        rw [hy']
        exact zero_lt_one.trans_le
          (binary64.le_round (binary64.has_one (by decide)) zero_le_one (by exact_mod_cast hn))
      rw [show toNumber n = .finite y from hy, Number.div, Number.div, if_pos hypos.ne',
        if_pos hypos.ne']
      exact headroomScore_round_mono (div_nonneg hx0 hypos.le)
        (div_le_div_of_nonneg_right hxx' hypos.le)
    · rw [show toNumber n = .infinity false from hy]
      exact le_rfl
  · -- a numerator that overflows makes a quotient that is not a number
    have hhundred : headroomScore ((toNumber m').div (toNumber n)) = 100 := by
      rw [show toNumber m' = .infinity false from hx']
      rcases toNumber n with y | negative | - <;> rfl
    rw [hhundred]
    exact (headroomScore_mem _).2

theorem scoreVolumeTicketFit_score : (scoreVolumeTicketFit opportunity capacity).score =
    if opportunity.currency ≠ capacity.currency then MatchingConfig.neutralFactorDefault
    else if opportunity.movable30dMinor = 0 then MatchingConfig.neutralFactorDefault
    else round1 (headroomScore
      (bigintRatio capacity.monthlyCapacityMinor opportunity.movable30dMinor)) := by
  rw [scoreVolumeTicketFit]
  split_ifs
  · rfl
  · rfl
  · rfl

theorem scoreVolumeTicketFit_volumeFit :
    VolumeFit fun opportunity capacity ↦ (scoreVolumeTicketFit opportunity capacity).score where
  mem opportunity capacity := by
    rw [scoreVolumeTicketFit_score]
    split_ifs
    · exact neutral_mem
    · exact neutral_mem
    · exact round1_mem (headroomScore_mem _)
  mono opportunity capacity capacity' hcurrency hmovable hcapacity hle := by
    rw [scoreVolumeTicketFit_score, scoreVolumeTicketFit_score, hcurrency]
    split_ifs with _ hzero
    · exact le_rfl
    · exact le_rfl
    · rw [bigintRatio, bigintRatio, if_neg hzero, if_neg hzero]
      exact round1_mono (headroomScore_div_mono hcapacity hle (lt_of_le_of_ne hmovable (Ne.symm hzero)))

/-! ### The total -/

/-- What a total keeps to, against the totals of what differs in one figure. -/
structure IsMonotoneTotal
    (total : MatchOpportunityInput → MatchCapacityInput → MatchContext → ℚ)
    (opportunity : MatchOpportunityInput) (capacity : MatchCapacityInput) (context : MatchContext) :
    Prop where
  bounded : 0 ≤ total opportunity capacity context ∧ total opportunity capacity context ≤ 100
  mdrBps : ∀ terms mdrBps, capacity.commercialTerms = some terms → terms.mdrBps ≤ mdrBps →
    total opportunity { capacity with commercialTerms := some { terms with mdrBps } } context ≤
      total opportunity capacity context
  settlementCadenceDays : ∀ days, capacity.settlementCadenceDays ≤ days →
    total opportunity { capacity with settlementCadenceDays := days } context ≤
      total opportunity capacity context
  chargebackBps : ∀ profile bps bps', context.merchantRiskProfile = some profile →
    profile.chargebackBps = some bps → bps ≤ bps' →
      total opportunity capacity
        { context with merchantRiskProfile := some { profile with chargebackBps := some bps' } } ≤
        total opportunity capacity context
  fraudBps : ∀ profile bps bps', context.merchantRiskProfile = some profile →
    profile.fraudBps = some bps → bps ≤ bps' →
      total opportunity capacity
        { context with merchantRiskProfile := some { profile with fraudBps := some bps' } } ≤
        total opportunity capacity context
  refundBps : ∀ profile bps bps', context.merchantRiskProfile = some profile →
    profile.refundBps = some bps → bps ≤ bps' →
      total opportunity capacity
        { context with merchantRiskProfile := some { profile with refundBps := some bps' } } ≤
        total opportunity capacity context
  monthlyCapacityMinor : ∀ minor, capacity.monthlyCapacityMinor ≤ minor →
    total opportunity capacity context ≤
      total opportunity { capacity with monthlyCapacityMinor := minor } context

theorem forall₂_le_refl (l : List ℚ) : List.Forall₂ (· ≤ ·) l l :=
  List.forall₂_same.2 fun _ _ ↦ le_rfl

/-- The merchant's rates are read by one factor only. -/
theorem totalWith_anti_context {volume : MatchOpportunityInput → MatchCapacityInput → ℚ}
    (h : List.Forall₂ (· ≤ ·) (utilizations capacity context) (utilizations capacity context')) :
    totalWith volume opportunity capacity context' ≤
      totalWith volume opportunity capacity context := by
  refine totalOf_mono fun factor ↦ ?_
  cases factor with
  | riskHistoryFit => exact scoreRiskHistoryFit_anti h
  | _ => exact le_rfl

theorem totalWith_isMonotoneTotal {volume : MatchOpportunityInput → MatchCapacityInput → ℚ}
    (hvolume : VolumeFit volume) (hmovable : 0 ≤ opportunity.movable30dMinor)
    (hcapacity : 0 ≤ capacity.monthlyCapacityMinor) :
    IsMonotoneTotal (totalWith volume) opportunity capacity context where
  bounded := totalWith_mem hvolume
  mdrBps terms mdrBps hterms h := by
    refine totalOf_mono fun factor ↦ ?_
    cases factor with
    | commercialUtility => exact scoreCommercialUtility_anti hterms h
    | volumeTicketFit => exact hvolume.mono _ _ _ rfl hmovable hcapacity le_rfl
    | _ => exact le_rfl
  settlementCadenceDays days h := by
    refine totalOf_mono fun factor ↦ ?_
    cases factor with
    | settlementCurrencyFit => exact scoreSettlementCurrencyFit_anti h
    | volumeTicketFit => exact hvolume.mono _ _ _ rfl hmovable hcapacity le_rfl
    | _ => exact le_rfl
  chargebackBps profile bps bps' hprofile hbps h := by
    refine totalWith_anti_context ?_
    rw [utilizations, utilizations, hprofile, Option.getD_some, Option.getD_some, hbps]
    exact List.rel_append (List.rel_append (utilization_mono h) (forall₂_le_refl _)) (forall₂_le_refl _)
  fraudBps profile bps bps' hprofile hbps h := by
    refine totalWith_anti_context ?_
    rw [utilizations, utilizations, hprofile, Option.getD_some, Option.getD_some, hbps]
    exact List.rel_append (List.rel_append (forall₂_le_refl _) (utilization_mono h)) (forall₂_le_refl _)
  refundBps profile bps bps' hprofile hbps h := by
    refine totalWith_anti_context ?_
    rw [utilizations, utilizations, hprofile, Option.getD_some, Option.getD_some, hbps]
    exact List.rel_append (forall₂_le_refl _) (utilization_mono h)
  monthlyCapacityMinor minor h := by
    refine totalOf_mono fun factor ↦ ?_
    cases factor with
    | volumeTicketFit => exact hvolume.mono _ _ _ rfl hmovable hcapacity h
    | _ => exact le_rfl

/-- **The score of a match is bounded and monotone, over exact rationals and with the quotient of the
source, and over exact rationals it is close to the weighted sum of what was rounded.** -/
theorem scoreMatch_isMonotoneTotal (hmovable : 0 ≤ opportunity.movable30dMinor)
    (hcapacity : 0 ≤ capacity.monthlyCapacityMinor) :
    IsMonotoneTotal exactTotal opportunity capacity context ∧
      |exactTotal opportunity capacity context -
        weightedSum (unroundedScore opportunity capacity context)| ≤ 1 / 2 ∧
      IsMonotoneTotal
        (fun opportunity capacity context ↦ (scoreMatch opportunity capacity context).total)
        opportunity capacity context := by
  have hmodel : (fun opportunity capacity context ↦ (scoreMatch opportunity capacity context).total) =
      totalWith fun opportunity capacity ↦ (scoreVolumeTicketFit opportunity capacity).score :=
    funext₃ fun _ _ _ ↦ scoreMatch_total
  rw [hmodel, exactTotal]
  refine ⟨totalWith_isMonotoneTotal exactVolumeTicketFit_volumeFit hmovable hcapacity, ?_,
    totalWith_isMonotoneTotal scoreVolumeTicketFit_volumeFit hmovable hcapacity⟩
  rw [← exactTotal, exactTotal_eq]
  exact abs_totalOf_sub_le _

namespace Matching.Sample

def scoredOpportunity : MatchOpportunityInput where
  id := "opportunity"
  currency := "EUR"
  jurisdictions := ["DE", "FR"]
  mccs := ["5812"]
  movable30dMinor := 1000000

/-- A quarter of its ceiling on chargebacks is used. -/
def scoredContext : MatchContext where
  now := 0
  providerPassportStatus := some .verified
  merchantRiskProfile := some { chargebackBps := some 25 }

def scoredCapacity : MatchCapacityInput where
  id := "capacity"
  currency := "EUR"
  jurisdictions := ["DE"]
  mccsAccepted := ["5812", "5813"]
  mccsExcluded := []
  acceptingNewVolume := true
  monthlyCapacityMinor := 3000000
  minTicketMinor := 100
  maxTicketMinor := 100000
  maxChargebackBps := 100
  maxFraudBps := 50
  maxRefundBps := 300
  settlementRail := "SEPA"
  settlementCadenceDays := 2
  freshnessClass := .fresh
  commercialTerms := some ⟨150, 10, .blended⟩

theorem scoreMatch_isMonotoneTotal_scored :
    IsMonotoneTotal exactTotal scoredOpportunity scoredCapacity scoredContext ∧
      |exactTotal scoredOpportunity scoredCapacity scoredContext -
        weightedSum (unroundedScore scoredOpportunity scoredCapacity scoredContext)| ≤ 1 / 2 ∧
      IsMonotoneTotal
        (fun opportunity capacity context ↦ (scoreMatch opportunity capacity context).total)
        scoredOpportunity scoredCapacity scoredContext :=
  scoreMatch_isMonotoneTotal (by decide) (by decide)

end Matching.Sample

end TolPlatform
