import TolPlatform.Matching.Eligibility

/-!
# The hard rules

What eligibility amounts to: one condition for each family of rules (`HardRule`), on valid input
(`IsValid`). A finding blocks exactly where the condition of its family fails, check by check, and from
there `evaluateEligibility_eq_hardRules`.

The headroom is compared in doubles. For a demand of at most `2 ^ 53` that is the exact comparison
(`headroom_iff`), and a capacity that covers the demand always passes (`not_toNumber_lt_of_le`).
-/

namespace TolPlatform

variable {opportunity : MatchOpportunityInput} {capacity : MatchCapacityInput}
  {context : MatchContext}

/-! ### Valid input -/

structure IsValid (opportunity : MatchOpportunityInput) (capacity : MatchCapacityInput)
    (context : MatchContext) : Prop where
  opportunity_currency : utf16Length opportunity.currency = 3
  movable30dMinor : 0 ≤ opportunity.movable30dMinor
  capacity_currency : utf16Length capacity.currency = 3
  settlementRail : isBlank capacity.settlementRail = false
  monthlyCapacityMinor : 0 ≤ capacity.monthlyCapacityMinor
  minTicketMinor : 0 ≤ capacity.minTicketMinor
  maxTicketMinor : 0 ≤ capacity.maxTicketMinor
  ticket_range : capacity.maxTicketMinor = 0 ∨ capacity.minTicketMinor ≤ capacity.maxTicketMinor
  maxChargebackBps : 0 ≤ capacity.maxChargebackBps
  maxFraudBps : 0 ≤ capacity.maxFraudBps
  maxRefundBps : 0 ≤ capacity.maxRefundBps
  settlementCadenceDays : 0 ≤ capacity.settlementCadenceDays
  averageTicketMinor : ∀ ticket ∈ context.averageTicketMinor, 0 ≤ ticket
  riskFigures : ∀ profile ∈ context.merchantRiskProfile,
    (∀ bps ∈ profile.chargebackBps, 0 ≤ bps) ∧ (∀ bps ∈ profile.fraudBps, 0 ≤ bps) ∧
      ∀ bps ∈ profile.refundBps, 0 ≤ bps

/-! ### The conditions -/

/-- The condition of each family. -/
def HardRule (opportunity : MatchOpportunityInput) (capacity : MatchCapacityInput)
    (context : MatchContext) : EligibilityRuleFamily → Prop
  | .role | .technical => True
  | .jurisdiction => ∃ j ∈ opportunity.jurisdictions, j ∈ capacity.jurisdictions
  | .mccProduct => opportunity.mccs ≠ [] ∧
      ∀ mcc ∈ opportunity.mccs, mcc ∈ capacity.mccsAccepted ∧ mcc ∉ capacity.mccsExcluded
  | .volumeTicket => capacity.acceptingNewVolume = true ∧
      ¬ toNumber capacity.monthlyCapacityMinor < toNumber opportunity.movable30dMinor ∧
      ∀ ticket ∈ context.averageTicketMinor, capacity.minTicketMinor ≤ ticket ∧
        (capacity.maxTicketMinor = 0 ∨ ticket ≤ capacity.maxTicketMinor)
  | .evidenceLicense =>
      context.providerPassportStatus = some .ready ∨ context.providerPassportStatus = some .verified
  | .risk => ∀ profile ∈ context.merchantRiskProfile,
      (∀ bps ∈ profile.chargebackBps, bps ≤ capacity.maxChargebackBps) ∧
        (∀ bps ∈ profile.fraudBps, bps ≤ capacity.maxFraudBps) ∧
        ∀ bps ∈ profile.refundBps, bps ≤ capacity.maxRefundBps
  | .settlement => opportunity.currency = capacity.currency ∧
      ∀ rail ∈ context.requiredSettlementRail, rail = "" ∨ rail = capacity.settlementRail
  | .freshness => capacity.freshnessClass = .fresh ∨ capacity.freshnessClass = .aging
  | .complianceHold => ∀ hold ∈ context.complianceHold, hold.active = false

/-! ### Headroom in doubles -/

/-- Up to `2 ^ 53` the comparison is exact. -/
theorem headroom_iff {demand supply : Int} (hdemand : 0 ≤ demand) (hsupply : 0 ≤ supply)
    (h : demand ≤ 2 ^ 53) : ¬ toNumber supply < toNumber demand ↔ demand ≤ supply := by
  rw [toNumber_lt_iff hsupply hdemand h, not_lt]

theorem bigintRatio_lt_one_iff {numerator denominator : Int} (hn : 0 ≤ numerator)
    (hd : 0 ≤ denominator) : bigintRatio numerator denominator < toNumber 1 ↔
      toNumber numerator < toNumber denominator := by
  rcases hd.eq_or_lt with rfl | hpos
  · have hright : ¬ toNumber numerator < toNumber 0 := not_toNumber_lt_of_le le_rfl hn
    refine iff_of_false ?_ hright
    rw [bigintRatio, if_pos rfl]
    split
    · exact not_toNumber_lt_of_le (by decide) le_rfl
    · rw [toNumber_eq_ofInt (n := 1) (by decide)]
      exact Bool.noConfusion
  · rw [bigintRatio, if_neg hpos.ne', div_toNumber_lt_one_iff hn hpos]

/-! ### What blocks -/

@[simp] theorem isBlocker_pass (rule : EligibilityRuleFamily) (code message : String) :
    (pass rule code message).isBlocker = false := rfl

@[simp] theorem isBlocker_finding (rule : EligibilityRuleFamily) (code : String)
    (status : RuleResultStatus) (blocking : Bool) (message : String) :
    (finding rule code status blocking message).isBlocker = decide (status ≠ .pass ∧ blocking = true) :=
  rfl

section

variable (opportunity capacity context)

theorem isBlocker_checkJurisdiction : (checkJurisdiction opportunity capacity).isBlocker = true ↔
    ¬ HardRule opportunity capacity context .jurisdiction := by
  have hoverlap : overlap opportunity.jurisdictions capacity.jurisdictions = [] ↔
      ¬ ∃ j ∈ opportunity.jurisdictions, j ∈ capacity.jurisdictions := by
    rw [overlap, List.filter_eq_nil_iff]
    simp
  show _ ↔ ¬ ∃ j ∈ opportunity.jurisdictions, j ∈ capacity.jurisdictions
  rw [← hoverlap]
  dsimp only [checkJurisdiction]
  split_ifs with hnone hmatched
  · rcases hnone with hnil | hnil
    · simp [overlap, hnil]
    · simp [overlap, hnil]
  · simp [hmatched]
  · simp [hmatched]

theorem isBlocker_checkMccProduct : (checkMccProduct opportunity capacity).isBlocker = true ↔
    ¬ HardRule opportunity capacity context .mccProduct := by
  show _ ↔ ¬ (opportunity.mccs ≠ [] ∧
    ∀ mcc ∈ opportunity.mccs, mcc ∈ capacity.mccsAccepted ∧ mcc ∉ capacity.mccsExcluded)
  dsimp only [checkMccProduct]
  split_ifs with hnone haccepted hexcluded huncovered
  · simp [hnone]
  · obtain ⟨mcc, hmcc⟩ := List.exists_mem_of_ne_nil _ hnone
    refine iff_of_true rfl fun h ↦ ?_
    have := (h.2 mcc hmcc).1
    rw [haccepted] at this
    exact List.not_mem_nil this
  · obtain ⟨mcc, hmcc⟩ := List.exists_mem_of_ne_nil _ hexcluded
    obtain ⟨hrequested, hexcluded⟩ := List.mem_filter.1 hmcc
    exact iff_of_true rfl fun h ↦ (h.2 mcc hrequested).2 (of_decide_eq_true hexcluded)
  · obtain ⟨mcc, hmcc⟩ := List.exists_mem_of_ne_nil _ huncovered
    obtain ⟨hrequested, huncovered⟩ := List.mem_filter.1 hmcc
    exact iff_of_true rfl fun h ↦ of_decide_eq_true huncovered (h.2 mcc hrequested).1
  · refine iff_of_false Bool.noConfusion (not_not.2 ⟨hnone, fun mcc hmcc ↦ ⟨?_, fun hex ↦ ?_⟩⟩)
    · by_contra hnot
      exact huncovered (List.ne_nil_of_mem (List.mem_filter.2 ⟨hmcc, decide_eq_true hnot⟩))
    · exact hexcluded (List.ne_nil_of_mem (List.mem_filter.2 ⟨hmcc, decide_eq_true hex⟩))

theorem isBlocker_checkHeadroom (hsupply : 0 ≤ capacity.monthlyCapacityMinor)
    (hdemand : 0 ≤ opportunity.movable30dMinor) :
    (checkHeadroom opportunity capacity).isBlocker = true ↔
      capacity.acceptingNewVolume = false ∨ opportunity.currency = capacity.currency ∧
        toNumber capacity.monthlyCapacityMinor < toNumber opportunity.movable30dMinor := by
  rw [← bigintRatio_lt_one_iff hsupply hdemand]
  dsimp only [checkHeadroom]
  split_ifs with haccepting hcurrency hratio
  · exact iff_of_true rfl (.inl haccepting)
  · refine iff_of_false Bool.noConfusion ?_
    rintro (h | ⟨h, -⟩)
    · exact haccepting h
    · exact hcurrency h
  · exact iff_of_true rfl (.inr ⟨not_not.1 hcurrency, hratio⟩)
  · refine iff_of_false Bool.noConfusion ?_
    rintro (h | ⟨-, h⟩)
    · exact haccepting h
    · exact hratio h

theorem isBlocker_checkTicketSizeOf (hmax : 0 ≤ capacity.maxTicketMinor) (ticket : Int) :
    (checkTicketSizeOf capacity ticket).isBlocker = true ↔ ¬ (capacity.minTicketMinor ≤ ticket ∧
      (capacity.maxTicketMinor = 0 ∨ ticket ≤ capacity.maxTicketMinor)) := by
  dsimp only [checkTicketSizeOf]
  split_ifs with hout hceiling
  · refine iff_of_true rfl ?_
    omega
  · refine iff_of_true rfl ?_
    omega
  · refine iff_of_false Bool.noConfusion ?_
    omega

theorem isBlocker_checkEvidenceLicense : (checkEvidenceLicense context).isBlocker = true ↔
    ¬ HardRule opportunity capacity context .evidenceLicense := by
  show _ ↔ ¬ (context.providerPassportStatus = some .ready ∨
    context.providerPassportStatus = some .verified)
  unfold checkEvidenceLicense
  rcases context.providerPassportStatus with - | status
  · exact iff_of_true rfl (by simp)
  · dsimp only
    rw [Option.some.injEq, Option.some.injEq]
    by_cases hready : status = .ready ∨ status = .verified
    · rw [if_pos hready]
      exact iff_of_false Bool.noConfusion (not_not.2 hready)
    · rw [if_neg hready]
      exact iff_of_true rfl hready

theorem isBlocker_checkSettlement : (checkSettlement opportunity capacity context).isBlocker = true ↔
    ¬ HardRule opportunity capacity context .settlement := by
  show _ ↔ ¬ (opportunity.currency = capacity.currency ∧
    ∀ rail ∈ context.requiredSettlementRail, rail = "" ∨ rail = capacity.settlementRail)
  have hrail : (∀ rail ∈ context.requiredSettlementRail, rail = "" ∨ rail = capacity.settlementRail) ↔
      ¬ (context.requiredSettlementRail.getD "" ≠ "" ∧
        context.requiredSettlementRail.getD "" ≠ capacity.settlementRail) := by
    rcases context.requiredSettlementRail with - | rail
    · simp
    · simp only [Option.mem_def, Option.some.injEq, forall_eq', Option.getD_some]
      tauto
  rw [hrail]
  dsimp only [checkSettlement]
  split_ifs with hcurrency hunsupported
  · exact iff_of_true rfl fun h ↦ hcurrency h.1
  · exact iff_of_true rfl fun h ↦ h.2 hunsupported
  · exact iff_of_false Bool.noConfusion (not_not.2 ⟨not_not.1 hcurrency, hunsupported⟩)

theorem isBlocker_checkFreshness : (checkFreshness capacity).isBlocker = true ↔
    ¬ HardRule opportunity capacity context .freshness := by
  show _ ↔ ¬ (capacity.freshnessClass = .fresh ∨ capacity.freshnessClass = .aging)
  unfold checkFreshness
  rcases capacity.freshnessClass with - | - | - | - <;> decide

theorem isBlocker_checkComplianceHold : (checkComplianceHold context).isBlocker = true ↔
    ¬ HardRule opportunity capacity context .complianceHold := by
  show _ ↔ ¬ ∀ hold ∈ context.complianceHold, hold.active = false
  unfold checkComplianceHold
  rcases context.complianceHold with - | ⟨active, reason⟩
  · exact iff_of_false Bool.noConfusion (by simp)
  · rcases active with - | -
    · exact iff_of_false Bool.noConfusion (by simp)
    · exact iff_of_true rfl (by simp)

end

/-! ### The checks that can throw -/

theorem assertNonNegative_eq_ok_iff {value : Int} {fieldName : String} {u : Unit} :
    assertNonNegative value fieldName = .ok u ↔ 0 ≤ value := by
  rw [assertNonNegative, throwIf_eq_ok_iff, not_lt]

/-- One figure: a breach if it is over its ceiling. -/
theorem exists_riskBreach {value : Option Int} (fieldName label : String) (ceiling : Int)
    (h : ∀ bps ∈ value, 0 ≤ bps) : ∃ breaches, riskBreach value fieldName label ceiling = .ok breaches ∧
      (breaches = [] ↔ ∀ bps ∈ value, bps ≤ ceiling) := by
  rcases value with - | bps
  · exact ⟨[], rfl, by simp⟩
  · have hcheck : assertNonNegative bps s!"context.merchantRiskProfile.{fieldName}" = .ok () :=
      assertNonNegative_eq_ok_iff.2 (h bps rfl)
    refine ⟨_, by rw [riskBreach, hcheck]; rfl, ?_⟩
    by_cases hover : ceiling < bps
    · rw [if_pos hover]
      exact iff_of_false (List.cons_ne_nil _ _) fun hall ↦ (hall bps rfl).not_gt hover
    · rw [if_neg hover]
      exact iff_of_true rfl fun b hb ↦ Option.some.inj hb ▸ not_lt.1 hover

/-- The figure must not be negative. -/
theorem nonneg_of_riskBreach {value : Option Int} {fieldName label : String} {ceiling : Int}
    {breaches : List String} (h : riskBreach value fieldName label ceiling = .ok breaches) :
    ∀ bps ∈ value, 0 ≤ bps := by
  rintro bps rfl
  obtain ⟨_, hcheck, _⟩ := Except.bind_eq_ok'.1 h
  exact assertNonNegative_eq_ok_iff.1 hcheck

/-- An average ticket is a finding, if it is not negative. -/
theorem exists_checkTicketSize (h : ∀ ticket ∈ context.averageTicketMinor, 0 ≤ ticket)
    (hmax : 0 ≤ capacity.maxTicketMinor) : ∃ r, checkTicketSize capacity context = .ok r ∧
      (r.isBlocker = true ↔ ¬ ∀ ticket ∈ context.averageTicketMinor, capacity.minTicketMinor ≤ ticket ∧
        (capacity.maxTicketMinor = 0 ∨ ticket ≤ capacity.maxTicketMinor)) := by
  unfold checkTicketSize
  rcases hsupplied : context.averageTicketMinor with - | ticket
  · exact ⟨_, rfl, iff_of_false Bool.noConfusion (by simp)⟩
  · have hcheck : assertNonNegative ticket "context.averageTicketMinor" = .ok () :=
      assertNonNegative_eq_ok_iff.2 (h ticket hsupplied)
    refine ⟨checkTicketSizeOf capacity ticket, ?_, ?_⟩
    · dsimp only
      rw [hcheck]
      rfl
    · rw [isBlocker_checkTicketSizeOf capacity hmax]
      simp

variable (opportunity capacity) in
theorem exists_checkRisk (h : ∀ profile ∈ context.merchantRiskProfile,
    (∀ bps ∈ profile.chargebackBps, 0 ≤ bps) ∧ (∀ bps ∈ profile.fraudBps, 0 ≤ bps) ∧
      ∀ bps ∈ profile.refundBps, 0 ≤ bps) : ∃ r, checkRisk capacity context = .ok r ∧
        (r.isBlocker = true ↔ ¬ HardRule opportunity capacity context .risk) := by
  show ∃ r, _ ∧ (_ ↔ ¬ ∀ profile ∈ context.merchantRiskProfile,
      (∀ bps ∈ profile.chargebackBps, bps ≤ capacity.maxChargebackBps) ∧
        (∀ bps ∈ profile.fraudBps, bps ≤ capacity.maxFraudBps) ∧
        ∀ bps ∈ profile.refundBps, bps ≤ capacity.maxRefundBps)
  unfold checkRisk
  rcases hsupplied : context.merchantRiskProfile with - | profile
  · exact ⟨_, rfl, iff_of_false Bool.noConfusion (by simp)⟩
  by_cases hempty : profile = {}
  · rw [hempty]
    exact ⟨_, rfl, iff_of_false Bool.noConfusion (by simp)⟩
  · obtain ⟨hchargeback, hfraud, hrefund⟩ := h profile hsupplied
    obtain ⟨b₁, h₁, hiff₁⟩ := exists_riskBreach "chargebackBps" "chargeback"
      capacity.maxChargebackBps hchargeback
    obtain ⟨b₂, h₂, hiff₂⟩ := exists_riskBreach "fraudBps" "fraud" capacity.maxFraudBps hfraud
    obtain ⟨b₃, h₃, hiff₃⟩ := exists_riskBreach "refundBps" "refund" capacity.maxRefundBps hrefund
    refine ⟨checkBreaches (b₁ ++ b₂ ++ b₃), ?_, ?_⟩
    · rw [Option.filter_some, if_pos (decide_eq_true hempty)]
      dsimp only
      rw [h₁, h₂, h₃]
      rfl
    · have hnil : b₁ ++ b₂ ++ b₃ = [] ↔ (∀ bps ∈ profile.chargebackBps, bps ≤ capacity.maxChargebackBps) ∧
          (∀ bps ∈ profile.fraudBps, bps ≤ capacity.maxFraudBps) ∧
          ∀ bps ∈ profile.refundBps, bps ≤ capacity.maxRefundBps := by
        rw [List.append_eq_nil_iff, List.append_eq_nil_iff, hiff₁, hiff₂, hiff₃, and_assoc]
      simp only [Option.mem_def, Option.some.injEq, forall_eq'] at hnil ⊢
      rw [← hnil]
      dsimp only [checkBreaches]
      split_ifs with hbreach
      · exact iff_of_true rfl hbreach
      · exact iff_of_false Bool.noConfusion hbreach

/-! ### The verdict -/

theorem validateOpportunity_eq_ok_iff {u : Unit} : validateOpportunity opportunity = .ok u ↔
    utf16Length opportunity.currency = 3 ∧ 0 ≤ opportunity.movable30dMinor := by
  simp only [validateOpportunity, validateCurrency, Except.bind_eq_ok', throwIf_eq_ok_iff,
    assertNonNegative_eq_ok_iff, not_not, exists_const]

theorem validateCapacity_eq_ok_iff {u : Unit} : validateCapacity capacity = .ok u ↔
    utf16Length capacity.currency = 3 ∧ isBlank capacity.settlementRail = false ∧
      0 ≤ capacity.monthlyCapacityMinor ∧ 0 ≤ capacity.minTicketMinor ∧
      0 ≤ capacity.maxTicketMinor ∧
      (capacity.maxTicketMinor = 0 ∨ capacity.minTicketMinor ≤ capacity.maxTicketMinor) ∧
      0 ≤ capacity.maxChargebackBps ∧ 0 ≤ capacity.maxFraudBps ∧ 0 ≤ capacity.maxRefundBps ∧
      0 ≤ capacity.settlementCadenceDays := by
  simp only [validateCapacity, validateCurrency, Except.bind_eq_ok', throwIf_eq_ok_iff,
    assertNonNegative_eq_ok_iff, not_not, exists_const, Bool.not_eq_true, not_and_or, not_lt, ne_eq]

/-- What is found on valid input: a finding blocks only if the condition of its family fails, and if none
blocks then every condition holds. -/
theorem IsValid.exists_ruleResults (h : IsValid opportunity capacity context) :
    ∃ results, ruleResults opportunity capacity context = .ok results ∧
      (∀ r ∈ results, r.isBlocker = true → ¬ HardRule opportunity capacity context r.rule) ∧
      ((∀ r ∈ results, ¬ r.isBlocker = true) →
        ∀ family, HardRule opportunity capacity context family) := by
  obtain ⟨ticket, hticket, hticketIff⟩ := exists_checkTicketSize h.averageTicketMinor h.maxTicketMinor
  obtain ⟨risk, hrisk, hriskIff⟩ :=
    exists_checkRisk opportunity capacity h.riskFigures
  have hresults : ruleResults opportunity capacity context = .ok
      [checkRole, checkJurisdiction opportunity capacity, checkMccProduct opportunity capacity,
        checkHeadroom opportunity capacity, ticket, checkEvidenceLicense context, risk,
        checkSettlement opportunity capacity context, checkTechnical, checkFreshness capacity,
        checkComplianceHold context] := by
    rw [ruleResults, checkVolumeTicket, hticket, hrisk]
    rfl
  -- which family each of the eleven results is of
  have hrules := ruleResults_rules hresults
  simp only [List.map_cons, List.map_nil, List.cons.injEq, and_true] at hrules
  obtain ⟨hrole, hjurisdiction, hmcc, hheadroom, hticketRule, hevidence, hriskRule, hsettlement,
    htechnical, hfreshness, hhold⟩ := hrules
  have hheadroomIff := isBlocker_checkHeadroom opportunity capacity h.monthlyCapacityMinor
    h.movable30dMinor
  have hjurisdictionIff := isBlocker_checkJurisdiction opportunity capacity context
  have hmccIff := isBlocker_checkMccProduct opportunity capacity context
  have hevidenceIff := isBlocker_checkEvidenceLicense opportunity capacity context
  have hsettlementIff := isBlocker_checkSettlement opportunity capacity context
  have hfreshnessIff := isBlocker_checkFreshness opportunity capacity context
  have hholdIff := isBlocker_checkComplianceHold opportunity capacity context
  refine ⟨_, hresults, ?_, fun hnone family ↦ ?_⟩
  · simp only [List.forall_mem_cons, List.not_mem_nil, hrole, hjurisdiction, hmcc, hheadroom,
      hticketRule, hevidence, hriskRule, hsettlement, htechnical, hfreshness, hhold]
    refine ⟨Bool.noConfusion, hjurisdictionIff.1, hmccIff.1, fun hblocks hrule ↦ ?_,
      fun hblocks hrule ↦ hticketIff.1 hblocks hrule.2.2, hevidenceIff.1, hriskIff.1,
      hsettlementIff.1, Bool.noConfusion, hfreshnessIff.1, hholdIff.1, fun _ ↦ False.elim⟩
    rcases hheadroomIff.1 hblocks with hnot | ⟨-, hless⟩
    · exact Bool.noConfusion (hnot.symm.trans hrule.1)
    · exact hrule.2.1 hless
  · simp only [List.forall_mem_cons, List.not_mem_nil, hjurisdictionIff, hmccIff, hheadroomIff,
      hticketIff, hevidenceIff, hriskIff, hsettlementIff, hfreshnessIff, hholdIff, not_not, not_or,
      Bool.not_eq_false] at hnone
    obtain ⟨-, hjurisdiction, hmcc, ⟨haccepting, hheadroom⟩, hticket, hevidence, hrisk, hsettlement, -,
      hfreshness, hhold, -⟩ := hnone
    -- the headroom is not compared across currencies, but another family blocks those
    rcases family with - | - | - | - | - | - | - | - | - | -
    · trivial
    · exact hjurisdiction
    · exact hmcc
    · exact ⟨haccepting, fun hless ↦ hheadroom ⟨hsettlement.1, hless⟩, hticket⟩
    · exact hevidence
    · exact hrisk
    · exact hsettlement
    · trivial
    · exact hfreshness
    · exact hhold

theorem isValid_of_evaluateEligibility {result : EligibilityResult}
    (h : evaluateEligibility opportunity capacity context = .ok result) :
    IsValid opportunity capacity context := by
  obtain ⟨_, hopportunity, h⟩ := Except.bind_eq_ok'.1 h
  obtain ⟨_, hcapacity, h⟩ := Except.bind_eq_ok'.1 h
  obtain ⟨results, hresults, -⟩ := Except.bind_eq_ok'.1 h
  obtain ⟨volumeTicket, hvolume, hresults⟩ := Except.bind_eq_ok'.1 hresults
  obtain ⟨ticketSize, hticket, -⟩ := Except.bind_eq_ok'.1 hvolume
  obtain ⟨risk, hrisk, -⟩ := Except.bind_eq_ok'.1 hresults
  obtain ⟨hcurrency, hmovable⟩ := validateOpportunity_eq_ok_iff.1 hopportunity
  obtain ⟨hcapacityCurrency, hrail, hmonthly, hmin, hmax, hrange, hchargeback, hfraud, hrefund,
    hcadence⟩ := validateCapacity_eq_ok_iff.1 hcapacity
  refine ⟨hcurrency, hmovable, hcapacityCurrency, hrail, hmonthly, hmin, hmax, hrange, hchargeback,
    hfraud, hrefund, hcadence, fun ticket hsupplied ↦ ?_, fun profile hsupplied ↦ ?_⟩
  · rw [checkTicketSize, Option.mem_def.1 hsupplied] at hticket
    obtain ⟨_, hcheck, _⟩ := Except.bind_eq_ok'.1 hticket
    exact assertNonNegative_eq_ok_iff.1 hcheck
  · by_cases hempty : profile = {}
    · rw [hempty]
      simp
    · rw [checkRisk, Option.mem_def.1 hsupplied, Option.filter_some,
        if_pos (decide_eq_true hempty)] at hrisk
      obtain ⟨_, hchargeback, hrisk⟩ := Except.bind_eq_ok'.1 hrisk
      obtain ⟨_, hfraud, hrisk⟩ := Except.bind_eq_ok'.1 hrisk
      obtain ⟨_, hrefund, -⟩ := Except.bind_eq_ok'.1 hrisk
      exact ⟨nonneg_of_riskBreach hchargeback, nonneg_of_riskBreach hfraud,
        nonneg_of_riskBreach hrefund⟩

/-- **Eligibility is the conjunction of the hard rules**, and every blocker is of a family whose condition
fails. -/
theorem evaluateEligibility_eq_hardRules (h : IsValid opportunity capacity context) :
    ∃ result, evaluateEligibility opportunity capacity context = .ok result ∧
      (result.eligible = true ↔ ∀ family, HardRule opportunity capacity context family) ∧
      ∀ b ∈ result.blockers, ¬ HardRule opportunity capacity context b.rule := by
  obtain ⟨results, hresults, hblocks, hnone⟩ := h.exists_ruleResults
  have hopportunity : validateOpportunity opportunity = .ok () :=
    validateOpportunity_eq_ok_iff.2 ⟨h.opportunity_currency, h.movable30dMinor⟩
  have hcapacity : validateCapacity capacity = .ok () :=
    validateCapacity_eq_ok_iff.2 ⟨h.capacity_currency, h.settlementRail, h.monthlyCapacityMinor,
      h.minTicketMinor, h.maxTicketMinor, h.ticket_range, h.maxChargebackBps, h.maxFraudBps,
      h.maxRefundBps, h.settlementCadenceDays⟩
  refine ⟨_, by rw [evaluateEligibility, hopportunity, hcapacity, hresults]; rfl, ?_, ?_⟩
  · rw [decide_eq_true_iff, List.filter_eq_nil_iff]
    refine ⟨hnone, fun hall r hr hblocker ↦ hblocks r hr hblocker (hall r.rule)⟩
  · intro b hb
    obtain ⟨hmem, hblocker⟩ := List.mem_filter.1 hb
    exact hblocks b hmem hblocker

namespace Matching.Sample

/-- A demand one unit above what doubles tell from the capacity below. -/
def boundaryOpportunity : MatchOpportunityInput where
  id := "opportunity"
  currency := "EUR"
  jurisdictions := ["DE"]
  mccs := ["5411"]
  movable30dMinor := 2 ^ 53 + 1

def boundaryCapacity : MatchCapacityInput where
  id := "capacity"
  currency := "EUR"
  jurisdictions := ["DE", "FR"]
  mccsAccepted := ["5411"]
  mccsExcluded := []
  acceptingNewVolume := true
  monthlyCapacityMinor := 2 ^ 53
  minTicketMinor := 0
  maxTicketMinor := 0
  maxChargebackBps := 100
  maxFraudBps := 50
  maxRefundBps := 500
  settlementRail := "SEPA"
  settlementCadenceDays := 2
  freshnessClass := .fresh
  commercialTerms := none

def boundaryContext : MatchContext where
  now := 0
  providerPassportStatus := some .verified

theorem isValid_boundary : IsValid boundaryOpportunity boundaryCapacity boundaryContext where
  opportunity_currency := by decide +kernel
  movable30dMinor := by decide
  capacity_currency := by decide +kernel
  settlementRail := by decide +kernel
  monthlyCapacityMinor := by decide
  minTicketMinor := by decide
  maxTicketMinor := by decide
  ticket_range := by decide
  maxChargebackBps := by decide
  maxFraudBps := by decide
  maxRefundBps := by decide
  settlementCadenceDays := by decide
  averageTicketMinor := by simp [boundaryContext]
  riskFigures := by simp [boundaryContext]

theorem evaluateEligibility_eq_hardRules_boundary :
    ∃ result, evaluateEligibility boundaryOpportunity boundaryCapacity boundaryContext = .ok result ∧
      result.eligible = true := by
  obtain ⟨result, hresult, hiff, -⟩ := evaluateEligibility_eq_hardRules isValid_boundary
  refine ⟨result, hresult, hiff.2 fun family ↦ ?_⟩
  rcases family with - | - | - | - | - | - | - | - | - | -
  · trivial
  · exact ⟨"DE", by decide, by decide⟩
  · exact ⟨by decide, by decide⟩
  · refine ⟨rfl, ?_, by simp [boundaryContext]⟩
    show ¬ toNumber (2 ^ 53) < toNumber (2 ^ 53 + 1)
    decide +kernel
  · exact .inr rfl
  · show ∀ profile ∈ boundaryContext.merchantRiskProfile, _
    simp [boundaryContext]
  · exact ⟨rfl, by simp [boundaryContext]⟩
  · trivial
  · exact .inl rfl
  · show ∀ hold ∈ boundaryContext.complianceHold, _
    simp [boundaryContext]

/-- A capacity that falls short by one unit is eligible: both amounts are one double. -/
theorem eligible_of_short_capacity :
    (∃ result, evaluateEligibility boundaryOpportunity boundaryCapacity boundaryContext = .ok result ∧
      result.eligible = true) ∧
    ¬ boundaryOpportunity.movable30dMinor ≤ boundaryCapacity.monthlyCapacityMinor := by
  refine ⟨⟨_, rfl, ?_⟩, by decide⟩
  decide +kernel

end Matching.Sample

end TolPlatform
