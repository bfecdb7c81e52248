import TolPlatform.Domain.StateMachines
import TolPlatform.Evidence.Readiness
import TolPlatform.Library.Transaction
import TolPlatform.Shared.Language

/-!
# Eligibility

`packages/matching/src/{types,config,eligibility}.ts`: ten families of rules about one opportunity and
one capacity, each of which reports what it found. A capacity is eligible when no finding blocks it
(`evaluateEligibility_eligible_iff`); every family reports (`exists_result_of_family`).

Figures in minor units, in basis points and in days are whole numbers. The matching package's own copies
of the freshness classes and the passport statuses are those of the packages it copies.
-/

namespace TolPlatform

/-! ### Vocabulary -/

inductive EligibilityRuleFamily
  | role | jurisdiction | mccProduct | volumeTicket | evidenceLicense | risk | settlement | technical
  | freshness | complianceHold
  deriving DecidableEq, Repr

inductive RuleResultStatus
  | pass | ineligible | blocked | refreshRequired | unknown
  deriving DecidableEq, Repr

structure RuleResult where
  rule : EligibilityRuleFamily
  code : String
  status : RuleResultStatus
  blocking : Bool
  overridable : Bool
  message : String
  deriving DecidableEq, Repr

structure MatchOpportunityInput where
  id : Uuid
  currency : String
  jurisdictions : List String
  mccs : List String
  movable30dMinor : Int
  deriving DecidableEq, Repr

inductive CommercialModel
  | blended | interchangePlus | flat
  deriving DecidableEq, Repr

instance : ToString CommercialModel where
  toString
    | .blended => "blended"
    | .interchangePlus => "interchange_plus"
    | .flat => "flat"

structure MatchCommercialTerms where
  mdrBps : Int
  fixedFeeMinor : Int
  model : CommercialModel
  deriving DecidableEq, Repr

structure MatchCapacityInput where
  id : Uuid
  currency : String
  jurisdictions : List String
  mccsAccepted : List String
  mccsExcluded : List String
  acceptingNewVolume : Bool
  monthlyCapacityMinor : Int
  minTicketMinor : Int
  maxTicketMinor : Int
  maxChargebackBps : Int
  maxFraudBps : Int
  maxRefundBps : Int
  settlementRail : String
  settlementCadenceDays : Int
  freshnessClass : FreshnessClass
  commercialTerms : Option MatchCommercialTerms
  deriving DecidableEq, Repr

structure MerchantRiskProfileInput where
  chargebackBps : Option Int := none
  fraudBps : Option Int := none
  refundBps : Option Int := none
  deriving DecidableEq, Repr

/-- An active hold, or none, with its reason. -/
structure ComplianceHold where
  active : Bool
  reason : Option String := none
  deriving DecidableEq, Repr

structure MatchContext where
  now : Instant
  providerPassportStatus : Option PassportStatus := none
  merchantRiskProfile : Option MerchantRiskProfileInput := none
  averageTicketMinor : Option Int := none
  requiredSettlementRail : Option String := none
  complianceHold : Option ComplianceHold := none
  ruleVersion : Option String := none
  inputVersions : Option (List String) := none
  deriving DecidableEq, Repr

/-- `evaluatedAt` is kept as an instant, which the source prints. -/
structure EligibilityResult where
  eligible : Bool
  results : List RuleResult
  blockers : List RuleResult
  warnings : List RuleResult
  ruleVersion : String
  inputVersions : List String
  evaluatedAt : Instant
  deriving DecidableEq, Repr

/-! ### `MATCHING_CONFIG` -/

/-- A range over which a factor is normalized. -/
structure Band where
  min : Int
  max : Int
  min_lt_max : min < max := by decide

namespace MatchingConfig

def ruleVersion : String := "matching-eligibility-v1"

def algorithmVersion : String := "matching-ranking-v1"

/-- The ratio of capacity to demand. -/
def volumeHeadroomRatioBand : Band := { min := 1, max := 5 }

def overridableByCode : List (String × Bool) :=
  [("ROLE_ASSUMED_COMPATIBLE", true),
   ("JURISDICTION_UNSPECIFIED", false),
   ("JURISDICTION_NO_OVERLAP", false),
   ("JURISDICTION_OVERLAP_OK", true),
   ("MCC_UNSPECIFIED", false),
   ("MCC_ACCEPTED_LIST_EMPTY", false),
   ("MCC_EXCLUDED", false),
   ("MCC_NOT_ACCEPTED", false),
   ("MCC_COVERED", true),
   ("VOLUME_NOT_ACCEPTING", true),
   ("VOLUME_CURRENCY_MISMATCH", true),
   ("VOLUME_INSUFFICIENT_HEADROOM", true),
   ("VOLUME_HEADROOM_OK", true),
   ("TICKET_SIZE_NOT_SUPPLIED", true),
   ("TICKET_SIZE_OUT_OF_RANGE", true),
   ("TICKET_SIZE_OK", true),
   ("EVIDENCE_LICENSE_NOT_READY", false),
   ("EVIDENCE_LICENSE_UNKNOWN", false),
   ("EVIDENCE_LICENSE_READY", true),
   ("RISK_NO_HISTORY", true),
   ("RISK_CEILING_EXCEEDED", true),
   ("RISK_WITHIN_CEILING", true),
   ("SETTLEMENT_CURRENCY_UNSUPPORTED", true),
   ("SETTLEMENT_RAIL_UNSUPPORTED", true),
   ("SETTLEMENT_OK", true),
   ("TECHNICAL_NOT_EVALUATED", true),
   ("FRESHNESS_STALE", true),
   ("FRESHNESS_UNKNOWN", false),
   ("FRESHNESS_AGING", true),
   ("FRESHNESS_FRESH", true),
   ("COMPLIANCE_HOLD_ACTIVE", false),
   ("COMPLIANCE_HOLD_NONE_KNOWN", true)]

end MatchingConfig

/-- A code that is not registered is not overridable. -/
def overridableFor (code : String) : Bool :=
  (MatchingConfig.overridableByCode.lookup code).getD false

/-! ### Validation -/

def eligibilityInputError (message : String) : Thrown :=
  .inputError s!"invalid eligibility input: {message}"

/-- `assertFiniteNonNegative` and `assertNonNegativeBigInt`, of a whole number. -/
def assertNonNegative (value : Int) (fieldName : String) : Except Thrown Unit :=
  throwIf (value < 0) (eligibilityInputError s!"{fieldName} must be >= 0, got {value}")

def validateCurrency (currency fieldName : String) : Except Thrown Unit :=
  throwIf (utf16Length currency ≠ 3)
    (eligibilityInputError s!"{fieldName} must be a 3-letter ISO code, got \"{currency}\"")

def validateOpportunity (opportunity : MatchOpportunityInput) : Except Thrown Unit := do
  validateCurrency opportunity.currency "opportunity.currency"
  assertNonNegative opportunity.movable30dMinor "opportunity.movable30dMinor"

def validateCapacity (capacity : MatchCapacityInput) : Except Thrown Unit := do
  validateCurrency capacity.currency "capacity.currency"
  throwIf (isBlank capacity.settlementRail)
    (eligibilityInputError s!"capacity.settlementRail must be a non-empty string, got \"{capacity.settlementRail}\"")
  assertNonNegative capacity.monthlyCapacityMinor "capacity.monthlyCapacityMinor"
  assertNonNegative capacity.minTicketMinor "capacity.minTicketMinor"
  assertNonNegative capacity.maxTicketMinor "capacity.maxTicketMinor"
  throwIf (capacity.maxTicketMinor ≠ 0 ∧ capacity.maxTicketMinor < capacity.minTicketMinor)
    (eligibilityInputError s!"capacity.maxTicketMinor ({capacity.maxTicketMinor}) must not be less than capacity.minTicketMinor ({capacity.minTicketMinor}) unless it is 0 (meaning \"no configured ceiling\")")
  assertNonNegative capacity.maxChargebackBps "capacity.maxChargebackBps"
  assertNonNegative capacity.maxFraudBps "capacity.maxFraudBps"
  assertNonNegative capacity.maxRefundBps "capacity.maxRefundBps"
  assertNonNegative capacity.settlementCadenceDays "capacity.settlementCadenceDays"

/-! ### The rules -/

def overlap (a b : List String) : List String := a.filter (· ∈ b)

/-- A quotient of doubles. -/
def bigintRatio (numerator denominator : Int) : Number :=
  if denominator = 0 then if numerator = 0 then toNumber 1 else .infinity false
  else (toNumber numerator).div (toNumber denominator)

def finding (rule : EligibilityRuleFamily) (code : String) (status : RuleResultStatus)
    (blocking : Bool) (message : String) : RuleResult :=
  { rule, code, status, blocking, overridable := overridableFor code, message }

def pass (rule : EligibilityRuleFamily) (code message : String) : RuleResult :=
  finding rule code .pass false message

@[simp] theorem finding_rule (rule : EligibilityRuleFamily) (code : String)
    (status : RuleResultStatus) (blocking : Bool) (message : String) :
    (finding rule code status blocking message).rule = rule := rfl

@[simp] theorem pass_rule (rule : EligibilityRuleFamily) (code message : String) :
    (pass rule code message).rule = rule := rfl

def checkRole : RuleResult :=
  pass .role "ROLE_ASSUMED_COMPATIBLE" "Role compatibility assumed by construction — CapacityProfile rows represent acquiring/servicing capacity only; the schema has no distinct role/service-type column to check against Opportunity.opportunityType yet (thin CapacityProfile, ADR-0008 part 2)."

def checkJurisdiction (opportunity : MatchOpportunityInput) (capacity : MatchCapacityInput) :
    RuleResult :=
  let matched := overlap opportunity.jurisdictions capacity.jurisdictions
  let wanted := join "/" opportunity.jurisdictions
  let offered := join "/" capacity.jurisdictions
  let shared := join "/" matched
  if opportunity.jurisdictions = [] ∨ capacity.jurisdictions = [] then
    finding .jurisdiction "JURISDICTION_UNSPECIFIED" .unknown true "Cannot verify jurisdiction overlap — opportunity or capacity has no jurisdictions configured yet."
  else if matched = [] then
    finding .jurisdiction "JURISDICTION_NO_OVERLAP" .ineligible true s!"No jurisdiction overlap (opportunity: {wanted}; capacity: {offered})."
  else pass .jurisdiction "JURISDICTION_OVERLAP_OK" s!"Jurisdiction overlap: {shared}."

def checkMccProduct (opportunity : MatchOpportunityInput) (capacity : MatchCapacityInput) :
    RuleResult :=
  let excluded := overlap opportunity.mccs capacity.mccsExcluded
  let uncovered := opportunity.mccs.filter (· ∉ capacity.mccsAccepted)
  let excludedText := join ", " excluded
  let uncoveredText := join ", " uncovered
  let requested := join ", " opportunity.mccs
  if opportunity.mccs = [] then
    finding .mccProduct "MCC_UNSPECIFIED" .unknown true "Cannot verify MCC fit — opportunity has no MCCs configured yet."
  else if capacity.mccsAccepted = [] then
    finding .mccProduct "MCC_ACCEPTED_LIST_EMPTY" .unknown true "Cannot verify MCC fit — provider has not configured any accepted MCCs yet."
  else if excluded ≠ [] then
    finding .mccProduct "MCC_EXCLUDED" .ineligible true s!"MCC(s) explicitly excluded by this provider: {excludedText}."
  else if uncovered ≠ [] then
    finding .mccProduct "MCC_NOT_ACCEPTED" .ineligible true s!"MCC(s) not accepted by this provider: {uncoveredText}."
  else pass .mccProduct "MCC_COVERED" s!"All requested MCC(s) accepted: {requested}."

/-- A ratio's text: `ratio.toFixed(2)` where the ratio is finite. -/
def ratioText : Number → String
  | .finite ratio =>
    if |ratio.value| < 10 ^ 21 then toFixed2 ratio.value else (Number.finite ratio).toText
  | _ => "∞"

/-- The first of the two findings on volume. -/
def checkHeadroom (opportunity : MatchOpportunityInput) (capacity : MatchCapacityInput) : RuleResult :=
  let ratio := bigintRatio capacity.monthlyCapacityMinor opportunity.movable30dMinor
  let least := MatchingConfig.volumeHeadroomRatioBand.min
  let shown := ratioText ratio
  if capacity.acceptingNewVolume = false then
    finding .volumeTicket "VOLUME_NOT_ACCEPTING" .ineligible true "Provider is not currently accepting new volume."
  else if opportunity.currency ≠ capacity.currency then
    finding .volumeTicket "VOLUME_CURRENCY_MISMATCH" .unknown false s!"Cannot compare volume across mismatched currencies (opportunity: {opportunity.currency}; capacity: {capacity.currency}) — see the SETTLEMENT rule."
  else if ratio < toNumber least then
    finding .volumeTicket "VOLUME_INSUFFICIENT_HEADROOM" .ineligible true s!"Insufficient capacity headroom (capacity {capacity.monthlyCapacityMinor} {capacity.currency}/mo vs. ~{opportunity.movable30dMinor} {opportunity.currency}/mo near-term demand)."
  else pass .volumeTicket "VOLUME_HEADROOM_OK" s!"Capacity headroom ratio {shown}x meets the {least}x minimum."

/-- The second, of a ticket size that is supplied. -/
def checkTicketSizeOf (capacity : MatchCapacityInput) (ticket : Int) : RuleResult :=
  let ceiling := if capacity.maxTicketMinor = 0 then "∞" else toString capacity.maxTicketMinor
  if ticket < capacity.minTicketMinor ∨
      0 < capacity.maxTicketMinor ∧ capacity.maxTicketMinor < ticket then
    finding .volumeTicket "TICKET_SIZE_OUT_OF_RANGE" .ineligible true s!"Average ticket {ticket} minor units outside provider's accepted range [{capacity.minTicketMinor}, {ceiling}]."
  else pass .volumeTicket "TICKET_SIZE_OK" s!"Average ticket {ticket} minor units within provider's accepted range."

def checkTicketSize (capacity : MatchCapacityInput) (context : MatchContext) :
    Except Thrown RuleResult :=
  match context.averageTicketMinor with
  | none => return finding .volumeTicket "TICKET_SIZE_NOT_SUPPLIED" .unknown false "Ticket-size fit not checked — no average ticket figure supplied (Opportunity's schema does not carry one; supply via context.averageTicketMinor for a real check)."
  | some ticket => do
    assertNonNegative ticket "context.averageTicketMinor"
    return checkTicketSizeOf capacity ticket

def checkVolumeTicket (opportunity : MatchOpportunityInput) (capacity : MatchCapacityInput)
    (context : MatchContext) : Except Thrown (List RuleResult) := do
  let ticketSize ← checkTicketSize capacity context
  return [checkHeadroom opportunity capacity, ticketSize]

def checkEvidenceLicense (context : MatchContext) : RuleResult :=
  match context.providerPassportStatus with
  | none => finding .evidenceLicense "EVIDENCE_LICENSE_UNKNOWN" .unknown true "Cannot verify mandatory evidence/license readiness — provider Passport status was not supplied (fail-closed)."
  | some status =>
    let reason := if status = .stale then "expired (STALE)" else s!"absent ({status})"
    if status = .ready ∨ status = .verified then
      pass .evidenceLicense "EVIDENCE_LICENSE_READY" s!"Provider Passport status is {status}."
    else finding .evidenceLicense "EVIDENCE_LICENSE_NOT_READY" .blocked true s!"Mandatory evidence/license is {reason} — provider Passport status is {status}, not READY/VERIFIED."

/-- What one risk figure breaches, if anything. -/
def riskBreach (value : Option Int) (fieldName label : String) (ceiling : Int) :
    Except Thrown (List String) :=
  match value with
  | none => return []
  | some bps => do
    assertNonNegative bps s!"context.merchantRiskProfile.{fieldName}"
    return if ceiling < bps then [s!"{label} {bps}bps > ceiling {ceiling}bps"] else []

def checkBreaches (breaches : List String) : RuleResult :=
  let breachesText := join "; " breaches
  if breaches ≠ [] then
    finding .risk "RISK_CEILING_EXCEEDED" .ineligible true s!"Hard risk ceiling exceeded: {breachesText}."
  else pass .risk "RISK_WITHIN_CEILING" "Merchant risk history within all configured ceilings."

def checkRisk (capacity : MatchCapacityInput) (context : MatchContext) : Except Thrown RuleResult :=
  match context.merchantRiskProfile.filter (· ≠ {}) with
  | none => return finding .risk "RISK_NO_HISTORY" .unknown false "No merchant risk history supplied yet — treated as a normal new-entrant state, not a blocker."
  | some profile => do
    let chargeback ← riskBreach profile.chargebackBps "chargebackBps" "chargeback"
      capacity.maxChargebackBps
    let fraud ← riskBreach profile.fraudBps "fraudBps" "fraud" capacity.maxFraudBps
    let refund ← riskBreach profile.refundBps "refundBps" "refund" capacity.maxRefundBps
    return checkBreaches (chargeback ++ fraud ++ refund)

def checkSettlement (opportunity : MatchOpportunityInput) (capacity : MatchCapacityInput)
    (context : MatchContext) : RuleResult :=
  -- an empty requirement counts as none
  let required := context.requiredSettlementRail.getD ""
  if opportunity.currency ≠ capacity.currency then
    finding .settlement "SETTLEMENT_CURRENCY_UNSUPPORTED" .ineligible true s!"Settlement currency {opportunity.currency} not supported by this provider (settles in {capacity.currency})."
  else if required ≠ "" ∧ required ≠ capacity.settlementRail then
    finding .settlement "SETTLEMENT_RAIL_UNSUPPORTED" .ineligible true s!"Required settlement rail \"{required}\" not supported by this provider (offers \"{capacity.settlementRail}\")."
  else pass .settlement "SETTLEMENT_OK" s!"Currency {capacity.currency} and settlement rail \"{capacity.settlementRail}\" both acceptable."

def checkTechnical : RuleResult :=
  finding .technical "TECHNICAL_NOT_EVALUATED" .unknown false "Technical/gateway/3DS/tokenization fit not evaluated — CapacityProfile's schema does not yet carry a TechnicalCapability field (ADR-0012)."

def checkFreshness (capacity : MatchCapacityInput) : RuleResult :=
  match capacity.freshnessClass with
  | .fresh => pass .freshness "FRESHNESS_FRESH" "Capacity profile is FRESH."
  | .aging => finding .freshness "FRESHNESS_AGING" .refreshRequired false "Capacity profile is AGING — still eligible, but a ranking penalty applies and a refresh is recommended."
  | .stale => finding .freshness "FRESHNESS_STALE" .refreshRequired true "Capacity profile is STALE beyond tolerance — refresh required before this route can be auto-invited."
  | .unknown => finding .freshness "FRESHNESS_UNKNOWN" .refreshRequired true "Capacity freshness is UNKNOWN (discovery lead only, the spec) — not counted as active marketplace capacity."

def checkComplianceHold (context : MatchContext) : RuleResult :=
  match context.complianceHold.filter (·.active) with
  | none => pass .complianceHold "COMPLIANCE_HOLD_NONE_KNOWN" "No known compliance/sanctions hold (no screening system wired up yet — ADR-0012)."
  | some hold =>
    let reason := hold.reason.getD ""
    finding .complianceHold "COMPLIANCE_HOLD_ACTIVE" .blocked true
      (if reason ≠ "" then s!"Compliance hold active: {reason}."
      else "Compliance hold active (unresolved sanctions/watchlist/identity conflict).")

/-! ### The evaluation -/

def RuleResult.isBlocker (r : RuleResult) : Bool := r.status ≠ .pass ∧ r.blocking

def RuleResult.isWarning (r : RuleResult) : Bool := r.status ≠ .pass ∧ r.blocking = false

def ruleResults (opportunity : MatchOpportunityInput) (capacity : MatchCapacityInput)
    (context : MatchContext) : Except Thrown (List RuleResult) := do
  let volumeTicket ← checkVolumeTicket opportunity capacity context
  let risk ← checkRisk capacity context
  return [checkRole, checkJurisdiction opportunity capacity, checkMccProduct opportunity capacity] ++
    volumeTicket ++ [checkEvidenceLicense context, risk, checkSettlement opportunity capacity context,
      checkTechnical, checkFreshness capacity, checkComplianceHold context]

section

variable {opportunity : MatchOpportunityInput} {capacity : MatchCapacityInput}
  {context : MatchContext} {r : RuleResult} {results : List RuleResult}

theorem checkTicketSize_rule (h : checkTicketSize capacity context = .ok r) :
    r.rule = .volumeTicket := by
  unfold checkTicketSize at h
  split at h
  · exact Except.ok.inj h ▸ rfl
  · obtain ⟨-, -, h⟩ := Except.bind_eq_ok'.1 h
    obtain rfl := Except.ok.inj h
    simp only [checkTicketSizeOf, apply_ite RuleResult.rule, finding_rule, pass_rule, ite_self]

theorem checkRisk_rule (h : checkRisk capacity context = .ok r) : r.rule = .risk := by
  unfold checkRisk at h
  split at h
  · exact Except.ok.inj h ▸ rfl
  · obtain ⟨chargeback, -, h⟩ := Except.bind_eq_ok'.1 h
    obtain ⟨fraud, -, h⟩ := Except.bind_eq_ok'.1 h
    obtain ⟨refund, -, h⟩ := Except.bind_eq_ok'.1 h
    obtain rfl := Except.ok.inj h
    simp only [checkBreaches, apply_ite RuleResult.rule, finding_rule, pass_rule, ite_self]

/-- Who reports, in order: every family, the volume one twice. -/
theorem ruleResults_rules (h : ruleResults opportunity capacity context = .ok results) :
    results.map RuleResult.rule = [.role, .jurisdiction, .mccProduct, .volumeTicket, .volumeTicket,
      .evidenceLicense, .risk, .settlement, .technical, .freshness, .complianceHold] := by
  obtain ⟨volumeTicket, hvolume, h⟩ := Except.bind_eq_ok'.1 h
  obtain ⟨ticketSize, hticket, hvolume⟩ := Except.bind_eq_ok'.1 hvolume
  obtain ⟨risk, hrisk, h⟩ := Except.bind_eq_ok'.1 h
  obtain rfl := Except.ok.inj hvolume
  obtain rfl := Except.ok.inj h
  have hjurisdiction : (checkJurisdiction opportunity capacity).rule = .jurisdiction := by
    simp only [checkJurisdiction, apply_ite RuleResult.rule, finding_rule, pass_rule, ite_self]
  have hmcc : (checkMccProduct opportunity capacity).rule = .mccProduct := by
    simp only [checkMccProduct, apply_ite RuleResult.rule, finding_rule, pass_rule, ite_self]
  have hheadroom : (checkHeadroom opportunity capacity).rule = .volumeTicket := by
    simp only [checkHeadroom, apply_ite RuleResult.rule, finding_rule, pass_rule, ite_self]
  have hevidence : (checkEvidenceLicense context).rule = .evidenceLicense := by
    unfold checkEvidenceLicense
    split
    · rfl
    · simp only [apply_ite RuleResult.rule, finding_rule, pass_rule, ite_self]
  have hsettlement : (checkSettlement opportunity capacity context).rule = .settlement := by
    simp only [checkSettlement, apply_ite RuleResult.rule, finding_rule, pass_rule, ite_self]
  have hfreshness : (checkFreshness capacity).rule = .freshness := by
    unfold checkFreshness
    split <;> rfl
  have hhold : (checkComplianceHold context).rule = .complianceHold := by
    unfold checkComplianceHold
    split <;> rfl
  simp only [List.map_cons, List.map_nil, List.cons_append, List.nil_append,
    hjurisdiction, hmcc, hheadroom, checkTicketSize_rule hticket, hevidence, checkRisk_rule hrisk,
    hsettlement, hfreshness, hhold]
  rfl

end

def evaluateEligibility (opportunity : MatchOpportunityInput) (capacity : MatchCapacityInput)
    (context : MatchContext) : Except Thrown EligibilityResult := do
  validateOpportunity opportunity
  validateCapacity capacity
  let results ← ruleResults opportunity capacity context
  let blockers := results.filter RuleResult.isBlocker
  return {
    eligible := blockers = []
    results
    blockers
    warnings := results.filter RuleResult.isWarning
    ruleVersion := context.ruleVersion.getD MatchingConfig.ruleVersion
    inputVersions := context.inputVersions.getD []
    evaluatedAt := context.now }

section

variable {opportunity : MatchOpportunityInput} {capacity : MatchCapacityInput}
  {context : MatchContext} {result : EligibilityResult}

theorem evaluateEligibility_eq_ok (h : evaluateEligibility opportunity capacity context = .ok result) :
    ruleResults opportunity capacity context = .ok result.results ∧
      result.blockers = result.results.filter RuleResult.isBlocker ∧
      result.eligible = decide (result.blockers = []) := by
  obtain ⟨-, -, h⟩ := Except.bind_eq_ok'.1 h
  obtain ⟨-, -, h⟩ := Except.bind_eq_ok'.1 h
  obtain ⟨results, hresults, h⟩ := Except.bind_eq_ok'.1 h
  obtain rfl := Except.ok.inj h
  exact ⟨hresults, rfl, rfl⟩

/-- A capacity is eligible when no finding blocks it. -/
theorem evaluateEligibility_eligible_iff
    (h : evaluateEligibility opportunity capacity context = .ok result) :
    result.eligible = true ↔ ∀ r ∈ result.results, r.blocking = true → r.status = .pass := by
  obtain ⟨-, hblockers, heligible⟩ := evaluateEligibility_eq_ok h
  rw [heligible, decide_eq_true_iff, hblockers, List.filter_eq_nil_iff]
  refine forall₂_congr fun r _ ↦ ?_
  rw [RuleResult.isBlocker, decide_eq_true_iff]
  tauto

/-- Every family reports, whatever is found. -/
theorem exists_result_of_family (h : evaluateEligibility opportunity capacity context = .ok result)
    (family : EligibilityRuleFamily) : ∃ r ∈ result.results, r.rule = family := by
  obtain ⟨hresults, -, -⟩ := evaluateEligibility_eq_ok h
  have hmem : family ∈ result.results.map RuleResult.rule := by
    rw [ruleResults_rules hresults]
    cases family <;> decide
  exact List.mem_map.1 hmem

end

end TolPlatform
