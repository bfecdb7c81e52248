import Mathlib.Data.Rat.Init
import Mathlib.Data.Nat.Notation
import TolPlatform.Library.Transaction
import TolPlatform.Shared.Errors

/-!
# Freshness and readiness

`packages/evidence/src/{config,types,freshness,readiness}.ts`: how fresh a capacity or a fact is at a
given time, and which of the required facts a passport lacks. Nothing here reads a clock.
Readiness is blocked by the blocking facts that are not `Met` (`computeReadiness_eq_ok`).

Ages are compared in milliseconds. The source divides them into days first, in floating point, which
for whole milliseconds never changes the outcome of a comparison with a whole number of days.
-/

namespace TolPlatform

/-! ### Vocabulary -/

inductive FreshnessClass
  | fresh | aging | stale | unknown
  deriving DecidableEq, Repr

instance : ToString FreshnessClass where
  toString
    | .fresh => "FRESH"
    | .aging => "AGING"
    | .stale => "STALE"
    | .unknown => "UNKNOWN"

inductive FactProvenance
  | selfReported | documentExtracted | apiVerified | counterpartyConfirmed | operatorVerified
  | outcomeLearned | inferred
  deriving DecidableEq, Repr

instance : ToString FactProvenance where
  toString
    | .selfReported => "SELF_REPORTED"
    | .documentExtracted => "DOCUMENT_EXTRACTED"
    | .apiVerified => "API_VERIFIED"
    | .counterpartyConfirmed => "COUNTERPARTY_CONFIRMED"
    | .operatorVerified => "OPERATOR_VERIFIED"
    | .outcomeLearned => "OUTCOME_LEARNED"
    | .inferred => "INFERRED"

inductive PassportSectionType
  | identity | relationshipHistory | processingMetrics | risk | commercial | technical
  deriving DecidableEq, Repr

instance : ToString PassportSectionType where
  toString
    | .identity => "IDENTITY"
    | .relationshipHistory => "RELATIONSHIP_HISTORY"
    | .processingMetrics => "PROCESSING_METRICS"
    | .risk => "RISK"
    | .commercial => "COMMERCIAL"
    | .technical => "TECHNICAL"

/-- Mirrors the database's own enumeration. -/
inductive SourceType
  | platform | «import» | connector | migration | system
  deriving DecidableEq, Repr

/-- A fact as the engine sees it. -/
structure FactSnapshot where
  fieldKey : String
  sectionType : PassportSectionType
  hasValue : Bool
  verification : FactProvenance
  expiresAt : Option Instant
  updatedAt : Instant
  deriving DecidableEq, Repr

structure RequiredFact where
  fieldKey : String
  sectionType : PassportSectionType
  blocking : Bool
  label : String
  deriving DecidableEq, Repr

/-- A `ReadinessBlocker` or a `ReadinessWarning`. -/
structure ReadinessFinding where
  fieldKey : String
  sectionType : PassportSectionType
  message : String
  deriving DecidableEq, Repr

structure ReadinessResultShape where
  score : ℚ
  blockers : List ReadinessFinding
  warnings : List ReadinessFinding
  ruleVersion : String
  algorithmVersion : String
  inputVersions : List String
  deriving DecidableEq, Repr

/-! ### `EVIDENCE_CONFIG` -/

structure CapacityFreshnessWindow where
  fresh : Int
  aging : Int

namespace EvidenceConfig

def algorithmVersion : String := "evidence-readiness-v1"

def ruleVersion : String := "evidence-rules-v1"

def requiredFacts : List RequiredFact :=
  [⟨"legalEntityConfirmed", .identity, true, "Legal entity / registration confirmed"⟩,
   ⟨"primaryContactConfirmed", .identity, true, "Named, verified primary contact"⟩,
   ⟨"processingHistorySummary", .processingMetrics, true, "Processing history summary"⟩,
   ⟨"riskProfileSummary", .risk, true, "Risk profile summary (CB / fraud / refund posture)"⟩,
   ⟨"settlementCapability", .commercial, true,
    "Settlement capability (currency / rail / cadence)"⟩,
   ⟨"technicalIntegrationProfile", .technical, true, "Technical integration profile"⟩,
   ⟨"priorAcquirerRelationships", .relationshipHistory, false,
    "Prior acquirer / provider relationships"⟩,
   ⟨"chargebackHistoryDetail", .risk, false, "Detailed chargeback history"⟩]

def capacityFreshnessWindowDays : CapacityFreshnessWindow := ⟨30, 90⟩

def factFreshnessWarnWithinDays : Int := 30

end EvidenceConfig

/-! ### Freshness -/

def millisPerDay : Int := 24 * 60 * 60 * 1000

/-- The age of what the platform has confirmed. A confirmation in the future counts as fresh. -/
def classifyCapacityFreshness (asOf : Instant) (sourceType : SourceType) (now : Instant)
    (windows : CapacityFreshnessWindow := EvidenceConfig.capacityFreshnessWindowDays) :
    FreshnessClass :=
  let ageMs := now - asOf
  if sourceType ≠ .platform then .unknown
  else if ageMs < 0 then .fresh
  else if ageMs ≤ windows.fresh * millisPerDay then .fresh
  else if ageMs ≤ windows.aging * millisPerDay then .aging
  else .stale

/-- The time left until a fact expires. -/
def classifyFactFreshness (expiresAt : Option Instant) (now : Instant)
    (warnWithinDays : Int := EvidenceConfig.factFreshnessWarnWithinDays) : FreshnessClass :=
  match expiresAt with
  | none => .unknown
  | some expiresAt =>
    let msUntilExpiry := expiresAt - now
    if msUntilExpiry < 0 then .stale
    else if msUntilExpiry ≤ warnWithinDays * millisPerDay then .aging
    else .fresh

/-! ### Readiness -/

/-- What the loop over the required facts has collected. -/
structure Findings where
  blockers : List ReadinessFinding := []
  warnings : List ReadinessFinding := []
  presentCount : ℕ := 0

namespace Findings

def warn (found : Findings) (req : RequiredFact) (message : String) : Findings :=
  { found with warnings := found.warnings ++ [⟨req.fieldKey, req.sectionType, message⟩] }

/-- `(req.blocking ? blockers : warnings).push(…)`. -/
def push (found : Findings) (req : RequiredFact) (message : String) : Findings :=
  if req.blocking then
    { found with blockers := found.blockers ++ [⟨req.fieldKey, req.sectionType, message⟩] }
  else found.warn req message

def present (found : Findings) : Findings :=
  { found with presentCount := found.presentCount + 1 }

end Findings

/-- Throws at the first field key that has been seen before. -/
def assertDistinctFieldKeys (seenFieldKeys : List String) : List FactSnapshot → Except Thrown Unit
  | [] => .ok ()
  | fact :: rest =>
    if fact.fieldKey ∈ seenFieldKeys then
      .error (.error s!"computeReadiness: duplicate fieldKey \"{fact.fieldKey}\" in facts — each fieldKey must appear at most once")
    else assertDistinctFieldKeys (fact.fieldKey :: seenFieldKeys) rest

/-- One required fact that has a value. -/
def checkPresent (now : Instant) (req : RequiredFact) (fact : FactSnapshot) (found : Findings) :
    Findings :=
  let dated :=
    match classifyFactFreshness fact.expiresAt now with
    | .stale => found.push req s!"{req.label} evidence has expired"
    | .aging => found.warn req s!"{req.label} evidence is approaching expiry"
    | _ => found
  if fact.verification = .selfReported then
    dated.warn req s!"{req.label} is self-reported only, never independently verified"
  else dated

/-- One turn of the loop over the required facts. -/
def checkRequired (facts : List FactSnapshot) (now : Instant) (found : Findings)
    (req : RequiredFact) : Findings :=
  match (facts.find? (·.fieldKey = req.fieldKey)).filter (·.hasValue) with
  | none =>
    let kind := if req.blocking then "required" else "recommended"
    found.push req s!"Missing {kind} fact: {req.label}"
  | some fact => checkPresent now req fact found.present

def computeReadiness (facts : List FactSnapshot) (now : Instant) (inputVersions : List String := [])
    (requiredFacts : List RequiredFact := EvidenceConfig.requiredFacts) :
    Except Thrown ReadinessResultShape := do
  assertDistinctFieldKeys [] facts
  let found := requiredFacts.foldl (checkRequired facts now) {}
  return {
    score := if requiredFacts = [] then 100 else found.presentCount / requiredFacts.length * 100
    blockers := found.blockers
    warnings := found.warnings
    ruleVersion := EvidenceConfig.ruleVersion
    algorithmVersion := EvidenceConfig.algorithmVersion
    inputVersions }

def isReadinessBlocked (result : ReadinessResultShape) : Bool := result.blockers ≠ []

/-! ### What blocks -/

/-- A required fact is there with a value, under evidence that has not expired. -/
def RequiredFact.Met (facts : List FactSnapshot) (now : Instant) (req : RequiredFact) : Prop :=
  ∃ fact, facts.find? (·.fieldKey = req.fieldKey) = some fact ∧ fact.hasValue = true ∧
    classifyFactFreshness fact.expiresAt now ≠ .stale

/-- What has expired is stale. -/
theorem classifyFactFreshness_eq_stale_iff {expiresAt : Option Instant} {now : Instant} :
    classifyFactFreshness expiresAt now = .stale ↔ ∃ t, expiresAt = some t ∧ t < now := by
  cases expiresAt with
  | none => exact ⟨(nomatch ·), fun ⟨_, h, _⟩ ↦ nomatch h⟩
  | some t =>
    show (if t - now < 0 then FreshnessClass.stale
      else if t - now ≤ EvidenceConfig.factFreshnessWarnWithinDays * millisPerDay then .aging
      else .fresh) = .stale ↔ _
    by_cases hpast : t < now
    · rw [if_pos (Int.sub_neg_of_lt hpast)]
      exact iff_of_true rfl ⟨t, rfl, hpast⟩
    · rw [if_neg fun h ↦ hpast (Int.lt_of_sub_neg h)]
      refine iff_of_false ?_ fun ⟨_, ht, h⟩ ↦ hpast (Option.some.inj ht ▸ h)
      split <;> exact (nomatch ·)

section

variable {facts : List FactSnapshot} {now : Instant} {found : Findings} {req : RequiredFact}

theorem Findings.push_blockers_eq_nil_iff {message : String} :
    (found.push req message).blockers = [] ↔ found.blockers = [] ∧ req.blocking = false := by
  unfold push
  split
  · next h => simp [h]
  · next h => simp [warn, h]

/-- That a fact is self-reported only ever warns. -/
theorem checkPresent_blockers_eq_nil_iff {fact : FactSnapshot} :
    (checkPresent now req fact found).blockers = [] ↔ found.blockers = [] ∧
      (req.blocking = true → classifyFactFreshness fact.expiresAt now ≠ .stale) := by
  have hwarn (dated : Findings) (message : String) :
      (if fact.verification = .selfReported then dated.warn req message else dated).blockers =
        dated.blockers := by
    split <;> rfl
  unfold checkPresent
  rw [hwarn]
  rcases classifyFactFreshness fact.expiresAt now with _ | _ | _ | _
  · simp
  · simp [Findings.warn]
  · simpa using Findings.push_blockers_eq_nil_iff
  · simp

/-- One turn of the loop adds a blocker if the fact is blocking and not met. -/
theorem checkRequired_blockers_eq_nil_iff :
    (checkRequired facts now found req).blockers = [] ↔
      found.blockers = [] ∧ (req.blocking = true → req.Met facts now) := by
  unfold checkRequired RequiredFact.Met
  rcases hfind : facts.find? (·.fieldKey = req.fieldKey) with - | fact
  · simpa [hfind] using Findings.push_blockers_eq_nil_iff
  · by_cases hvalue : fact.hasValue = true
    · have hfilter : (some fact).filter (·.hasValue) = some fact := if_pos hvalue
      have hpresent : (checkPresent now req fact found.present).blockers = [] ↔
          found.blockers = [] ∧ _ := checkPresent_blockers_eq_nil_iff
      simpa [hfind, hfilter, hvalue] using hpresent
    · have hfilter : (some fact).filter (·.hasValue) = none := if_neg hvalue
      simpa [hfind, hfilter, hvalue] using Findings.push_blockers_eq_nil_iff

theorem foldl_checkRequired_blockers_eq_nil_iff {requiredFacts : List RequiredFact} :
    (requiredFacts.foldl (checkRequired facts now) found).blockers = [] ↔
      found.blockers = [] ∧ ∀ req ∈ requiredFacts, req.blocking = true → req.Met facts now := by
  induction requiredFacts generalizing found with
  | nil => simp
  | cons req rest ih =>
    rw [List.foldl_cons, ih, checkRequired_blockers_eq_nil_iff, List.forall_mem_cons, and_assoc]

end

/-- The check of the field keys passes exactly when none appears twice. -/
theorem assertDistinctFieldKeys_eq_ok_iff {facts : List FactSnapshot} {seenFieldKeys : List String}
    {u : Unit} : assertDistinctFieldKeys seenFieldKeys facts = .ok u ↔
      (facts.map (·.fieldKey)).Nodup ∧ ∀ fact ∈ facts, fact.fieldKey ∉ seenFieldKeys := by
  induction facts generalizing seenFieldKeys with
  | nil => simp [assertDistinctFieldKeys]
  | cons fact rest ih =>
    by_cases hseen : fact.fieldKey ∈ seenFieldKeys
    · simp [assertDistinctFieldKeys, hseen]
    · rw [assertDistinctFieldKeys, if_neg hseen, ih]
      simp only [List.map_cons, List.nodup_cons, List.mem_map, List.mem_cons]
      grind

/-- **When readiness is computed, and when nothing blocks it.** -/
theorem computeReadiness_eq_ok {facts : List FactSnapshot} {now : Instant}
    {inputVersions : List String} {requiredFacts : List RequiredFact}
    {result : ReadinessResultShape}
    (h : computeReadiness facts now inputVersions requiredFacts = .ok result) :
    (facts.map (·.fieldKey)).Nodup ∧
      (result.blockers = [] ↔ ∀ req ∈ requiredFacts, req.blocking = true → req.Met facts now) := by
  obtain ⟨_, hdistinct, h⟩ := Except.bind_eq_ok'.1 h
  obtain rfl := Except.ok.inj h
  refine ⟨(assertDistinctFieldKeys_eq_ok_iff.1 hdistinct).1, ?_⟩
  rw [foldl_checkRequired_blockers_eq_nil_iff]
  exact and_iff_right rfl

theorem exists_computeReadiness_eq_ok {facts : List FactSnapshot} {now : Instant}
    {inputVersions : List String} {requiredFacts : List RequiredFact}
    (h : (facts.map (·.fieldKey)).Nodup) :
    ∃ result, computeReadiness facts now inputVersions requiredFacts = .ok result :=
  ⟨_, Except.bind_eq_ok'.2 ⟨(), assertDistinctFieldKeys_eq_ok_iff.2 ⟨h, by simp⟩, rfl⟩⟩

end TolPlatform
