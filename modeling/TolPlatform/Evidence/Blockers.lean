import TolPlatform.Evidence.Readiness
import TolPlatform.Library.Grouping

/-!
# What blocks readiness

`computeReadiness` runs over the required facts and looks each one up. Of facts with distinct keys it
reports exactly the blocking ones that are missing, have no value or have expired, and its score is the
share of those that have a value (`computeReadiness_exact`). Time only adds blockers, and better evidence
only removes them (`Improvement`).
-/

namespace TolPlatform

/-! ### Which facts block -/

namespace RequiredFact

variable (facts : List FactSnapshot) (now : Instant) (req : RequiredFact)

/-- There is a fact of this key with a value. -/
def HasValue : Prop := ∃ fact ∈ facts, fact.fieldKey = req.fieldKey ∧ fact.hasValue = true

/-- A fact of this key has expired. -/
def Expired : Prop :=
  ∃ fact ∈ facts, fact.fieldKey = req.fieldKey ∧ ∃ expiresAt ∈ fact.expiresAt, expiresAt < now

/-- A blocking fact that is missing, has no value or has expired. -/
def Blocks : Prop := req.blocking = true ∧ (¬ req.HasValue facts ∨ req.Expired facts now)

instance : Decidable (req.HasValue facts) := inferInstanceAs (Decidable (∃ fact ∈ facts, _))

instance : Decidable (req.Expired facts now) := inferInstanceAs (Decidable (∃ fact ∈ facts, _))

instance : Decidable (req.Blocks facts now) := inferInstanceAs (Decidable (_ ∧ _))

/-- How a blocker is reported. -/
def blocker : ReadinessFinding where
  fieldKey := req.fieldKey
  sectionType := req.sectionType
  message :=
    if req.HasValue facts then s!"{req.label} evidence has expired"
    else s!"Missing required fact: {req.label}"

end RequiredFact

section

variable {facts : List FactSnapshot} {now : Instant} {found : Findings} {req : RequiredFact}

theorem Findings.push_blockers {message : String} : (found.push req message).blockers =
    found.blockers ++
      if req.blocking = true then [⟨req.fieldKey, req.sectionType, message⟩] else [] := by
  unfold push
  split
  · rfl
  · exact (List.append_nil _).symm

theorem checkPresent_blockers {fact : FactSnapshot} :
    (checkPresent now req fact found).blockers = found.blockers ++
      if req.blocking = true ∧ ∃ expiresAt ∈ fact.expiresAt, expiresAt < now then
        [⟨req.fieldKey, req.sectionType, s!"{req.label} evidence has expired"⟩] else [] := by
  have hwarn (dated : Findings) (message : String) :
      (if fact.verification = .selfReported then dated.warn req message else dated).blockers =
        dated.blockers := by
    split <;> rfl
  have hstale : (∃ expiresAt ∈ fact.expiresAt, expiresAt < now) ↔
      classifyFactFreshness fact.expiresAt now = .stale := classifyFactFreshness_eq_stale_iff.symm
  unfold checkPresent
  rw [hwarn]
  simp only [hstale]
  rcases classifyFactFreshness fact.expiresAt now with _ | _ | _ | _
  · simp
  · simp [Findings.warn]
  · simp [Findings.push_blockers]
  · simp

theorem Findings.push_presentCount {message : String} :
    (found.push req message).presentCount = found.presentCount := by
  unfold push
  split <;> rfl

theorem checkPresent_presentCount {fact : FactSnapshot} :
    (checkPresent now req fact found).presentCount = found.presentCount := by
  have hwarn (dated : Findings) (message : String) :
      (if fact.verification = .selfReported then dated.warn req message else dated).presentCount =
        dated.presentCount := by
    split <;> rfl
  unfold checkPresent
  rw [hwarn]
  rcases classifyFactFreshness fact.expiresAt now with _ | _ | _ | _
  · rfl
  · rfl
  · exact Findings.push_presentCount
  · rfl

/-- **What one turn of the loop does**: it adds the blocker of this fact, if it blocks, and counts it, if
it has a value. -/
theorem checkRequired_eq (hkeys : (facts.map (·.fieldKey)).Nodup) (now : Instant) (found : Findings)
    (req : RequiredFact) :
    (checkRequired facts now found req).blockers =
        found.blockers ++ (if req.Blocks facts now then [req.blocker facts] else []) ∧
      (checkRequired facts now found req).presentCount =
        found.presentCount + if req.HasValue facts then 1 else 0 := by
  have hfind {fact : FactSnapshot} : facts.find? (·.fieldKey = req.fieldKey) = some fact ↔
      fact ∈ facts ∧ fact.fieldKey = req.fieldKey := List.find?_eq_some_iff_of_nodup hkeys
  unfold checkRequired
  by_cases hvalue : req.HasValue facts
  · -- the fact is found, with a value, and it is the only one of its key
    obtain ⟨fact, hfact, hkey, hfactValue⟩ := id hvalue
    have hexpired : req.Expired facts now ↔ ∃ expiresAt ∈ fact.expiresAt, expiresAt < now := by
      constructor
      · rintro ⟨other, hother, hkey', hexpired⟩
        obtain rfl := List.inj_on_of_nodup_map hkeys hother hfact (hkey'.trans hkey.symm)
        exact hexpired
      · exact fun h ↦ ⟨fact, hfact, hkey, h⟩
    have hblocks : req.Blocks facts now ↔
        req.blocking = true ∧ ∃ expiresAt ∈ fact.expiresAt, expiresAt < now := by
      rw [RequiredFact.Blocks, hexpired, iff_false_intro (not_not.2 hvalue), false_or]
    have hfilter : (some fact).filter (·.hasValue) = some fact := if_pos hfactValue
    rw [hfind.2 ⟨hfact, hkey⟩, hfilter]
    dsimp only
    rw [checkPresent_blockers, checkPresent_presentCount, if_pos hvalue, RequiredFact.blocker,
      if_pos hvalue]
    simp only [hblocks]
    exact ⟨rfl, rfl⟩
  · have hnone : (facts.find? (·.fieldKey = req.fieldKey)).filter (·.hasValue) = none := by
      refine Option.filter_eq_none_iff.2 fun fact hfact hfactValue ↦ hvalue ⟨fact, ?_⟩
      obtain ⟨hmem, hkey⟩ := hfind.1 hfact
      exact ⟨hmem, hkey, hfactValue⟩
    have hblocks : req.Blocks facts now ↔ req.blocking = true :=
      and_iff_left (.inl hvalue)
    rw [hnone]
    dsimp only
    rw [Findings.push_blockers, Findings.push_presentCount, if_neg hvalue, RequiredFact.blocker,
      if_neg hvalue]
    simp only [hblocks]
    refine ⟨?_, rfl⟩
    split_ifs with hblocking
    · have htext : "Missing " ++ "required" ++ " fact: " = "Missing required fact: " := by decide
      rw [← htext]
      rfl
    · rfl

/-- What the loop does. -/
theorem foldl_checkRequired_eq (hkeys : (facts.map (·.fieldKey)).Nodup) (now : Instant)
    (found : Findings) (requiredFacts : List RequiredFact) :
    (requiredFacts.foldl (checkRequired facts now) found).blockers = found.blockers ++
        (requiredFacts.filter (·.Blocks facts now)).map (·.blocker facts) ∧
      (requiredFacts.foldl (checkRequired facts now) found).presentCount =
        found.presentCount + requiredFacts.countP (·.HasValue facts) := by
  induction requiredFacts generalizing found with
  | nil => exact ⟨(List.append_nil _).symm, rfl⟩
  | cons req rest ih =>
    obtain ⟨hblockers, hcount⟩ := checkRequired_eq hkeys now found req
    obtain ⟨ihblockers, ihcount⟩ := ih (checkRequired facts now found req)
    rw [List.foldl_cons, ihblockers, ihcount, hblockers, hcount]
    constructor
    · by_cases hblocks : req.Blocks facts now <;> simp [hblocks]
    · by_cases hvalue : req.HasValue facts
      · rw [if_pos hvalue, List.countP_cons, if_pos (decide_eq_true hvalue)]
        omega
      · rw [if_neg hvalue, List.countP_cons, if_neg (by simpa using hvalue), Nat.add_zero,
          Nat.add_zero]

/-- What is computed of facts with distinct keys. -/
theorem computeReadiness_eq_ok_of_nodup (hkeys : (facts.map (·.fieldKey)).Nodup) (now : Instant)
    (inputVersions : List String) (requiredFacts : List RequiredFact) : ∃ warnings,
      computeReadiness facts now inputVersions requiredFacts = .ok
        { score := if requiredFacts = [] then 100
            else requiredFacts.countP (·.HasValue facts) / requiredFacts.length * 100
          blockers := (requiredFacts.filter (·.Blocks facts now)).map (·.blocker facts)
          warnings
          ruleVersion := EvidenceConfig.ruleVersion
          algorithmVersion := EvidenceConfig.algorithmVersion
          inputVersions } := by
  refine ⟨(requiredFacts.foldl (checkRequired facts now) {}).warnings,
    Except.bind_eq_ok'.2 ⟨(), assertDistinctFieldKeys_eq_ok_iff.2 ⟨hkeys, by simp⟩, ?_⟩⟩
  obtain ⟨hblockers, hcount⟩ := foldl_checkRequired_eq hkeys now {} requiredFacts
  dsimp only
  rw [hblockers, hcount, List.nil_append, Nat.zero_add]
  rfl

/-- Which facts block, as field keys, in the order in which they are required. -/
theorem blockers_map_fieldKey (hkeys : (facts.map (·.fieldKey)).Nodup) {inputVersions : List String}
    {requiredFacts : List RequiredFact} {result : ReadinessResultShape}
    (h : computeReadiness facts now inputVersions requiredFacts = .ok result) :
    result.blockers.map (·.fieldKey) =
      (requiredFacts.filter (·.Blocks facts now)).map (·.fieldKey) := by
  obtain ⟨warnings, hok⟩ := computeReadiness_eq_ok_of_nodup hkeys now inputVersions requiredFacts
  obtain rfl := Except.ok.inj (h.symm.trans hok)
  rw [List.map_map]
  rfl

end

/-! ### Time and evidence -/

/-- One fact gets a value, is added, or expires later. -/
inductive Improvement : List FactSnapshot → List FactSnapshot → Prop
  | giveValue (before after : List FactSnapshot) (fact : FactSnapshot)
    (verification : FactProvenance) (updatedAt : Instant) :
    Improvement (before ++ fact :: after)
      (before ++ { fact with hasValue := true, verification, updatedAt } :: after)
  | add (before after : List FactSnapshot) (fact : FactSnapshot) :
    Improvement (before ++ after) (before ++ fact :: after)
  | extend (before after : List FactSnapshot) (fact : FactSnapshot) {expiresAt later : Instant}
    (h : fact.expiresAt = some expiresAt) (hle : expiresAt ≤ later) :
    Improvement (before ++ fact :: after) (before ++ { fact with expiresAt := some later } :: after)

/-- `fact'` proves at least what `fact` does, for at least as long. -/
structure FactSnapshot.NoWeaker (fact fact' : FactSnapshot) : Prop where
  fieldKey : fact'.fieldKey = fact.fieldKey
  hasValue : fact.hasValue = true → fact'.hasValue = true
  expiresAt : ∀ later ∈ fact'.expiresAt, ∃ expiresAt ∈ fact.expiresAt, expiresAt ≤ later

section

variable {facts facts' : List FactSnapshot} {now later : Instant} {req : RequiredFact}

theorem FactSnapshot.NoWeaker.refl (fact : FactSnapshot) : fact.NoWeaker fact :=
  ⟨rfl, id, fun later h ↦ ⟨later, h, Int.le_refl later⟩⟩

theorem Improvement.exists_noWeaker (h : Improvement facts facts') {fact : FactSnapshot}
    (hfact : fact ∈ facts) : ∃ fact' ∈ facts', fact.NoWeaker fact' := by
  -- a fact other than the one that changes stays
  have hkept {before after : List FactSnapshot} (changed : FactSnapshot)
      (hfact : fact ∈ before ∨ fact ∈ after) :
      ∃ fact' ∈ before ++ changed :: after, fact.NoWeaker fact' :=
    ⟨fact, List.mem_append.2 (hfact.imp_right (List.mem_cons_of_mem _)), .refl fact⟩
  have hchanged {before after : List FactSnapshot} {changed : FactSnapshot} :
      changed ∈ before ++ changed :: after := List.mem_append_right _ List.mem_cons_self
  cases h with
  | giveValue before after old verification updatedAt =>
    rcases List.mem_append.1 hfact with hfact | hfact
    · exact hkept _ (.inl hfact)
    · rcases List.mem_cons.1 hfact with rfl | hfact
      · exact ⟨_, hchanged, rfl, fun _ ↦ rfl, fun later h ↦ ⟨later, h, Int.le_refl later⟩⟩
      · exact hkept _ (.inr hfact)
  | add before after new => exact hkept new (List.mem_append.1 hfact)
  | extend before after old hexpires hle =>
    rcases List.mem_append.1 hfact with hfact | hfact
    · exact hkept _ (.inl hfact)
    · rcases List.mem_cons.1 hfact with rfl | hfact
      · refine ⟨_, hchanged, rfl, id, fun later h ↦ ⟨_, hexpires, ?_⟩⟩
        obtain rfl := Option.some.inj h
        exact hle
      · exact hkept _ (.inr hfact)

/-- Better evidence blocks no more. -/
theorem RequiredFact.Blocks.of_improvement (hkeys : (facts'.map (·.fieldKey)).Nodup)
    (h : Improvement facts facts') (hblocks : req.Blocks facts' now) : req.Blocks facts now := by
  obtain ⟨hblocking, hblocks⟩ := hblocks
  refine ⟨hblocking, ?_⟩
  rcases hblocks with hnone | ⟨fact', hfact', hkey', later, hlater, hpast⟩
  · refine .inl fun ⟨fact, hfact, hkey, hvalue⟩ ↦ hnone ?_
    obtain ⟨fact', hfact', hweaker⟩ := h.exists_noWeaker hfact
    exact ⟨fact', hfact', hweaker.fieldKey.trans hkey, hweaker.hasValue hvalue⟩
  · by_cases hvalue : req.HasValue facts
    · -- the fact that has expired is the one that was there, and had expired then
      obtain ⟨fact, hfact, hkey, -⟩ := hvalue
      obtain ⟨other, hother, hweaker⟩ := h.exists_noWeaker hfact
      obtain rfl := List.inj_on_of_nodup_map hkeys hother hfact'
        ((hweaker.fieldKey.trans hkey).trans hkey'.symm)
      obtain ⟨expiresAt, hexpires, hle⟩ := hweaker.expiresAt later hlater
      exact .inr ⟨fact, hfact, hkey, expiresAt, hexpires, Int.lt_of_le_of_lt hle hpast⟩
    · exact .inl hvalue

theorem RequiredFact.Blocks.of_le (hle : now ≤ later) (h : req.Blocks facts now) :
    req.Blocks facts later := by
  obtain ⟨hblocking, hnone | ⟨fact, hfact, hkey, expiresAt, hexpires, hpast⟩⟩ := h
  · exact ⟨hblocking, .inl hnone⟩
  · exact ⟨hblocking, .inr ⟨fact, hfact, hkey, expiresAt, hexpires, Int.lt_of_lt_of_le hpast hle⟩⟩

/-- What blocks less, in field keys. -/
theorem sublist_of_blocks {requiredFacts : List RequiredFact}
    (h : ∀ req : RequiredFact, req.Blocks facts now → req.Blocks facts' later) :
    ((requiredFacts.filter (·.Blocks facts now)).map (·.fieldKey)).Sublist
      ((requiredFacts.filter (·.Blocks facts' later)).map (·.fieldKey)) :=
  (List.monotone_filter_right _ fun req hreq ↦
    decide_eq_true (h req (of_decide_eq_true hreq))).map _

theorem computeReadiness_eq_of_perm (hkeys : (facts.map (·.fieldKey)).Nodup)
    (hperm : facts'.Perm facts) (now : Instant) (inputVersions : List String)
    (requiredFacts : List RequiredFact) : computeReadiness facts' now inputVersions requiredFacts =
      computeReadiness facts now inputVersions requiredFacts := by
  have hdistinct {l : List FactSnapshot} (h : (l.map (·.fieldKey)).Nodup) :
      assertDistinctFieldKeys [] l = .ok () := assertDistinctFieldKeys_eq_ok_iff.2 ⟨h, by simp⟩
  have hcheck : checkRequired facts' now = checkRequired facts now := by
    funext found req
    rw [checkRequired, checkRequired, List.find?_eq_of_perm hkeys hperm]
  rw [computeReadiness, computeReadiness, hdistinct hkeys, hcheck,
    hdistinct ((hperm.map (·.fieldKey)).nodup_iff.2 hkeys)]

end

/-- **Readiness is exact**: of facts with distinct keys, in any order, the blockers are the blocking
facts that are missing, have no value or have expired, and the score is the share of facts that have a
value. Time only adds blockers, and better evidence only removes them. -/
theorem computeReadiness_exact (facts : List FactSnapshot) (now : Instant)
    (inputVersions : List String) (requiredFacts : List RequiredFact)
    (hkeys : (facts.map (·.fieldKey)).Nodup) :
    ∃ result, computeReadiness facts now inputVersions requiredFacts = .ok result ∧
      result.blockers = (requiredFacts.filter (·.Blocks facts now)).map (·.blocker facts) ∧
      (isReadinessBlocked result = true ↔ ∃ req ∈ requiredFacts, req.Blocks facts now) ∧
      result.score = (if requiredFacts = [] then 100
        else 100 * ((requiredFacts.countP (·.HasValue facts) : ℚ) / requiredFacts.length)) ∧
      (∀ facts', facts'.Perm facts →
        computeReadiness facts' now inputVersions requiredFacts = .ok result) ∧
      (∀ later result', now ≤ later →
        computeReadiness facts later inputVersions requiredFacts = .ok result' →
        (result.blockers.map (·.fieldKey)).Sublist (result'.blockers.map (·.fieldKey))) ∧
      ∀ facts' result', Improvement facts facts' →
        computeReadiness facts' now inputVersions requiredFacts = .ok result' →
        (result'.blockers.map (·.fieldKey)).Sublist (result.blockers.map (·.fieldKey)) := by
  obtain ⟨warnings, hok⟩ := computeReadiness_eq_ok_of_nodup hkeys now inputVersions requiredFacts
  have hfields := blockers_map_fieldKey hkeys hok
  refine ⟨_, hok, rfl, ?_, ?_, ?_, ?_, ?_⟩
  · have hany : (requiredFacts.filter (·.Blocks facts now)).map (·.blocker facts) ≠ [] ↔
        ∃ req ∈ requiredFacts, req.Blocks facts now := by
      simp [List.filter_eq_nil_iff]
    rw [← hany]
    exact decide_eq_true_iff
  · split_ifs
    · rfl
    · exact Rat.mul_comm _ _
  · intro facts' hperm
    rw [computeReadiness_eq_of_perm hkeys hperm, hok]
  · intro later result' hle hresult'
    rw [hfields, blockers_map_fieldKey hkeys hresult']
    exact sublist_of_blocks fun req ↦ RequiredFact.Blocks.of_le hle
  · intro facts' result' himproved hresult'
    have hkeys' := (computeReadiness_eq_ok hresult').1
    rw [hfields, blockers_map_fieldKey hkeys' hresult']
    exact sublist_of_blocks fun req ↦ RequiredFact.Blocks.of_improvement hkeys' himproved

namespace Readiness.Sample

def fact (fieldKey : String) (hasValue : Bool) (expiresAt : Option Instant) : FactSnapshot where
  fieldKey := fieldKey
  sectionType := .identity
  hasValue := hasValue
  verification := .operatorVerified
  expiresAt := expiresAt
  updatedAt := 0

/-- One fact that lasts, one that has expired and one without a value. -/
def facts : List FactSnapshot :=
  [fact "legalEntityConfirmed" true none, fact "primaryContactConfirmed" true (some 5),
    fact "settlementCapability" false none]

theorem computeReadiness_exact_facts : ∃ result,
    computeReadiness facts 10 [] EvidenceConfig.requiredFacts = .ok result ∧ result.score = 25 ∧
      result.blockers.map (·.fieldKey) = ["primaryContactConfirmed", "processingHistorySummary",
        "riskProfileSummary", "settlementCapability", "technicalIntegrationProfile"] := by
  obtain ⟨result, hresult, hblockers, -, hscore, -⟩ :=
    computeReadiness_exact facts 10 [] EvidenceConfig.requiredFacts (by decide)
  refine ⟨result, hresult, ?_, ?_⟩
  · rw [hscore]
    decide +kernel
  · rw [hblockers]
    decide +kernel

end Readiness.Sample

end TolPlatform
