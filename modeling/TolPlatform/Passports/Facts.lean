import TolPlatform.Library.Grouping
import TolPlatform.Passports.Service

/-!
# What the facts of a passport support

Readiness is computed from a passport's facts and from the evidence that these name. Nothing blocks it
if and only if every blocking required fact has a value (`Complete`) and none of them rests on evidence
that has expired (`Unexpired`). The first is a matter of the rows alone; the second decays with time.

An upsert of a fact adds a row or replaces the one there is for its field key. Either way no other
passport's facts change, and no passport has two facts for one field key.
-/

namespace TolPlatform.Passports

/-! ### Complete and unexpired -/

/-- Every blocking required fact of the passport has a value. -/
def Complete (db : Db) (passportId : Uuid) : Prop :=
  ∀ req ∈ EvidenceConfig.requiredFacts, req.blocking = true → ∃ fact ∈ db.facts,
    fact.passportId = passportId ∧ fact.fieldKey = req.fieldKey ∧ fact.normalizedValue ≠ none

/-- No blocking required fact of the passport rests on evidence that has expired at `now`. -/
def Unexpired (db : Db) (now : Instant) (passportId : Uuid) : Prop :=
  ∀ req ∈ EvidenceConfig.requiredFacts, req.blocking = true → ∀ fact ∈ db.facts,
    fact.passportId = passportId → fact.fieldKey = req.fieldKey →
      ∀ expiresAt, expiryOf db fact = some expiresAt → now ≤ expiresAt

/-- A passport has at most one fact for a field key. -/
def DistinctKeys (db : Db) : Prop :=
  (db.facts.map fun fact ↦ (fact.passportId, fact.fieldKey)).Nodup

section

variable {db : Db} {now : Instant} {passportId : Uuid}

theorem FactRepository.mem_listByPassport {fact : Fact} :
    fact ∈ FactRepository.listByPassport db passportId ↔
      fact ∈ db.facts ∧ fact.passportId = passportId := by
  rw [listByPassport, List.mem_sortOn, List.mem_filter, decide_eq_true_iff]

theorem map_fieldKey_buildSnapshots (facts : List Fact) :
    (buildSnapshots db facts).map (·.fieldKey) = facts.map Fact.fieldKey := by
  rw [buildSnapshots, List.map_map]
  rfl

/-- The fact of a field key is the one that the loop over the required facts finds. -/
theorem find_buildSnapshots_eq_some_iff {facts : List Fact}
    (hnodup : (facts.map Fact.fieldKey).Nodup) {fieldKey : String} {seen : FactSnapshot} :
    (buildSnapshots db facts).find? (·.fieldKey = fieldKey) = some seen ↔
      ∃ fact ∈ facts, fact.fieldKey = fieldKey ∧ snapshot db fact = seen := by
  have hkeys : ((buildSnapshots db facts).map FactSnapshot.fieldKey).Nodup := by
    rwa [map_fieldKey_buildSnapshots]
  rw [List.find?_eq_some_iff_of_nodup hkeys, buildSnapshots, List.mem_map]
  constructor
  · rintro ⟨⟨fact, hfact, rfl⟩, hkey⟩
    exact ⟨fact, hfact, hkey, rfl⟩
  · rintro ⟨fact, hfact, hkey, rfl⟩
    exact ⟨⟨fact, hfact, rfl⟩, hkey⟩

theorem met_iff {facts : List Fact} (hnodup : (facts.map Fact.fieldKey).Nodup) {req : RequiredFact} :
    req.Met (buildSnapshots db facts) now ↔ ∃ fact ∈ facts, fact.fieldKey = req.fieldKey ∧
      fact.normalizedValue ≠ none ∧ ∀ expiresAt, expiryOf db fact = some expiresAt →
        now ≤ expiresAt := by
  have hfresh (fact : Fact) : classifyFactFreshness (snapshot db fact).expiresAt now ≠ .stale ↔
      ∀ expiresAt, expiryOf db fact = some expiresAt → now ≤ expiresAt := by
    rw [ne_eq, classifyFactFreshness_eq_stale_iff, not_exists]
    exact forall_congr' fun t ↦ by rw [not_and, not_lt]; rfl
  constructor
  · rintro ⟨seen, hseen, hvalue, hstale⟩
    obtain ⟨fact, hfact, hkey, rfl⟩ := (find_buildSnapshots_eq_some_iff hnodup).1 hseen
    exact ⟨fact, hfact, hkey, of_decide_eq_true hvalue, (hfresh fact).1 hstale⟩
  · rintro ⟨fact, hfact, hkey, hvalue, hunexpired⟩
    exact ⟨snapshot db fact, (find_buildSnapshots_eq_some_iff hnodup).2 ⟨fact, hfact, hkey, rfl⟩,
      decide_eq_true hvalue, (hfresh fact).2 hunexpired⟩

/-- **Nothing blocks readiness** exactly when the facts are complete and unexpired. -/
theorem blockers_eq_nil_iff {inputVersions : List String} {result : ReadinessResultShape}
    (h : computeReadiness (buildSnapshots db (FactRepository.listByPassport db passportId)) now
      inputVersions = .ok result) :
    result.blockers = [] ↔ Complete db passportId ∧ Unexpired db now passportId := by
  obtain ⟨hdistinct, hblockers⟩ := computeReadiness_eq_ok h
  rw [map_fieldKey_buildSnapshots] at hdistinct
  rw [hblockers]
  constructor
  · intro hmet
    refine ⟨fun req hreq hblocking ↦ ?_, fun req hreq hblocking fact hfact hpassport hkey ↦ ?_⟩
    · obtain ⟨fact, hfact, hkey, hvalue, -⟩ := (met_iff hdistinct).1 (hmet req hreq hblocking)
      obtain ⟨hfact, hpassport⟩ := FactRepository.mem_listByPassport.1 hfact
      exact ⟨fact, hfact, hpassport, hkey, hvalue⟩
    · obtain ⟨found, hfound, hkey', -, hunexpired⟩ :=
        (met_iff hdistinct).1 (hmet req hreq hblocking)
      have hlisted := FactRepository.mem_listByPassport.2 ⟨hfact, hpassport⟩
      rwa [List.inj_on_of_nodup_map hdistinct hlisted hfound (hkey.trans hkey'.symm)]
  · rintro ⟨hcomplete, hunexpired⟩ req hreq hblocking
    obtain ⟨fact, hfact, hpassport, hkey, hvalue⟩ := hcomplete req hreq hblocking
    exact (met_iff hdistinct).2 ⟨fact, FactRepository.mem_listByPassport.2 ⟨hfact, hpassport⟩, hkey,
      hvalue, hunexpired req hreq hblocking fact hfact hpassport hkey⟩

/-- Readiness can be computed where no field key appears twice. -/
theorem exists_readiness_eq_ok (h : DistinctKeys db) (now : Instant) (passportId : Uuid) :
    ∃ result, computeReadiness (buildSnapshots db (FactRepository.listByPassport db passportId)) now =
      .ok result := by
  refine exists_computeReadiness_eq_ok ?_
  rw [map_fieldKey_buildSnapshots]
  have hfilter : ((db.facts.filter (·.passportId = passportId)).map Fact.fieldKey).Nodup := by
    refine List.Nodup.of_map (passportId, ·) ?_
    have hpairs : (db.facts.filter (·.passportId = passportId)).map
        (fun fact ↦ (passportId, fact.fieldKey)) =
          (db.facts.filter (·.passportId = passportId)).map
            fun fact ↦ (fact.passportId, fact.fieldKey) :=
      List.map_congr_left fun fact hfact ↦
        congrArg (·, fact.fieldKey) (of_decide_eq_true (List.mem_filter.1 hfact).2 : _ = _).symm
    rw [List.map_map]
    exact hpairs ▸ h.sublist (List.filter_sublist.map _)
  exact ((List.sortOn_perm _ _).map Fact.fieldKey).nodup_iff.2 hfilter

/-- A passport without facts lacks them all. -/
theorem not_complete_of_no_facts (h : FactRepository.listByPassport db passportId = []) :
    ¬ Complete db passportId := by
  intro hcomplete
  obtain ⟨fact, hfact, hpassport, -, -⟩ := hcomplete _ List.mem_cons_self rfl
  have hlisted := FactRepository.mem_listByPassport.2 ⟨hfact, hpassport⟩
  rw [h] at hlisted
  cases hlisted

end

end TolPlatform.Passports
