import Mathlib.Data.List.Perm.Subperm
import TolPlatform.Matching.ScoreBounds

/-!
# Lists of codes

Categories and jurisdictions are lists, and a request may name a code twice. What becomes of a match
when its five lists are permuted and entries repeated (`CodeLists.Repeats`):

* The verdict stays, finding by finding, up to the messages (`evaluateEligibility_relisted`):
  eligibility only asks what is in a list.
* The total does not. The note says how many accepted codes go beyond the opportunity's own, but what
  is counted is entries, so that a code which is named twice is one too many; and coverage is a share
  of entries. The total stays for every change of the lists exactly where no category of the
  opportunity is accepted and its jurisdictions are covered all or none
  (`scoreMatch_takesAsSets_iff`).
-/

namespace TolPlatform

open List (Perm Subperm)

/-! ### Lists that name the same codes -/

/-- As `l`, in any order and with entries repeated. -/
def Repeats (l l' : List String) : Prop := Subperm l l' ∧ l' ⊆ l

theorem Repeats.mem_iff {l l' : List String} (h : Repeats l l') {code : String} :
    code ∈ l' ↔ code ∈ l :=
  ⟨fun hcode ↦ h.2 hcode, fun hcode ↦ h.1.subset hcode⟩

theorem Repeats.refl (l : List String) : Repeats l l := ⟨.refl l, .refl l⟩

theorem Repeats.replicate_append {l : List String} {code : String} (h : code ∈ l) (k : ℕ) :
    Repeats l (List.replicate k code ++ l) := by
  refine ⟨(List.sublist_append_right _ _).subperm, List.append_subset.2 ⟨?_, .refl l⟩⟩
  intro code' hcode'
  exact List.eq_of_mem_replicate hcode' ▸ h

theorem Repeats.perm {l l' : List String} (h : Repeats l l') (hlength : l'.length = l.length) :
    l'.Perm l :=
  (h.1.perm_of_length_le hlength.le).symm

theorem Repeats.eq_nil_iff {l l' : List String} (h : Repeats l l') : l' = [] ↔ l = [] := by
  rw [List.eq_nil_iff_forall_not_mem, List.eq_nil_iff_forall_not_mem]
  exact forall_congr' fun code ↦ not_congr h.mem_iff

theorem overlap_eq_nil_iff {a b : List String} : overlap a b = [] ↔ ∀ code ∈ a, code ∉ b := by
  simp [overlap, List.filter_eq_nil_iff]

theorem Repeats.overlap_eq_nil_iff {a a' b b' : List String} (ha : Repeats a a') (hb : Repeats b b') :
    overlap a' b' = [] ↔ overlap a b = [] := by
  rw [TolPlatform.overlap_eq_nil_iff, TolPlatform.overlap_eq_nil_iff]
  exact forall_congr' fun code ↦ imp_congr ha.mem_iff (not_congr hb.mem_iff)

theorem filter_notMem_eq_nil_iff {a b : List String} :
    a.filter (· ∉ b) = [] ↔ ∀ code ∈ a, code ∈ b := by
  simp [List.filter_eq_nil_iff]

/-- The lists of codes of an opportunity and a capacity. -/
structure CodeLists where
  mccs : List String
  jurisdictions : List String
  offeredJurisdictions : List String
  mccsAccepted : List String
  mccsExcluded : List String

def MatchOpportunityInput.relisted (opportunity : MatchOpportunityInput) (lists : CodeLists) :
    MatchOpportunityInput :=
  { opportunity with mccs := lists.mccs, jurisdictions := lists.jurisdictions }

def MatchCapacityInput.relisted (capacity : MatchCapacityInput) (lists : CodeLists) :
    MatchCapacityInput :=
  { capacity with
    jurisdictions := lists.offeredJurisdictions
    mccsAccepted := lists.mccsAccepted
    mccsExcluded := lists.mccsExcluded }

/-- The lists of a match as they are. -/
def CodeLists.of (opportunity : MatchOpportunityInput) (capacity : MatchCapacityInput) :
    CodeLists where
  mccs := opportunity.mccs
  jurisdictions := opportunity.jurisdictions
  offeredJurisdictions := capacity.jurisdictions
  mccsAccepted := capacity.mccsAccepted
  mccsExcluded := capacity.mccsExcluded

structure CodeLists.Repeats (l l' : CodeLists) : Prop where
  mccs : TolPlatform.Repeats l.mccs l'.mccs
  jurisdictions : TolPlatform.Repeats l.jurisdictions l'.jurisdictions
  offeredJurisdictions : TolPlatform.Repeats l.offeredJurisdictions l'.offeredJurisdictions
  mccsAccepted : TolPlatform.Repeats l.mccsAccepted l'.mccsAccepted
  mccsExcluded : TolPlatform.Repeats l.mccsExcluded l'.mccsExcluded

variable {opportunity : MatchOpportunityInput} {capacity : MatchCapacityInput} {context : MatchContext}
  {lists : CodeLists}

/-! ### The verdict -/

/-- A finding without its message. -/
def RuleResult.silent (r : RuleResult) : RuleResult := { r with message := "" }

/-- Eligible or not, and the findings without their messages. -/
def EligibilityResult.verdict (result : EligibilityResult) : Bool × List RuleResult :=
  (result.eligible, result.results.map RuleResult.silent)

theorem checkJurisdiction_relisted (h : (CodeLists.of opportunity capacity).Repeats lists) :
    (checkJurisdiction (opportunity.relisted lists) (capacity.relisted lists)).silent =
      (checkJurisdiction opportunity capacity).silent := by
  have hwanted : (opportunity.relisted lists).jurisdictions = [] ↔ opportunity.jurisdictions = [] :=
    h.jurisdictions.eq_nil_iff
  have hoffered : (capacity.relisted lists).jurisdictions = [] ↔ capacity.jurisdictions = [] :=
    h.offeredJurisdictions.eq_nil_iff
  have hoverlap : overlap (opportunity.relisted lists).jurisdictions
      (capacity.relisted lists).jurisdictions = [] ↔
        overlap opportunity.jurisdictions capacity.jurisdictions = [] :=
    h.jurisdictions.overlap_eq_nil_iff h.offeredJurisdictions
  rw [checkJurisdiction, checkJurisdiction]
  simp only [hwanted, hoffered, hoverlap]
  split_ifs <;> rfl

theorem checkMccProduct_relisted (h : (CodeLists.of opportunity capacity).Repeats lists) :
    (checkMccProduct (opportunity.relisted lists) (capacity.relisted lists)).silent =
      (checkMccProduct opportunity capacity).silent := by
  have hmccs : (opportunity.relisted lists).mccs = [] ↔ opportunity.mccs = [] := h.mccs.eq_nil_iff
  have haccepted : (capacity.relisted lists).mccsAccepted = [] ↔ capacity.mccsAccepted = [] :=
    h.mccsAccepted.eq_nil_iff
  have hexcluded :
      overlap (opportunity.relisted lists).mccs (capacity.relisted lists).mccsExcluded = [] ↔
        overlap opportunity.mccs capacity.mccsExcluded = [] :=
    h.mccs.overlap_eq_nil_iff h.mccsExcluded
  have huncovered :
      (opportunity.relisted lists).mccs.filter (· ∉ (capacity.relisted lists).mccsAccepted) = [] ↔
        opportunity.mccs.filter (· ∉ capacity.mccsAccepted) = [] := by
    rw [filter_notMem_eq_nil_iff, filter_notMem_eq_nil_iff]
    exact forall_congr' fun code ↦ imp_congr h.mccs.mem_iff h.mccsAccepted.mem_iff
  rw [checkMccProduct, checkMccProduct]
  simp only [hmccs, haccepted, ne_eq, hexcluded, huncovered]
  split_ifs <;> rfl

theorem ruleResults_relisted (context : MatchContext)
    (h : (CodeLists.of opportunity capacity).Repeats lists) :
    (ruleResults (opportunity.relisted lists) (capacity.relisted lists) context).map
        (List.map RuleResult.silent) =
      (ruleResults opportunity capacity context).map (List.map RuleResult.silent) := by
  have hjurisdiction := checkJurisdiction_relisted h
  have hmcc := checkMccProduct_relisted h
  have hvolume : checkVolumeTicket (opportunity.relisted lists) (capacity.relisted lists) context =
      checkVolumeTicket opportunity capacity context := rfl
  have hrisk : checkRisk (capacity.relisted lists) context = checkRisk capacity context := rfl
  rw [ruleResults, ruleResults, hvolume, hrisk]
  rcases checkVolumeTicket opportunity capacity context with thrown | volumeTicket
  · rfl
  · rcases checkRisk capacity context with thrown | risk
    · rfl
    · refine congrArg Except.ok ?_
      simp only [List.map_append, List.map_cons, hjurisdiction, hmcc]
      rfl

theorem filter_isBlocker_silent (results : List RuleResult) :
    (results.map RuleResult.silent).filter RuleResult.isBlocker =
      (results.filter RuleResult.isBlocker).map RuleResult.silent :=
  List.filter_map

/-- **Eligibility takes its lists as sets.** -/
theorem evaluateEligibility_relisted (h : (CodeLists.of opportunity capacity).Repeats lists) :
    (evaluateEligibility (opportunity.relisted lists) (capacity.relisted lists) context).map
        EligibilityResult.verdict =
      (evaluateEligibility opportunity capacity context).map EligibilityResult.verdict := by
  have hresults := ruleResults_relisted context h
  have hopportunity : validateOpportunity (opportunity.relisted lists) =
      validateOpportunity opportunity := rfl
  have hcapacity : validateCapacity (capacity.relisted lists) = validateCapacity capacity := rfl
  rw [evaluateEligibility, evaluateEligibility, hopportunity, hcapacity]
  rcases validateOpportunity opportunity with thrown | -
  · rfl
  rcases validateCapacity capacity with thrown | -
  · rfl
  rcases hfresh : ruleResults (opportunity.relisted lists) (capacity.relisted lists) context with
    thrown | results' <;>
  rcases hstale : ruleResults opportunity capacity context with thrown' | results <;>
  rw [hfresh, hstale] at hresults
  · exact congrArg Except.error (Except.error.inj hresults)
  · exact absurd hresults (by simp [Except.map])
  · exact absurd hresults (by simp [Except.map])
  · have hsilent : results'.map RuleResult.silent = results.map RuleResult.silent :=
      Except.ok.inj hresults
    have hblockers : results'.filter RuleResult.isBlocker = [] ↔
        results.filter RuleResult.isBlocker = [] := by
      rw [← List.map_eq_nil_iff (f := RuleResult.silent), ← filter_isBlocker_silent, hsilent,
        filter_isBlocker_silent, List.map_eq_nil_iff]
    refine congrArg Except.ok (Prod.ext ?_ hsilent)
    exact decide_eq_decide.2 hblockers

/-! ### What is counted -/

theorem overlapCount_le (a b : List String) : overlapCount a b ≤ a.length := List.length_filter_le _ _

theorem overlapCount_congr {a b b' : List String} (h : ∀ code, code ∈ b' ↔ code ∈ b) :
    overlapCount a b' = overlapCount a b := by
  rw [overlapCount, overlapCount, overlap, overlap]
  simp only [h]

theorem overlapCount_replicate_append {a b : List String} {code : String} (h : code ∈ b) (k : ℕ) :
    overlapCount (List.replicate k code ++ a) b = k + overlapCount a b := by
  simp [overlapCount, overlap, List.filter_append, h]

theorem overlapCount_replicate_append_of_notMem {a b : List String} {code : String} (h : code ∉ b)
    (k : ℕ) : overlapCount (List.replicate k code ++ a) b = overlapCount a b := by
  simp [overlapCount, overlap, List.filter_append, h]

theorem overlapCount_eq_zero {a b : List String} (h : ∀ code ∈ a, code ∉ b) : overlapCount a b = 0 :=
  List.length_eq_zero_iff.2 (overlap_eq_nil_iff.2 h)

theorem overlapCount_eq_length {a b : List String} (h : ∀ code ∈ a, code ∈ b) :
    overlapCount a b = a.length := by
  rw [overlapCount, overlap, List.filter_eq_self.2 (by simpa using h)]

/-! ### The total -/

/-- No category that is asked for is accepted, and the jurisdictions that are asked for are all covered
or none is. -/
def CountsAlike (opportunity : MatchOpportunityInput) (capacity : MatchCapacityInput) : Prop :=
  (∀ mcc ∈ opportunity.mccs, mcc ∉ capacity.mccsAccepted) ∧
    ((∀ jurisdiction ∈ opportunity.jurisdictions, jurisdiction ∈ capacity.jurisdictions) ∨
      ∀ jurisdiction ∈ opportunity.jurisdictions, jurisdiction ∉ capacity.jurisdictions)

theorem scoreMccProductFit_of_notMem (h : ∀ mcc ∈ opportunity.mccs, mcc ∉ capacity.mccsAccepted) :
    (scoreMccProductFit opportunity capacity).score = 0 := by
  rw [scoreMccProductFit]
  split_ifs
  · rfl
  · have hnone : ((overlapCount opportunity.mccs capacity.mccsAccepted : ℕ) : ℚ) = 0 := by
      rw [overlapCount_eq_zero h, Nat.cast_zero]
    have hclamped {penalty : ℕ} :
        clamp0to100 (0 / opportunity.mccs.length * 100 - (penalty : ℚ)) = 0 := by
      refine max_eq_left ((min_le_right _ _).trans ?_)
      rw [zero_div, zero_mul, zero_sub, neg_nonpos]
      exact Nat.cast_nonneg _
    show round1 (clamp0to100 (_ / _ * 100 - _)) = 0
    rw [hnone, hclamped]
    exact round1_intCast 0

theorem scoreGeographyLicensingFit_of_mem (hne : opportunity.jurisdictions ≠ [])
    (h : ∀ jurisdiction ∈ opportunity.jurisdictions, jurisdiction ∈ capacity.jurisdictions) :
    (scoreGeographyLicensingFit opportunity capacity).score = 100 := by
  have hlength : (opportunity.jurisdictions.length : ℚ) ≠ 0 := by
    exact_mod_cast List.length_eq_zero_iff.not.2 hne
  rw [scoreGeographyLicensingFit, if_neg hne]
  show round1 (_ / _ * 100) = 100
  rw [overlapCount_eq_length h, div_self hlength, one_mul]
  exact round1_intCast 100

theorem scoreGeographyLicensingFit_of_notMem
    (h : ∀ jurisdiction ∈ opportunity.jurisdictions, jurisdiction ∉ capacity.jurisdictions) :
    (scoreGeographyLicensingFit opportunity capacity).score = 0 := by
  rw [scoreGeographyLicensingFit]
  split_ifs
  · rfl
  · show round1 (_ / _ * 100) = 0
    rw [overlapCount_eq_zero h, Nat.cast_zero, zero_div, zero_mul]
    exact round1_intCast 0

section

variable {volume : MatchOpportunityInput → MatchCapacityInput → ℚ}

/-- The lists are read by two factors. -/
theorem totalWith_relisted
    (hvolume : volume (opportunity.relisted lists) (capacity.relisted lists) =
      volume opportunity capacity)
    (hmcc : (scoreMccProductFit (opportunity.relisted lists) (capacity.relisted lists)).score =
      (scoreMccProductFit opportunity capacity).score)
    (hgeography :
      (scoreGeographyLicensingFit (opportunity.relisted lists) (capacity.relisted lists)).score =
        (scoreGeographyLicensingFit opportunity capacity).score) :
    totalWith volume (opportunity.relisted lists) (capacity.relisted lists) context =
      totalWith volume opportunity capacity context := by
  refine congrArg totalOf (funext fun factor ↦ ?_)
  cases factor with
  | mccProductFit => exact hmcc
  | geographyLicensingFit => exact hgeography
  | volumeTicketFit => exact hvolume
  | _ => rfl

theorem CountsAlike.totalWith_relisted (hcounts : CountsAlike opportunity capacity)
    (hvolume : volume (opportunity.relisted lists) (capacity.relisted lists) =
      volume opportunity capacity)
    (h : (CodeLists.of opportunity capacity).Repeats lists) :
    totalWith volume (opportunity.relisted lists) (capacity.relisted lists) context =
      totalWith volume opportunity capacity context := by
  refine TolPlatform.totalWith_relisted hvolume ?_ ?_
  · rw [scoreMccProductFit_of_notMem hcounts.1, scoreMccProductFit_of_notMem]
    intro mcc hmcc haccepted
    exact hcounts.1 mcc (h.mccs.mem_iff.1 hmcc) (h.mccsAccepted.mem_iff.1 haccepted)
  · have hnone : (∀ jurisdiction ∈ opportunity.jurisdictions, jurisdiction ∉ capacity.jurisdictions) →
        (scoreGeographyLicensingFit (opportunity.relisted lists) (capacity.relisted lists)).score =
          (scoreGeographyLicensingFit opportunity capacity).score := by
      intro hnone
      rw [scoreGeographyLicensingFit_of_notMem hnone, scoreGeographyLicensingFit_of_notMem]
      intro jurisdiction hjurisdiction hoffered
      exact hnone jurisdiction (h.jurisdictions.mem_iff.1 hjurisdiction)
        (h.offeredJurisdictions.mem_iff.1 hoffered)
    refine hcounts.2.elim (fun hall ↦ ?_) hnone
    by_cases hne : opportunity.jurisdictions = []
    · exact hnone (by simp [hne])
    · rw [scoreGeographyLicensingFit_of_mem hne hall,
        scoreGeographyLicensingFit_of_mem (h.jurisdictions.eq_nil_iff.not.2 hne)]
      intro jurisdiction hjurisdiction
      exact h.offeredJurisdictions.mem_iff.2
        (hall jurisdiction (h.jurisdictions.mem_iff.1 hjurisdiction))

/-- Entries that are only permuted are counted alike; what is excluded or offered is not counted. -/
theorem totalWith_relisted_of_length
    (hvolume : volume (opportunity.relisted lists) (capacity.relisted lists) =
      volume opportunity capacity)
    (h : (CodeLists.of opportunity capacity).Repeats lists)
    (hmccs : lists.mccs.length = opportunity.mccs.length)
    (hjurisdictions : lists.jurisdictions.length = opportunity.jurisdictions.length)
    (haccepted : lists.mccsAccepted.length = capacity.mccsAccepted.length) :
    totalWith volume (opportunity.relisted lists) (capacity.relisted lists) context =
      totalWith volume opportunity capacity context := by
  have hmatched : overlapCount lists.mccs lists.mccsAccepted =
      overlapCount opportunity.mccs capacity.mccsAccepted := by
    rw [overlapCount_congr fun code ↦ h.mccsAccepted.mem_iff]
    exact ((h.mccs.perm hmccs).filter _).length_eq
  have hcovered : overlapCount lists.jurisdictions lists.offeredJurisdictions =
      overlapCount opportunity.jurisdictions capacity.jurisdictions := by
    rw [overlapCount_congr fun code ↦ h.offeredJurisdictions.mem_iff]
    exact ((h.jurisdictions.perm hjurisdictions).filter _).length_eq
  have hmccsNil : lists.mccs = [] ↔ opportunity.mccs = [] := h.mccs.eq_nil_iff
  have hjurisdictionsNil : lists.jurisdictions = [] ↔ opportunity.jurisdictions = [] :=
    h.jurisdictions.eq_nil_iff
  refine TolPlatform.totalWith_relisted hvolume ?_ ?_
  · rw [scoreMccProductFit, scoreMccProductFit]
    simp only [MatchOpportunityInput.relisted, MatchCapacityInput.relisted, hmatched, hmccs, haccepted,
      hmccsNil]
  · rw [scoreGeographyLicensingFit, scoreGeographyLicensingFit]
    simp only [MatchOpportunityInput.relisted, MatchCapacityInput.relisted, hcovered, hjurisdictions,
      hjurisdictionsNil]

/-- One factor alone differs, and its weight keeps the difference from being rounded away. -/
theorem abs_sub_le_of_totalWith_eq {opportunity' : MatchOpportunityInput}
    {capacity' : MatchCapacityInput} (factor : RankingFactor) (hfactor : factor ≠ .volumeTicketFit)
    (hrest : ∀ other ≠ factor, scoreWith volume opportunity capacity context other =
      scoreWith volume opportunity' capacity' context other)
    (h : totalWith volume opportunity capacity context =
      totalWith volume opportunity' capacity' context) :
    |unroundedScore opportunity capacity context factor -
        unroundedScore opportunity' capacity' context factor| * MatchingConfig.rankingWeights factor ≤
      1 / 10 + 1 / 10 * MatchingConfig.rankingWeights factor := by
  have hscore {o : MatchOpportunityInput} {c : MatchCapacityInput} :
      scoreWith volume o c context factor = round1 (unroundedScore o c context factor) := by
    rw [← factorScore_eq_round1 hfactor]
    cases factor with
    | volumeTicketFit => exact absurd rfl hfactor
    | _ => rfl
  have hcontribution := contribution_eq_of_totalOf_eq hrest h
  rw [hscore, hscore] at hcontribution
  have hleft := abs_le.1
    (abs_contribution_sub_le (unroundedScore opportunity capacity context factor) factor)
  have hright := abs_le.1
    (abs_contribution_sub_le (unroundedScore opportunity' capacity' context factor) factor)
  rw [hcontribution] at hleft
  rw [← abs_of_nonneg (rankingWeights_nonneg factor), ← abs_mul, sub_mul,
    abs_of_nonneg (rankingWeights_nonneg factor), abs_le]
  constructor <;> linarith

theorem unroundedScore_mccProductFit (hne : opportunity.mccs ≠ []) :
    unroundedScore opportunity capacity context .mccProductFit =
      clamp0to100 (overlapCount opportunity.mccs capacity.mccsAccepted / opportunity.mccs.length * 100 -
        (min 20 ((capacity.mccsAccepted.length -
          overlapCount opportunity.mccs capacity.mccsAccepted) * 2) : ℕ)) :=
  if_neg hne

theorem unroundedScore_geographyLicensingFit (hne : opportunity.jurisdictions ≠ []) :
    unroundedScore opportunity capacity context .geographyLicensingFit =
      overlapCount opportunity.jurisdictions capacity.jurisdictions /
        opportunity.jurisdictions.length * 100 :=
  if_neg hne

theorem clamp0to100_eq_self {x : ℚ} (h0 : 0 ≤ x) (h100 : x ≤ 100) : clamp0to100 x = x := by
  rw [clamp0to100, min_eq_right h100, max_eq_right h0]

/-- A category that is accepted: the opportunity names it until nothing that is accepted is left over,
and then the capacity names it until the penalty is at its cap. -/
theorem notMem_mccsAccepted
    (hvolume : ∀ lists, volume (opportunity.relisted lists) (capacity.relisted lists) =
      volume opportunity capacity)
    (h : ∀ lists, (CodeLists.of opportunity capacity).Repeats lists →
      totalWith volume (opportunity.relisted lists) (capacity.relisted lists) context =
        totalWith volume opportunity capacity context)
    {mcc : String} (hmcc : mcc ∈ opportunity.mccs) : mcc ∉ capacity.mccsAccepted := by
  intro haccepted
  obtain ⟨k, hk⟩ : ∃ k, k = opportunity.mccs.length + capacity.mccsAccepted.length := ⟨_, rfl⟩
  obtain ⟨matched, hmatched⟩ : ∃ matched, matched =
      k + overlapCount opportunity.mccs capacity.mccsAccepted := ⟨_, rfl⟩
  let mccs := List.replicate k mcc ++ opportunity.mccs
  let accepted := List.replicate (matched + 10) mcc ++ capacity.mccsAccepted
  let targeted : CodeLists := { CodeLists.of opportunity capacity with mccs }
  let padded : CodeLists := { targeted with mccsAccepted := accepted }
  have hmccs : Repeats opportunity.mccs mccs := .replicate_append hmcc k
  have hpadded : Repeats capacity.mccsAccepted accepted := .replicate_append haccepted (matched + 10)
  have htotal := (h targeted ⟨hmccs, .refl _, .refl _, .refl _, .refl _⟩).trans
    (h padded ⟨hmccs, .refl _, .refl _, hpadded, .refl _⟩).symm
  have hdiffer := abs_sub_le_of_totalWith_eq .mccProductFit (by simp)
    (fun other hother ↦ by
      cases other with
      | mccProductFit => exact absurd rfl hother
      | volumeTicketFit => exact (hvolume targeted).trans (hvolume padded).symm
      | _ => rfl) htotal
  have hne : mccs ≠ [] := List.append_ne_nil_of_right_ne_nil _ (List.ne_nil_of_mem hmcc)
  -- the two counts, and the coverage they share
  have hcount : overlapCount mccs capacity.mccsAccepted = matched := by
    rw [overlapCount_replicate_append haccepted, hmatched]
  have hcount' : overlapCount mccs accepted = matched := by
    rw [overlapCount_congr fun code ↦ hpadded.mem_iff, hcount]
  have hlength : mccs.length = k + opportunity.mccs.length := by simp [mccs]
  have hlength' : accepted.length = matched + 10 + capacity.mccsAccepted.length := by simp [accepted]
  have hle := overlapCount_le opportunity.mccs capacity.mccsAccepted
  obtain ⟨coverage, hcoverage⟩ : ∃ coverage : ℚ, coverage = matched / mccs.length * 100 := ⟨_, rfl⟩
  have hpos : (0 : ℚ) < mccs.length := by exact_mod_cast List.length_pos_iff.2 hne
  have hhalf : 50 ≤ coverage := by
    have hnat : mccs.length ≤ 2 * matched := by omega
    have hcast : (mccs.length : ℚ) ≤ 2 * matched := by exact_mod_cast hnat
    rw [hcoverage, div_mul_eq_mul_div, le_div_iff₀ hpos]
    linarith
  have hwhole : coverage ≤ 100 := by
    have hcast : (matched : ℚ) ≤ mccs.length := by exact_mod_cast (by omega : matched ≤ mccs.length)
    rw [hcoverage, div_mul_eq_mul_div, div_le_iff₀ hpos]
    linarith
  have htargeted : unroundedScore (opportunity.relisted targeted) (capacity.relisted targeted) context
      .mccProductFit = coverage := by
    have hpenalty : min 20 ((capacity.mccsAccepted.length - matched) * 2) = 0 := by omega
    rw [unroundedScore_mccProductFit hne]
    show clamp0to100 (overlapCount mccs capacity.mccsAccepted / mccs.length * 100 -
      (min 20 ((capacity.mccsAccepted.length - overlapCount mccs capacity.mccsAccepted) * 2) : ℕ)) = _
    rw [hcount, hpenalty, Nat.cast_zero, sub_zero, ← hcoverage, clamp0to100_eq_self _ hwhole]
    linarith
  have hpaddedScore : unroundedScore (opportunity.relisted padded) (capacity.relisted padded) context
      .mccProductFit = coverage - 20 := by
    have hpenalty : min 20 ((accepted.length - matched) * 2) = 20 := by omega
    rw [unroundedScore_mccProductFit hne]
    show clamp0to100 (overlapCount mccs accepted / mccs.length * 100 -
      (min 20 ((accepted.length - overlapCount mccs accepted) * 2) : ℕ)) = _
    rw [hcount', hpenalty, ← hcoverage]
    exact clamp0to100_eq_self (by push_cast; linarith) (by push_cast; linarith)
  rw [htargeted, hpaddedScore, sub_sub_cancel] at hdiffer
  norm_num [MatchingConfig.rankingWeights] at hdiffer

/-- A jurisdiction that is covered and one that is not: naming the one or the other more often moves the
coverage. -/
theorem all_covered_or_none
    (hvolume : ∀ lists, volume (opportunity.relisted lists) (capacity.relisted lists) =
      volume opportunity capacity)
    (h : ∀ lists, (CodeLists.of opportunity capacity).Repeats lists →
      totalWith volume (opportunity.relisted lists) (capacity.relisted lists) context =
        totalWith volume opportunity capacity context) :
    (∀ jurisdiction ∈ opportunity.jurisdictions, jurisdiction ∈ capacity.jurisdictions) ∨
      ∀ jurisdiction ∈ opportunity.jurisdictions, jurisdiction ∉ capacity.jurisdictions := by
  by_contra hsome
  push Not at hsome
  obtain ⟨⟨outside, houtside, hnot⟩, inside, hinside, hcovered⟩ := hsome
  obtain ⟨n, hn⟩ : ∃ n, n = opportunity.jurisdictions.length := ⟨_, rfl⟩
  let more := List.replicate n inside ++ opportunity.jurisdictions
  let fewer := List.replicate n outside ++ opportunity.jurisdictions
  let favoured : CodeLists := { CodeLists.of opportunity capacity with jurisdictions := more }
  let diluted : CodeLists := { CodeLists.of opportunity capacity with jurisdictions := fewer }
  have htotal := (h favoured ⟨.refl _, .replicate_append hinside n, .refl _, .refl _, .refl _⟩).trans
    (h diluted ⟨.refl _, .replicate_append houtside n, .refl _, .refl _, .refl _⟩).symm
  have hdiffer := abs_sub_le_of_totalWith_eq .geographyLicensingFit (by simp)
    (fun other hother ↦ by
      cases other with
      | geographyLicensingFit => exact absurd rfl hother
      | volumeTicketFit => exact (hvolume favoured).trans (hvolume diluted).symm
      | _ => rfl) htotal
  have hne := List.ne_nil_of_mem hinside
  have hpos : (0 : ℚ) < n := by
    rw [hn]
    exact_mod_cast List.length_pos_iff.2 hne
  obtain ⟨covered, hcount⟩ : ∃ covered, covered =
      overlapCount opportunity.jurisdictions capacity.jurisdictions := ⟨_, rfl⟩
  have hfavoured : unroundedScore (opportunity.relisted favoured) (capacity.relisted favoured) context
      .geographyLicensingFit = (n + covered) / (n + n) * 100 := by
    rw [unroundedScore_geographyLicensingFit (List.append_ne_nil_of_right_ne_nil _ hne)]
    show (overlapCount more capacity.jurisdictions : ℚ) / more.length * 100 = _
    rw [overlapCount_replicate_append hcovered, List.length_append, List.length_replicate, ← hn,
      ← hcount, Nat.cast_add, Nat.cast_add]
  have hdiluted : unroundedScore (opportunity.relisted diluted) (capacity.relisted diluted) context
      .geographyLicensingFit = covered / (n + n) * 100 := by
    rw [unroundedScore_geographyLicensingFit (List.append_ne_nil_of_right_ne_nil _ hne)]
    show (overlapCount fewer capacity.jurisdictions : ℚ) / fewer.length * 100 = _
    rw [overlapCount_replicate_append_of_notMem hnot, List.length_append, List.length_replicate, ← hn,
      ← hcount, Nat.cast_add]
  have hfifty : ((n + covered) / (n + n) * 100 - covered / (n + n) * 100 : ℚ) = 50 := by
    field_simp
    ring
  rw [hfavoured, hdiluted, hfifty] at hdiffer
  norm_num [MatchingConfig.rankingWeights] at hdiffer

end

/-! ### Which lists are taken as sets -/

/-- Neither the verdict nor the total sees lists that are permuted or repeat entries. -/
def TakesAsSets (total : MatchOpportunityInput → MatchCapacityInput → MatchContext → ℚ)
    (opportunity : MatchOpportunityInput) (capacity : MatchCapacityInput) (context : MatchContext) :
    Prop :=
  ∀ lists, (CodeLists.of opportunity capacity).Repeats lists →
    (evaluateEligibility (opportunity.relisted lists) (capacity.relisted lists) context).map
        EligibilityResult.verdict =
      (evaluateEligibility opportunity capacity context).map EligibilityResult.verdict ∧
    total (opportunity.relisted lists) (capacity.relisted lists) context =
      total opportunity capacity context

theorem takesAsSets_totalWith_iff {volume : MatchOpportunityInput → MatchCapacityInput → ℚ}
    (hvolume : ∀ lists, volume (opportunity.relisted lists) (capacity.relisted lists) =
      volume opportunity capacity) :
    TakesAsSets (totalWith volume) opportunity capacity context ↔ CountsAlike opportunity capacity := by
  constructor
  · intro h
    have htotal := fun lists hlists ↦ (h lists hlists).2
    exact ⟨fun mcc hmcc ↦ notMem_mccsAccepted hvolume htotal hmcc, all_covered_or_none hvolume htotal⟩
  · intro hcounts lists hlists
    exact ⟨evaluateEligibility_relisted hlists, hcounts.totalWith_relisted (hvolume lists) hlists⟩

/-- **A match takes its lists as sets exactly where nothing that is repeated can be counted**; its
verdict does so always, and its total where the lists that are counted are only permuted. -/
theorem scoreMatch_takesAsSets_iff (opportunity : MatchOpportunityInput)
    (capacity : MatchCapacityInput) (context : MatchContext) :
    (TakesAsSets exactTotal opportunity capacity context ↔ CountsAlike opportunity capacity) ∧
    (TakesAsSets (fun opportunity capacity context ↦ (scoreMatch opportunity capacity context).total)
      opportunity capacity context ↔ CountsAlike opportunity capacity) ∧
    ∀ lists, (CodeLists.of opportunity capacity).Repeats lists →
      (evaluateEligibility (opportunity.relisted lists) (capacity.relisted lists) context).map
          EligibilityResult.verdict =
        (evaluateEligibility opportunity capacity context).map EligibilityResult.verdict ∧
      (lists.mccs.length = opportunity.mccs.length →
        lists.jurisdictions.length = opportunity.jurisdictions.length →
        lists.mccsAccepted.length = capacity.mccsAccepted.length →
          exactTotal (opportunity.relisted lists) (capacity.relisted lists) context =
            exactTotal opportunity capacity context) := by
  have hmodel : (fun opportunity capacity context ↦ (scoreMatch opportunity capacity context).total) =
      totalWith fun opportunity capacity ↦ (scoreVolumeTicketFit opportunity capacity).score :=
    funext₃ fun _ _ _ ↦ scoreMatch_total
  rw [hmodel, exactTotal]
  refine ⟨takesAsSets_totalWith_iff fun _ ↦ rfl, takesAsSets_totalWith_iff fun _ ↦ rfl, ?_⟩
  intro lists hlists
  exact ⟨evaluateEligibility_relisted hlists, totalWith_relisted_of_length rfl hlists⟩

namespace Matching.Sample

/-- The lists of the sample, with one accepted category named again. -/
def repeatedLists : CodeLists where
  mccs := ["5812"]
  jurisdictions := ["DE", "FR"]
  offeredJurisdictions := ["DE"]
  mccsAccepted := ["5813", "5812", "5813"]
  mccsExcluded := []

/-- The same set of accepted categories, and 0.5 points less. -/
theorem not_takesAsSets_of_repeated :
    (CodeLists.of scoredOpportunity scoredCapacity).Repeats repeatedLists ∧
      exactTotal (scoredOpportunity.relisted repeatedLists) (scoredCapacity.relisted repeatedLists)
        scoredContext ≠ exactTotal scoredOpportunity scoredCapacity scoredContext ∧
      ¬ TakesAsSets exactTotal scoredOpportunity scoredCapacity scoredContext := by
  have hrepeats : (CodeLists.of scoredOpportunity scoredCapacity).Repeats repeatedLists := by
    refine ⟨.refl _, .refl _, .refl _, ⟨?_, by decide⟩, .refl _⟩
    exact ((List.Sublist.refl ["5812", "5813"]).cons "5813").subperm
  have hne : exactTotal (scoredOpportunity.relisted repeatedLists)
      (scoredCapacity.relisted repeatedLists) scoredContext ≠
        exactTotal scoredOpportunity scoredCapacity scoredContext := by
    decide +kernel
  exact ⟨hrepeats, hne, fun h ↦ hne (h _ hrepeats).2⟩

end Matching.Sample

end TolPlatform
