import Mathlib.Algebra.BigOperators.Group.List.Basic
import Mathlib.Algebra.Ring.Int.Defs
import TolPlatform.Domain.Money

/-!
# Volume reconciliation

`packages/domain/src/volume-reconciliation.ts`. The slices of an opportunity reconcile if no cell occurs
twice, all are in the opportunity's currency, they sum up to the offered volume, and the movable volumes
are in order (`reconcileOpportunityVolume_eq_ok`). A negative amount throws; any other submission gets a
verdict (`exists_reconcileOpportunityVolume`).
-/

namespace TolPlatform

structure VolumeSliceInput where
  jurisdiction : String
  mcc : String
  cardOrigin : String
  channel : String
  period : String
  currency : String
  amountMinor : Int
  deriving DecidableEq, Repr

structure OpportunityVolumeSummary where
  currency : String
  offeredCardGpvMinor : Int
  movableNowMinor : Int
  movable30dMinor : Int
  movable90dMinor : Int
  deriving DecidableEq, Repr

inductive VolumeMismatchCode
  | duplicateCell | sumMismatch | movabilityOrder | currencyMismatch
  deriving DecidableEq, Repr

structure VolumeMismatch where
  code : VolumeMismatchCode
  message : String
  deriving DecidableEq, Repr

structure VolumeReconciliationResult where
  reconciled : Bool
  sliceTotalMinor : Int
  offeredCardGpvMinor : Int
  mismatches : List VolumeMismatch
  deriving DecidableEq, Repr

namespace VolumeSliceInput

/-- What makes a slice a cell of its own. -/
def cellKey (s : VolumeSliceInput) : String :=
  s!"{s.jurisdiction}|{s.mcc}|{s.cardOrigin}|{s.channel}|{s.period}"

def duplicateCell (s : VolumeSliceInput) : VolumeMismatch where
  code := .duplicateCell
  message := s!"duplicate volume slice cell (jurisdiction={s.jurisdiction}, mcc={s.mcc}, cardOrigin={s.cardOrigin}, channel={s.channel}, period={s.period}) — would double-count volume in the SUM check"

def currencyMismatch (s : VolumeSliceInput) (summary : OpportunityVolumeSummary) : VolumeMismatch where
  code := .currencyMismatch
  message := s!"volume slice cell (jurisdiction={s.jurisdiction}, mcc={s.mcc}, period={s.period}) is in {s.currency}, but the Opportunity's currency is {summary.currency} — excluded from the sum rather than silently combined"

end VolumeSliceInput

/-- The state of the loop over the slices. -/
structure Tally where
  seenCells : List String := []
  sliceTotalMinor : Int := 0
  mismatches : List VolumeMismatch := []
  deriving DecidableEq, Repr

def tallySlice (summary : OpportunityVolumeSummary) (t : Tally) (s : VolumeSliceInput) :
    Except Thrown Tally := do
  throwIf (s.amountMinor < 0)
    (moneyInvariantError s!"VolumeSlice.amountMinor must not be negative — got {s.amountMinor}")
  let repeated := if s.cellKey ∈ t.seenCells then [s.duplicateCell] else []
  let seenCells := s.cellKey :: t.seenCells
  if s.currency ≠ summary.currency then
    return { t with
      seenCells, mismatches := t.mismatches ++ repeated ++ [s.currencyMismatch summary] }
  else
    return { seenCells, sliceTotalMinor := t.sliceTotalMinor + s.amountMinor,
             mismatches := t.mismatches ++ repeated }

namespace OpportunityVolumeSummary

def sumMismatch (summary : OpportunityVolumeSummary) (sliceTotalMinor : Int) : List VolumeMismatch :=
  if sliceTotalMinor ≠ summary.offeredCardGpvMinor then
    [⟨.sumMismatch, s!"SUM(volume slices) = {sliceTotalMinor} does not equal offeredCardGpvMinor = {summary.offeredCardGpvMinor}"⟩]
  else []

/-- `movable_now <= movable_30d <= movable_90d <= offered_card_gpv`. -/
def MovableInOrder (summary : OpportunityVolumeSummary) : Prop :=
  summary.movableNowMinor ≤ summary.movable30dMinor ∧
    summary.movable30dMinor ≤ summary.movable90dMinor ∧
      summary.movable90dMinor ≤ summary.offeredCardGpvMinor

instance (summary : OpportunityVolumeSummary) : Decidable summary.MovableInOrder :=
  inferInstanceAs (Decidable (_ ∧ _))

def movabilityMismatch (summary : OpportunityVolumeSummary) : List VolumeMismatch :=
  if summary.MovableInOrder then []
  else [⟨.movabilityOrder, s!"movable_now ({summary.movableNowMinor}) <= movable_30d ({summary.movable30dMinor}) <= movable_90d ({summary.movable90dMinor}) <= offered_card_gpv ({summary.offeredCardGpvMinor}) does not hold"⟩]

end OpportunityVolumeSummary

def reconcileOpportunityVolume (slices : List VolumeSliceInput) (summary : OpportunityVolumeSummary) :
    Except Thrown VolumeReconciliationResult := do
  let t ← slices.foldlM (tallySlice summary) {}
  let mismatches :=
    t.mismatches ++ summary.sumMismatch t.sliceTotalMinor ++ summary.movabilityMismatch
  return { reconciled := mismatches.length = 0, sliceTotalMinor := t.sliceTotalMinor,
           offeredCardGpvMinor := summary.offeredCardGpvMinor, mismatches }

/-! ### What the verdict says -/

/-- The sum of the slices in a currency. -/
def sliceTotal (currency : String) (slices : List VolumeSliceInput) : Int :=
  ((slices.filter (·.currency = currency)).map (·.amountMinor)).sum

variable {summary : OpportunityVolumeSummary} {slices : List VolumeSliceInput} {t t' : Tally}

theorem tallySlice_eq_ok {s : VolumeSliceInput} (h : tallySlice summary t s = .ok t') :
    0 ≤ s.amountMinor ∧ t'.seenCells = s.cellKey :: t.seenCells ∧
      t'.sliceTotalMinor = t.sliceTotalMinor + sliceTotal summary.currency [s] ∧
      (t'.mismatches = [] ↔
        t.mismatches = [] ∧ s.cellKey ∉ t.seenCells ∧ s.currency = summary.currency) := by
  obtain ⟨_, hamount, h⟩ := Except.bind_eq_ok'.1 h
  have hnonneg := Int.not_lt.1 (throwIf_eq_ok_iff.1 hamount)
  by_cases hcurrency : s.currency = summary.currency
  · rw [if_neg (not_not_intro hcurrency)] at h
    obtain rfl := Except.ok.inj h
    refine ⟨hnonneg, rfl, ?_, ?_⟩
    · simp [sliceTotal, hcurrency]
    · by_cases hseen : s.cellKey ∈ t.seenCells <;> simp [hseen, hcurrency]
  · rw [if_pos hcurrency] at h
    obtain rfl := Except.ok.inj h
    refine ⟨hnonneg, rfl, ?_, ?_⟩
    · simp [sliceTotal, hcurrency]
    · simp [hcurrency]

/-- What the loop has found: the invariant is about the cells seen so far. -/
theorem tally_eq_ok (h : slices.foldlM (tallySlice summary) t = .ok t') :
    (∀ s ∈ slices, 0 ≤ s.amountMinor) ∧
      t'.sliceTotalMinor = t.sliceTotalMinor + sliceTotal summary.currency slices ∧
      (t'.mismatches = [] ↔ t.mismatches = [] ∧ (∀ s ∈ slices, s.cellKey ∉ t.seenCells) ∧
        (slices.map (·.cellKey)).Nodup ∧ ∀ s ∈ slices, s.currency = summary.currency) := by
  induction slices generalizing t with
  | nil =>
    obtain rfl := Except.ok.inj h
    simp [sliceTotal]
  | cons s slices ih =>
    rw [List.foldlM_cons] at h
    obtain ⟨t₁, hs, h⟩ := Except.bind_eq_ok'.1 h
    obtain ⟨hamount, hseen, htotal, hclean⟩ := tallySlice_eq_ok hs
    obtain ⟨hamounts, htotals, hcleans⟩ := ih h
    refine ⟨List.forall_mem_cons.2 ⟨hamount, hamounts⟩, ?_, ?_⟩
    · have hsplit : sliceTotal summary.currency (s :: slices) =
          sliceTotal summary.currency [s] + sliceTotal summary.currency slices := by
        unfold sliceTotal
        rw [← List.sum_append, ← List.map_append, ← List.filter_append]
        rfl
      rw [htotals, htotal, hsplit, add_assoc]
    · rw [hcleans, hclean, hseen, List.map_cons, List.nodup_cons, List.forall_mem_cons,
        List.forall_mem_cons]
      constructor
      · rintro ⟨⟨hbefore, hnew, hcurrency⟩, hfresh, hnodup, hcurrencies⟩
        refine ⟨hbefore, ⟨hnew, fun r hr ↦ List.not_mem_of_not_mem_cons (hfresh r hr)⟩,
          ⟨fun hmem ↦ ?_, hnodup⟩, hcurrency, hcurrencies⟩
        obtain ⟨r, hr, hkey⟩ := List.mem_map.1 hmem
        exact hfresh r hr (hkey ▸ List.mem_cons_self)
      · rintro ⟨hbefore, ⟨hnew, hfresh⟩, ⟨hother, hnodup⟩, hcurrency, hcurrencies⟩
        refine ⟨⟨hbefore, hnew, hcurrency⟩, fun r hr hmem ↦ ?_, hnodup, hcurrencies⟩
        rcases List.mem_cons.1 hmem with hkey | hmem
        · exact hother (List.mem_map.2 ⟨r, hr, hkey⟩)
        · exact hfresh r hr hmem

/-- **The verdict.** -/
theorem reconcileOpportunityVolume_eq_ok {result : VolumeReconciliationResult}
    (h : reconcileOpportunityVolume slices summary = .ok result) :
    (∀ s ∈ slices, 0 ≤ s.amountMinor) ∧
      result.sliceTotalMinor = sliceTotal summary.currency slices ∧
      (result.reconciled = true ↔ (slices.map (·.cellKey)).Nodup ∧
        (∀ s ∈ slices, s.currency = summary.currency) ∧
        sliceTotal summary.currency slices = summary.offeredCardGpvMinor ∧
        summary.MovableInOrder) := by
  obtain ⟨t, htally, h⟩ := Except.bind_eq_ok'.1 h
  obtain rfl := Except.ok.inj h
  obtain ⟨hamounts, htotal, hclean⟩ := tally_eq_ok htally
  rw [show ({} : Tally).sliceTotalMinor = 0 from rfl, zero_add] at htotal
  refine ⟨hamounts, htotal, ?_⟩
  show decide ((t.mismatches ++ summary.sumMismatch t.sliceTotalMinor ++
    summary.movabilityMismatch).length = 0) = true ↔ _
  have hsum : summary.sumMismatch t.sliceTotalMinor = [] ↔
      sliceTotal summary.currency slices = summary.offeredCardGpvMinor := by
    rw [OpportunityVolumeSummary.sumMismatch, htotal]
    by_cases hoffered : sliceTotal summary.currency slices = summary.offeredCardGpvMinor <;>
      simp [hoffered]
  have horder : summary.movabilityMismatch = [] ↔ summary.MovableInOrder := by
    rw [OpportunityVolumeSummary.movabilityMismatch]
    by_cases hmovable : summary.MovableInOrder <;> simp [hmovable]
  rw [decide_eq_true_eq, List.length_eq_zero_iff, List.append_eq_nil_iff, List.append_eq_nil_iff,
    hsum, horder, hclean]
  simp [and_assoc]

/-- Only a negative amount throws. -/
theorem exists_reconcileOpportunityVolume (h : ∀ s ∈ slices, 0 ≤ s.amountMinor) :
    ∃ result, reconcileOpportunityVolume slices summary = .ok result := by
  have hslice (t : Tally) (s : VolumeSliceInput) (hs : s ∈ slices) :
      ∃ t', tallySlice summary t s = .ok t' := by
    unfold tallySlice
    rw [throwIf, if_neg (Int.not_lt.2 (h s hs))]
    by_cases hcurrency : s.currency ≠ summary.currency
    · exact ⟨_, if_pos hcurrency⟩
    · exact ⟨_, if_neg hcurrency⟩
  obtain ⟨t, ht⟩ := Except.exists_foldlM_eq_ok hslice {}
  exact ⟨_, Except.bind_eq_ok'.2 ⟨t, ht, rfl⟩⟩

end TolPlatform
