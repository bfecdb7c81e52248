import Mathlib.Algebra.Order.BigOperators.Group.List
import TolPlatform.Opportunities.Service

/-!
# What is reported and what is read back

A replacement is reported on as it was submitted, while of each cell only the first slice is stored. So a
submission that repeats a cell is always reported as not reconciling, but what is read back is the verdict
about the first slices alone, and a total that lacks the repeated ones (`reported_eq_ok`,
`reread_eq_ok`). The two agree exactly if nothing is repeated, or the repeated slices come to nothing and
the first ones do not reconcile either (`reread_agrees_iff`).
-/

namespace TolPlatform.Opportunities

/-- The slices of a submission whose cell an earlier one has. -/
def repeatedSlices (inputs : List VolumeSliceInput) : List VolumeSliceInput :=
  inputs.laterBy VolumeSliceInput.cellKey

/-- The first slices of the cells come to the offered volume, and the movable volumes are in order. -/
def FirstsReconcile (opportunity : Opportunity) (inputs : List VolumeSliceInput) : Prop :=
  ((inputs.firstBy VolumeSliceInput.cellKey).map (·.amountMinor)).sum =
      opportunity.offeredCardGpvMinor ∧
    opportunity.summary.MovableInOrder

/-! ### Totals -/

/-- Where everything is in one currency, the sum is the sum of all. -/
theorem sliceTotal_eq_sum {currency : String} {slices : List VolumeSliceInput}
    (h : ∀ s ∈ slices, s.currency = currency) :
    sliceTotal currency slices = (slices.map (·.amountMinor)).sum := by
  rw [sliceTotal, List.filter_eq_self.2 fun s hs ↦ decide_eq_true (h s hs)]

/-- The total is that of the first slices and the repeated ones. -/
theorem sum_eq_firsts_add_repeated (inputs : List VolumeSliceInput) :
    (inputs.map (·.amountMinor)).sum =
      ((inputs.firstBy VolumeSliceInput.cellKey).map (·.amountMinor)).sum +
        ((repeatedSlices inputs).map (·.amountMinor)).sum := by
  have hperm := (List.firstBy_append_laterBy_perm VolumeSliceInput.cellKey inputs).map
    (·.amountMinor)
  rw [← hperm.sum_eq, List.map_append, List.sum_append]
  rfl

/-- Amounts that are not negative come to nothing if each of them does. -/
theorem sum_eq_zero_iff {slices : List VolumeSliceInput} (h : ∀ s ∈ slices, 0 ≤ s.amountMinor) :
    (slices.map (·.amountMinor)).sum = 0 ↔ ∀ s ∈ slices, s.amountMinor = 0 := by
  induction slices with
  | nil => simp
  | cons s slices ih =>
    obtain ⟨hs, hslices⟩ := List.forall_mem_cons.1 h
    have hsum : 0 ≤ (slices.map (·.amountMinor)).sum := List.sum_nonneg fun a ha ↦ by
      obtain ⟨r, hr, rfl⟩ := List.mem_map.1 ha
      exact hslices r hr
    rw [List.map_cons, List.sum_cons, List.forall_mem_cons, ← ih hslices]
    omega

/-! ### Replacing and reading back -/

section

variable {db db' : Db} {d : Draws} {call : ReplaceCall} {reader : Actor} {opportunity : Opportunity}
  {inputs : List VolumeSliceInput} {slices slices' : List VolumeSlice}
  {reported reread : VolumeReconciliationResult}

/-- What is reported. -/
theorem reported_eq_ok (hreplace : replaceVolumeSlices d call db = .ok ((slices, reported), db'))
    (hfound : OpportunityRepository.findById db call.opportunityId = some opportunity)
    (hinputs : inputForReconciliation opportunity.currency call.input = .ok inputs) :
    (∀ s ∈ inputs, 0 ≤ s.amountMinor) ∧
      reported.sliceTotalMinor = (inputs.map (·.amountMinor)).sum ∧
      (reported.reconciled = true ↔ repeatedSlices inputs = [] ∧ FirstsReconcile opportunity inputs) := by
  obtain ⟨hreconciled, -⟩ := replaceVolumeSlices_eq_ok hreplace hfound hinputs
  have hcurrency := currency_of_inputForReconciliation hinputs
  obtain ⟨hamounts, htotal, hverdict⟩ := reconcileOpportunityVolume_eq_ok hreconciled
  have hsum : sliceTotal opportunity.summary.currency inputs = (inputs.map (·.amountMinor)).sum :=
    sliceTotal_eq_sum hcurrency
  refine ⟨hamounts, htotal.trans hsum, hverdict.trans ?_⟩
  rw [← List.laterBy_eq_nil_iff]
  refine and_congr_right fun hnone ↦ (and_iff_right hcurrency).trans ?_
  rw [hsum, sum_eq_firsts_add_repeated, repeatedSlices, hnone, List.map_nil, List.sum_nil, add_zero]
  rfl

/-- What is read back, with nothing changed in between. -/
theorem reread_eq_ok (hreplace : replaceVolumeSlices d call db = .ok ((slices, reported), db'))
    (hread : getVolumeSlices db' reader call.opportunityId = .ok (slices', reread))
    (hfound : OpportunityRepository.findById db call.opportunityId = some opportunity)
    (hinputs : inputForReconciliation opportunity.currency call.input = .ok inputs) :
    reread.sliceTotalMinor =
        ((inputs.firstBy VolumeSliceInput.cellKey).map (·.amountMinor)).sum ∧
      (reread.reconciled = true ↔ FirstsReconcile opportunity inputs) := by
  obtain ⟨-, hrows, hopportunities, hstored⟩ := replaceVolumeSlices_eq_ok hreplace hfound hinputs
  rw [OpportunityRepository.findById, ← hopportunities] at hfound
  obtain ⟨rfl, hreconciled⟩ := getVolumeSlices_eq_ok hread hfound
  -- the slices that are there are the first ones of the submission, in some order
  have hperm : ((VolumeSliceRepository.listByOpportunity db' call.opportunityId).map
      (·.toInput)).Perm (inputs.firstBy VolumeSliceInput.cellKey) := by
    rw [← hrows, VolumeSliceRepository.listByOpportunity, hstored]
    exact (List.sortOn_perm _ slices).map _
  obtain ⟨-, htotal, hverdict⟩ := reconcileOpportunityVolume_eq_ok hreconciled
  have hcurrency : ∀ s ∈ (VolumeSliceRepository.listByOpportunity db' call.opportunityId).map
      (·.toInput), s.currency = opportunity.currency := fun s hs ↦
    currency_of_inputForReconciliation hinputs s
      ((List.firstBy_sublist _ _).mem (hperm.mem_iff.1 hs))
  have hsum : sliceTotal opportunity.summary.currency
      ((VolumeSliceRepository.listByOpportunity db' call.opportunityId).map (·.toInput)) =
        ((inputs.firstBy VolumeSliceInput.cellKey).map (·.amountMinor)).sum :=
    (sliceTotal_eq_sum hcurrency).trans (hperm.map _).sum_eq
  have hdistinct : (((VolumeSliceRepository.listByOpportunity db' call.opportunityId).map
      (·.toInput)).map (·.cellKey)).Nodup :=
    (hperm.map _).nodup_iff.2 (List.nodup_map_firstBy _ _)
  refine ⟨htotal.trans hsum, hverdict.trans ((and_iff_right hdistinct).trans
    ((and_iff_right hcurrency).trans ?_))⟩
  rw [hsum]
  rfl

/-- **Reported and read back.** -/
theorem reread_agrees_iff (hreplace : replaceVolumeSlices d call db = .ok ((slices, reported), db'))
    (hread : getVolumeSlices db' reader call.opportunityId = .ok (slices', reread))
    (hfound : OpportunityRepository.findById db call.opportunityId = some opportunity)
    (hinputs : inputForReconciliation opportunity.currency call.input = .ok inputs) :
    reread.sliceTotalMinor =
        reported.sliceTotalMinor - ((repeatedSlices inputs).map (·.amountMinor)).sum ∧
      (reported.reconciled = true ↔
        repeatedSlices inputs = [] ∧ FirstsReconcile opportunity inputs) ∧
      (reread.reconciled = true ↔ FirstsReconcile opportunity inputs) ∧
      ((reread.reconciled = reported.reconciled ∧
          reread.sliceTotalMinor = reported.sliceTotalMinor) ↔
        repeatedSlices inputs = [] ∨
          (∀ s ∈ repeatedSlices inputs, s.amountMinor = 0) ∧
            ¬ FirstsReconcile opportunity inputs) := by
  obtain ⟨hamounts, hreportedTotal, hreported⟩ := reported_eq_ok hreplace hfound hinputs
  obtain ⟨hrereadTotal, hreread⟩ := reread_eq_ok hreplace hread hfound hinputs
  have hsum := sum_eq_firsts_add_repeated inputs
  have hrepeated : ∀ s ∈ repeatedSlices inputs, 0 ≤ s.amountMinor := fun s hs ↦
    hamounts s ((List.firstBy_append_laterBy_perm _ inputs).mem_iff.1 (List.mem_append_right _ hs))
  have htotal : reread.sliceTotalMinor = reported.sliceTotalMinor ↔
      ∀ s ∈ repeatedSlices inputs, s.amountMinor = 0 := by
    rw [← sum_eq_zero_iff hrepeated]
    omega
  refine ⟨by omega, hreported, hreread, ?_⟩
  rw [Bool.eq_iff_iff, hreported, hreread, htotal]
  constructor
  · rintro ⟨hverdict, hzero⟩
    by_cases hfirsts : FirstsReconcile opportunity inputs
    · exact Or.inl (hverdict.1 hfirsts).1
    · exact Or.inr ⟨hzero, hfirsts⟩
  · rintro (hnone | ⟨hzero, hfirsts⟩)
    · refine ⟨⟨fun hfirsts ↦ ⟨hnone, hfirsts⟩, fun h ↦ h.2⟩, fun s hs ↦ ?_⟩
      rw [hnone] at hs
      cases hs
    · exact ⟨⟨fun h ↦ absurd h hfirsts, fun h ↦ absurd h.2 hfirsts⟩, hzero⟩

end

/-! ### A repeated cell -/

namespace Sample

def owner : Actor := ⟨"olga", some "merchant", some .merchantPspUser, some "m1"⟩

def opportunity : Opportunity where
  id := "opp"
  ownerOrgId := "merchant"
  currency := "EUR"
  offeredCardGpvMinor := 500
  movableNowMinor := 0
  movable30dMinor := 0
  movable90dMinor := 0

def slice (mcc amountMinor : String) : SubmittedSlice :=
  ⟨"US", mcc, .domestic, .ecommerce, amountMinor, "2026-07"⟩

def replace (slices : List SubmittedSlice) : ReplaceCall :=
  ⟨owner, "opp", ⟨slices⟩, ⟨"req", "corr", "office", "browser"⟩⟩

/-- One cell twice: the first slice makes up the offered volume, the second is too much. -/
def repeatedCell : ReplaceCall := replace [slice "5411" "500", slice "5411" "100"]

def draws : Draws := ⟨fun n ↦ s!"s{n}", 500⟩

/-- What is reported about a submission, and what is read back. -/
def reportAndReread (call : ReplaceCall) :
    Except Thrown (VolumeReconciliationResult × VolumeReconciliationResult) := do
  let replaced ← replaceVolumeSlices draws call { opportunities := [opportunity] }
  let read ← getVolumeSlices replaced.2 call.actor call.opportunityId
  return (replaced.1.2, read.2)

theorem exists_of_reportAndReread {call : ReplaceCall} {reported reread : VolumeReconciliationResult}
    (h : reportAndReread call = .ok (reported, reread)) : ∃ slices db' slices',
      replaceVolumeSlices draws call { opportunities := [opportunity] } =
        .ok ((slices, reported), db') ∧
      getVolumeSlices db' call.actor call.opportunityId = .ok (slices', reread) := by
  obtain ⟨⟨⟨slices, report⟩, db'⟩, hreplace, h⟩ := Except.bind_eq_ok'.1 h
  obtain ⟨⟨slices', result⟩, hread, h⟩ := Except.bind_eq_ok'.1 h
  obtain ⟨rfl, rfl⟩ := Prod.mk.inj (Except.ok.inj h)
  exact ⟨slices, db', slices', hreplace, hread⟩

/-- Both slices, as they are reconciled. -/
def repeatedInputs : List VolumeSliceInput :=
  [⟨"US", "5411", "DOMESTIC", "ECOMMERCE", "2026-07", "EUR", 500⟩,
   ⟨"US", "5411", "DOMESTIC", "ECOMMERCE", "2026-07", "EUR", 100⟩]

theorem reportAndReread_repeatedCell : reportAndReread repeatedCell =
    .ok (⟨false, 600, 500, repeatedInputs.tail.map (·.duplicateCell) ++
      opportunity.summary.sumMismatch 600⟩, ⟨true, 500, 500, []⟩) := by
  decide +kernel

/-- Reported as 600 that do not reconcile, and read back as 500 that do. -/
theorem repeatedCell_reconciles_later : ∃ slices reported db' slices' reread,
    replaceVolumeSlices draws repeatedCell { opportunities := [opportunity] } =
      .ok ((slices, reported), db') ∧
    getVolumeSlices db' owner "opp" = .ok (slices', reread) ∧
    reported.reconciled = false ∧ reread.reconciled = true ∧
    reported.sliceTotalMinor = 600 ∧ reread.sliceTotalMinor = 500 := by
  obtain ⟨slices, db', slices', hreplace, hread⟩ :=
    exists_of_reportAndReread reportAndReread_repeatedCell
  exact ⟨slices, _, db', slices', _, hreplace, hread, rfl, rfl, rfl, rfl⟩

theorem reread_agrees_iff_repeatedCell : ∃ slices reported db' slices' reread,
    replaceVolumeSlices draws repeatedCell { opportunities := [opportunity] } =
      .ok ((slices, reported), db') ∧
    getVolumeSlices db' owner "opp" = .ok (slices', reread) ∧
    reread.sliceTotalMinor =
        reported.sliceTotalMinor - ((repeatedSlices repeatedInputs).map (·.amountMinor)).sum ∧
      (reported.reconciled = true ↔
        repeatedSlices repeatedInputs = [] ∧ FirstsReconcile opportunity repeatedInputs) ∧
      (reread.reconciled = true ↔ FirstsReconcile opportunity repeatedInputs) ∧
      ((reread.reconciled = reported.reconciled ∧
          reread.sliceTotalMinor = reported.sliceTotalMinor) ↔
        repeatedSlices repeatedInputs = [] ∨
          (∀ s ∈ repeatedSlices repeatedInputs, s.amountMinor = 0) ∧
            ¬ FirstsReconcile opportunity repeatedInputs) := by
  obtain ⟨slices, db', slices', hreplace, hread⟩ :=
    exists_of_reportAndReread reportAndReread_repeatedCell
  have hinputs : inputForReconciliation opportunity.currency repeatedCell.input =
      .ok repeatedInputs := by
    decide +kernel
  exact ⟨slices, _, db', slices', _, hreplace, hread, reread_agrees_iff hreplace hread rfl hinputs⟩

end Sample

end TolPlatform.Opportunities
