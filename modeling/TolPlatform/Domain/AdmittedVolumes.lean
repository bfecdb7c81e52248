import TolPlatform.Domain.VolumeReconciliation
import TolPlatform.Library.Delimited
import TolPlatform.Shared.Language

/-!
# Volumes that the contract admits

`VolumeSliceInputSchema` of `packages/contracts/src/opportunity.ts` bounds what a submitted slice may
hold (`VolumeSliceInput.Admitted`). Its `mcc` may hold the separator of the cell keys, and its `jurisdiction`
may; but the one is of a fixed length, and behind the other stand fields that hold no separator. So the
key of a cell tells its five fields (`cellKey_eq_iff`), and `reconcileOpportunityVolume` accepts exactly
the consistent breakdowns (`reconcileOpportunityVolume_exact`).
-/

namespace TolPlatform

/-! ### The schema -/

/-- `/^\d{4}-\d{2}$/`. -/
def isPeriod (period : String) : Bool :=
  match period.toList with
  | [a, b, c, d, '-', e, f] => [a, b, c, d, e, f].all Char.isDigit
  | _ => false

namespace VolumeSliceInput

/-- What the schema admits. A text of decimal digits is never a negative amount. -/
structure Admitted (s : VolumeSliceInput) : Prop where
  jurisdiction : utf16Length s.jurisdiction = 2
  mcc : 1 ≤ utf16Length s.mcc ∧ utf16Length s.mcc ≤ 8
  cardOrigin : s.cardOrigin ∈ ["DOMESTIC", "INTERNATIONAL"]
  channel : s.channel ∈ ["ECOMMERCE", "CARD_PRESENT", "MOTO"]
  amountMinor : 0 ≤ s.amountMinor
  period : isPeriod s.period = true

/-- The five fields of a cell. -/
def cell (s : VolumeSliceInput) : String × String × String × String × String :=
  (s.jurisdiction, s.mcc, s.cardOrigin, s.channel, s.period)

/-! ### The key of a cell -/

theorem toList_cellKey (s : VolumeSliceInput) : s.cellKey.toList =
    s.jurisdiction.toList ++ '|' :: (s.mcc.toList ++ '|' :: (s.cardOrigin.toList ++
      '|' :: (s.channel.toList ++ '|' :: s.period.toList))) := by
  simp [cellKey, toString]

namespace Admitted

variable {s s' : VolumeSliceInput}

theorem separator_notMem_cardOrigin (h : s.Admitted) : '|' ∉ s.cardOrigin.toList :=
  (by decide : ∀ t ∈ ["DOMESTIC", "INTERNATIONAL"], '|' ∉ t.toList) _ h.cardOrigin

theorem separator_notMem_channel (h : s.Admitted) : '|' ∉ s.channel.toList :=
  (by decide : ∀ t ∈ ["ECOMMERCE", "CARD_PRESENT", "MOTO"], '|' ∉ t.toList) _ h.channel

theorem separator_notMem_period (h : s.Admitted) : '|' ∉ s.period.toList := by
  have hperiod := h.period
  unfold isPeriod at hperiod
  split at hperiod
  · next a b c d e f hchars =>
    have hdigits := List.all_eq_true.1 hperiod
    intro hmem
    rw [hchars] at hmem
    have hdigit : '|' ∈ [a, b, c, d, e, f] := by simpa using hmem
    exact absurd (hdigits _ hdigit) (by decide)
  · cases hperiod

/-- **The key of an admitted slice tells its five fields.** -/
theorem cellKey_eq_iff (h : s.Admitted) (h' : s'.Admitted) :
    s.cellKey = s'.cellKey ↔ s.cell = s'.cell := by
  constructor
  · intro hkey
    have hchars := congrArg String.toList hkey
    rw [toList_cellKey, toList_cellKey] at hchars
    -- the jurisdiction by its length, the last three fields by the separators before them
    obtain ⟨hjurisdiction, hrest⟩ := List.eq_and_eq_of_weight (fun c ↦ by split <;> decide)
      (h.jurisdiction.trans h'.jurisdiction.symm) hchars
    simp only [← List.cons_append, ← List.append_assoc] at hrest
    obtain ⟨hrest, hperiod⟩ := List.eq_and_eq_of_last h.separator_notMem_period
      h'.separator_notMem_period hrest
    obtain ⟨hrest, hchannel⟩ := List.eq_and_eq_of_last h.separator_notMem_channel
      h'.separator_notMem_channel hrest
    obtain ⟨hrest, horigin⟩ := List.eq_and_eq_of_last h.separator_notMem_cardOrigin
      h'.separator_notMem_cardOrigin hrest
    have hmcc := (List.cons.inj hrest).2
    simp only [cell, Prod.mk.injEq, ← String.toList_inj]
    exact ⟨hjurisdiction, hmcc, horigin, hchannel, hperiod⟩
  · intro hcell
    simp only [cell, Prod.mk.injEq] at hcell
    obtain ⟨hjurisdiction, hmcc, horigin, hchannel, hperiod⟩ := hcell
    rw [cellKey, cellKey, hjurisdiction, hmcc, horigin, hchannel, hperiod]

end Admitted

end VolumeSliceInput

/-! ### What is reported -/

/-- The issues that a breakdown has. -/
inductive Violation (slices : List VolumeSliceInput) (summary : OpportunityVolumeSummary) :
    VolumeMismatch → Prop
  /-- A slice comes after another one of its cell. -/
  | duplicateCell {s s' : VolumeSliceInput} (h : [s, s'].Sublist slices) (hcell : s.cell = s'.cell) :
    Violation slices summary s'.duplicateCell
  | currencyMismatch {s : VolumeSliceInput} (hs : s ∈ slices) (h : s.currency ≠ summary.currency) :
    Violation slices summary (s.currencyMismatch summary)
  /-- The slices in the currency of the opportunity do not sum up to the offered volume. -/
  | sumMismatch {m : VolumeMismatch}
    (h : sliceTotal summary.currency slices ≠ summary.offeredCardGpvMinor)
    (hm : m ∈ summary.sumMismatch (sliceTotal summary.currency slices)) : Violation slices summary m
  | movabilityOrder {m : VolumeMismatch} (h : ¬ summary.MovableInOrder)
    (hm : m ∈ summary.movabilityMismatch) : Violation slices summary m

section

variable {summary : OpportunityVolumeSummary} {slices : List VolumeSliceInput} {t t' : Tally}
  {m : VolumeMismatch}

/-- What one turn of the loop reports. -/
theorem mem_tallySlice {s : VolumeSliceInput} (h : tallySlice summary t s = .ok t') :
    m ∈ t'.mismatches ↔ m ∈ t.mismatches ∨ (s.cellKey ∈ t.seenCells ∧ m = s.duplicateCell) ∨
      (s.currency ≠ summary.currency ∧ m = s.currencyMismatch summary) := by
  obtain ⟨_, -, h⟩ := Except.bind_eq_ok'.1 h
  have hrepeated : m ∈ (if s.cellKey ∈ t.seenCells then [s.duplicateCell] else []) ↔
      s.cellKey ∈ t.seenCells ∧ m = s.duplicateCell := by
    split_ifs with hseen <;> simp [hseen]
  by_cases hcurrency : s.currency = summary.currency
  · rw [if_neg (not_not_intro hcurrency)] at h
    obtain rfl := Except.ok.inj h
    rw [List.mem_append, hrepeated]
    simp [hcurrency]
  · rw [if_pos hcurrency] at h
    obtain rfl := Except.ok.inj h
    rw [List.mem_append, List.mem_append, hrepeated, List.mem_singleton, or_assoc]
    simp [hcurrency]

/-- What the loop reports, by the cells seen before it. -/
theorem mem_tally (h : slices.foldlM (tallySlice summary) t = .ok t') :
    m ∈ t'.mismatches ↔ m ∈ t.mismatches ∨
      (∃ s ∈ slices, s.cellKey ∈ t.seenCells ∧ m = s.duplicateCell) ∨
      (∃ s s', [s, s'].Sublist slices ∧ s.cellKey = s'.cellKey ∧ m = s'.duplicateCell) ∨
      ∃ s ∈ slices, s.currency ≠ summary.currency ∧ m = s.currencyMismatch summary := by
  induction slices generalizing t with
  | nil =>
    obtain rfl := Except.ok.inj h
    simp
  | cons s slices ih =>
    rw [List.foldlM_cons] at h
    obtain ⟨t₁, hs, h⟩ := Except.bind_eq_ok'.1 h
    have hseen := (tallySlice_eq_ok hs).2.1
    -- a pair has both its slices later on, or it is this slice and a later one
    have hpairs : (∃ r r', [r, r'].Sublist (s :: slices) ∧ r.cellKey = r'.cellKey ∧
        m = r'.duplicateCell) ↔ (∃ r r', [r, r'].Sublist slices ∧ r.cellKey = r'.cellKey ∧
          m = r'.duplicateCell) ∨ ∃ r ∈ slices, r.cellKey = s.cellKey ∧ m = r.duplicateCell := by
      simp only [List.sublist_cons_iff, List.cons.injEq, or_and_right, exists_or]
      refine or_congr_right ⟨?_, ?_⟩
      · rintro ⟨r, r', ⟨_, ⟨rfl, rfl⟩, hr'⟩, hkey, hm⟩
        exact ⟨r', List.singleton_sublist.1 hr', hkey.symm, hm⟩
      · rintro ⟨r, hr, hkey, hm⟩
        exact ⟨s, r, ⟨_, ⟨rfl, rfl⟩, List.singleton_sublist.2 hr⟩, hkey.symm, hm⟩
    have hrepeated : (∃ r ∈ slices, r.cellKey ∈ s.cellKey :: t.seenCells ∧ m = r.duplicateCell) ↔
        (∃ r ∈ slices, r.cellKey = s.cellKey ∧ m = r.duplicateCell) ∨
          ∃ r ∈ slices, r.cellKey ∈ t.seenCells ∧ m = r.duplicateCell := by
      simp only [List.mem_cons, or_and_right, and_or_left, exists_or]
    rw [ih h, mem_tallySlice hs, hseen, hpairs, hrepeated, List.exists_mem_cons_iff,
      List.exists_mem_cons_iff]
    refine Iff.of_eq ?_
    ac_rfl

theorem mem_sumMismatch {total : Int} : m ∈ summary.sumMismatch total →
    total ≠ summary.offeredCardGpvMinor := by
  intro hm heq
  rw [OpportunityVolumeSummary.sumMismatch, if_neg (not_not_intro heq)] at hm
  cases hm

theorem mem_movabilityMismatch : m ∈ summary.movabilityMismatch → ¬ summary.MovableInOrder := by
  intro hm horder
  rw [OpportunityVolumeSummary.movabilityMismatch, if_pos horder] at hm
  cases hm

/-- **What is reported is what is wrong**, and everything that is. -/
theorem mem_mismatches_iff {result : VolumeReconciliationResult} (hadmitted : ∀ s ∈ slices, s.Admitted)
    (h : reconcileOpportunityVolume slices summary = .ok result) :
    m ∈ result.mismatches ↔ Violation slices summary m := by
  obtain ⟨t, htally, h⟩ := Except.bind_eq_ok'.1 h
  obtain rfl := Except.ok.inj h
  have htotal := (tally_eq_ok htally).2.1
  rw [show ({} : Tally).sliceTotalMinor = 0 from rfl, zero_add] at htotal
  rw [List.mem_append, List.mem_append, mem_tally htally, htotal]
  constructor
  · rintro (((hm | ⟨s, -, hseen, -⟩ | ⟨s, s', hpair, hkey, rfl⟩ | ⟨s, hs, hcurrency, rfl⟩) | hm) | hm)
    · cases hm
    · cases hseen
    · have hs := hadmitted s (hpair.subset List.mem_cons_self)
      have hs' := hadmitted s' (hpair.subset (List.mem_cons_of_mem _ List.mem_cons_self))
      exact .duplicateCell hpair ((hs.cellKey_eq_iff hs').1 hkey)
    · exact .currencyMismatch hs hcurrency
    · exact .sumMismatch (mem_sumMismatch hm) hm
    · exact .movabilityOrder (mem_movabilityMismatch hm) hm
  · intro hm
    cases hm with
    | @duplicateCell s s' hpair hcell =>
      have hs := hadmitted s (hpair.subset List.mem_cons_self)
      have hs' := hadmitted s' (hpair.subset (List.mem_cons_of_mem _ List.mem_cons_self))
      exact .inl (.inl (.inr (.inr (.inl ⟨s, s', hpair, (hs.cellKey_eq_iff hs').2 hcell, rfl⟩))))
    | currencyMismatch hs hcurrency =>
      exact .inl (.inl (.inr (.inr (.inr ⟨_, hs, hcurrency, rfl⟩))))
    | sumMismatch _ hm => exact .inl (.inr hm)
    | movabilityOrder _ hm => exact .inr hm

/-! ### What is accepted -/

/-- All slices in the currency of the opportunity, no cell twice, the offered volume in sum, and the
movable volumes in order. -/
structure ConsistentBreakdown (slices : List VolumeSliceInput) (summary : OpportunityVolumeSummary) :
    Prop where
  currencies : ∀ s ∈ slices, s.currency = summary.currency
  cells : (slices.map VolumeSliceInput.cell).Nodup
  sum : (slices.map VolumeSliceInput.amountMinor).sum = summary.offeredCardGpvMinor
  movable : summary.MovableInOrder

theorem ConsistentBreakdown.perm {slices' : List VolumeSliceInput}
    (h : ConsistentBreakdown slices summary) (hperm : slices'.Perm slices) :
    ConsistentBreakdown slices' summary where
  currencies s hs := h.currencies s (hperm.mem_iff.1 hs)
  cells := (hperm.map _).nodup_iff.2 h.cells
  sum := (hperm.map _).sum_eq.trans h.sum
  movable := h.movable

theorem reconciled_iff {result : VolumeReconciliationResult} (hadmitted : ∀ s ∈ slices, s.Admitted)
    (h : reconcileOpportunityVolume slices summary = .ok result) :
    result.reconciled = true ↔ ConsistentBreakdown slices summary := by
  have hkeys : (slices.map VolumeSliceInput.cellKey).Nodup ↔
      (slices.map VolumeSliceInput.cell).Nodup := by
    rw [List.Nodup, List.Nodup, List.pairwise_map, List.pairwise_map]
    refine List.Pairwise.iff_of_mem fun {s s'} hs hs' ↦ ?_
    exact not_congr ((hadmitted s hs).cellKey_eq_iff (hadmitted s' hs'))
  have hsum (hcurrencies : ∀ s ∈ slices, s.currency = summary.currency) :
      sliceTotal summary.currency slices = (slices.map VolumeSliceInput.amountMinor).sum := by
    rw [sliceTotal, List.filter_eq_self.2 fun s hs ↦ decide_eq_true (hcurrencies s hs)]
  rw [(reconcileOpportunityVolume_eq_ok h).2.2, hkeys]
  constructor
  · rintro ⟨hcells, hcurrencies, htotal, hmovable⟩
    exact ⟨hcurrencies, hcells, hsum hcurrencies ▸ htotal, hmovable⟩
  · rintro ⟨hcurrencies, hcells, htotal, hmovable⟩
    exact ⟨hcells, hcurrencies, hsum hcurrencies ▸ htotal, hmovable⟩

end

/-- **Exactly the consistent breakdowns are accepted**, every issue that is reported is there and every
issue that is there is reported, and the order of the slices does not matter. -/
theorem reconcileOpportunityVolume_exact (slices : List VolumeSliceInput)
    (summary : OpportunityVolumeSummary) (hadmitted : ∀ s ∈ slices, s.Admitted) :
    ∃ result, reconcileOpportunityVolume slices summary = .ok result ∧
      (result.reconciled = true ↔ ConsistentBreakdown slices summary) ∧
      (∀ m, m ∈ result.mismatches ↔ Violation slices summary m) ∧
      ∀ slices' : List VolumeSliceInput, slices'.Perm slices →
        ∃ result', reconcileOpportunityVolume slices' summary = .ok result' ∧
          result'.reconciled = result.reconciled := by
  have hreturns {slices : List VolumeSliceInput} (h : ∀ s ∈ slices, s.Admitted) :
      ∃ result, reconcileOpportunityVolume slices summary = .ok result :=
    exists_reconcileOpportunityVolume fun s hs ↦ (h s hs).amountMinor
  obtain ⟨result, hresult⟩ := hreturns hadmitted
  have hiff := reconciled_iff hadmitted hresult
  refine ⟨result, hresult, hiff, fun _ ↦ mem_mismatches_iff hadmitted hresult, ?_⟩
  intro slices' hperm
  have hadmitted' : ∀ s ∈ slices', s.Admitted := fun s hs ↦ hadmitted s (hperm.mem_iff.1 hs)
  obtain ⟨result', hresult'⟩ := hreturns hadmitted'
  refine ⟨result', hresult', Bool.eq_iff_iff.2 ?_⟩
  rw [reconciled_iff hadmitted' hresult', hiff]
  exact ⟨fun h ↦ h.perm hperm.symm, fun h ↦ h.perm hperm⟩

namespace Volumes.Sample

def slice (mcc : String) (amountMinor : Int) : VolumeSliceInput where
  jurisdiction := "DE"
  mcc := mcc
  cardOrigin := "DOMESTIC"
  channel := "ECOMMERCE"
  period := "2026-01"
  currency := "EUR"
  amountMinor := amountMinor

def summary : OpportunityVolumeSummary where
  currency := "EUR"
  offeredCardGpvMinor := 300
  movableNowMinor := 0
  movable30dMinor := 100
  movable90dMinor := 300

/-- Two codes that hold the separator. -/
def slices : List VolumeSliceInput := [slice "54|11" 100, slice "54|" 200]

theorem admitted : ∀ s ∈ slices, s.Admitted := by
  intro s hs
  rcases List.mem_pair.1 hs with rfl | rfl
  · exact ⟨by decide, by decide, by decide, by decide, by decide, by decide⟩
  · exact ⟨by decide, by decide, by decide, by decide, by decide, by decide⟩

theorem reconcileOpportunityVolume_exact_slices : ∃ result,
    reconcileOpportunityVolume slices summary = .ok result ∧ result.reconciled = true := by
  obtain ⟨result, hresult, hiff, -⟩ := reconcileOpportunityVolume_exact slices summary admitted
  exact ⟨result, hresult, hiff.2 ⟨by decide, by decide, by decide, by decide⟩⟩

end Volumes.Sample

end TolPlatform
