import Mathlib.Algebra.BigOperators.Group.List.Lemmas
import Mathlib.Algebra.Order.Group.Int
import Mathlib.Tactic.Abel
import TolPlatform.Domain.EconomicsEngine

/-!
# What the two ledger folds compute

The two loops of the economics engine, stated as sums. Every ledger entry contributes to one of four
totals — accrued, adjusted, paid, reversed — and both loops only add totals up, so neither depends
on the order of the entries.

* `computeAccrualBalance_eq_ok_iff`: a chain has a balance exactly when it has one `ACCRUAL` entry,
  and the balance is then `balanceOf`, a function of the totals.
* `computeAccrualBalance_perm`: the order of a chain does not matter.
* `reconcileRevenueEvent_outstandingMinor`, `reconcileRevenueEvent_paidMinor`: the period view.
-/

namespace TolPlatform

namespace AccrualLedgerEntryLike

/-! ### The contribution of one entry -/

def accruedMinor (e : AccrualLedgerEntryLike) : Int :=
  if e.entryType = .accrual then e.amountMinor else 0

def adjustedMinor (e : AccrualLedgerEntryLike) : Int :=
  if e.entryType = .adjustment then e.signedAmount else 0

def paidMinor (e : AccrualLedgerEntryLike) : Int :=
  if e.entryType = .payment then e.amountMinor else 0

def reversedMinor (e : AccrualLedgerEntryLike) : Int :=
  if e.entryType = .reversal then e.amountMinor else 0

/-- What an entry adds to the amount still owed, reversals apart. -/
def owedMinor (e : AccrualLedgerEntryLike) : Int :=
  e.accruedMinor + e.adjustedMinor - e.paidMinor

theorem paidMinor_nonneg {e : AccrualLedgerEntryLike} (h : 0 ≤ e.amountMinor) :
    0 ≤ e.paidMinor := by
  unfold paidMinor
  split_ifs <;> omega

theorem sum_owedMinor (es : List AccrualLedgerEntryLike) :
    (es.map owedMinor).sum =
      (es.map accruedMinor).sum + (es.map adjustedMinor).sum - (es.map paidMinor).sum := by
  induction es with
  | nil => rfl
  | cons e es ih =>
    simp only [List.map_cons, List.sum_cons, ih, owedMinor]
    abel

end AccrualLedgerEntryLike

open AccrualLedgerEntryLike

/-! ### The accrual balance -/

/-- A chain with exactly one `ACCRUAL` entry. -/
def Rooted (es : List AccrualLedgerEntryLike) : Prop :=
  (es.filter (·.entryType = .accrual)).length = 1

instance (es : List AccrualLedgerEntryLike) : Decidable (Rooted es) :=
  inferInstanceAs (Decidable ((es.filter (·.entryType = .accrual)).length = 1))

/-- Some entry of the chain is of type `t`. -/
def hasEntry (t : LedgerEntryType) (es : List AccrualLedgerEntryLike) : Bool :=
  es.any (·.entryType = t)

/-- The totals behind a balance. -/
def netOf (es : List AccrualLedgerEntryLike) : Int :=
  (es.map accruedMinor).sum + (es.map adjustedMinor).sum

def paidOf (es : List AccrualLedgerEntryLike) : Int := (es.map paidMinor).sum

/-- What is still owed on a chain: nothing once it is reversed. -/
def outstandingOf (es : List AccrualLedgerEntryLike) : Int :=
  if hasEntry .reversal es then 0 else (es.map owedMinor).sum

/-- The status a chain has. -/
def statusOf (es : List AccrualLedgerEntryLike) : AccrualDerivedStatus :=
  if hasEntry .reversal es then .reversed
  else if outstandingOf es ≤ 0 then .paid
  else if 0 < paidOf es then .partiallyPaid
  else if hasEntry .adjustment es then .adjusted
  else .accrued

/-- The balance of a chain, from its totals. -/
def balanceOf (es : List AccrualLedgerEntryLike) : AccrualBalance :=
  { status := statusOf es, originalAmountMinor := (es.map accruedMinor).sum,
    netAmountMinor := netOf es, paidAmountMinor := paidOf es,
    outstandingAmountMinor := outstandingOf es }

/-- The balance loop adds totals up and remembers which kinds of entry it saw. -/
theorem foldl_balanceFold_add (es : List AccrualLedgerEntryLike) (acc : BalanceFold) :
    es.foldl BalanceFold.add acc =
      { netAmountMinor := acc.netAmountMinor + (es.map adjustedMinor).sum
        paidAmountMinor := acc.paidAmountMinor + paidOf es
        hasAdjustment := acc.hasAdjustment || hasEntry .adjustment es
        hasReversal := acc.hasReversal || hasEntry .reversal es } := by
  induction es generalizing acc with
  | nil => simp [paidOf, hasEntry]
  | cons e es ih =>
    rw [List.foldl_cons, ih]
    rcases he : e.entryType with - | - | - | -
    all_goals simp [BalanceFold.add, paidOf, hasEntry, adjustedMinor, paidMinor, he, add_assoc]

/-- The accrued total of a chain with one `ACCRUAL` entry is that entry's amount. -/
theorem sum_accruedMinor_eq_filter (es : List AccrualLedgerEntryLike) :
    (es.map accruedMinor).sum =
      ((es.filter (·.entryType = .accrual)).map (·.amountMinor)).sum := by
  induction es with
  | nil => rfl
  | cons e es ih =>
    by_cases he : e.entryType = .accrual
    · simp [he, accruedMinor, ih]
    · simp [he, accruedMinor, ih]

/-- **The balance loop.** A chain has a balance exactly when it has one `ACCRUAL` entry. -/
theorem computeAccrualBalance_eq_ok_iff {es : List AccrualLedgerEntryLike} {b : AccrualBalance} :
    computeAccrualBalance es = .ok b ↔ Rooted es ∧ b = balanceOf es := by
  unfold computeAccrualBalance
  split
  · next root hroot =>
    have hrooted : Rooted es := congrArg List.length hroot
    have haccrued : (es.map accruedMinor).sum = root.amountMinor := by
      rw [sum_accruedMinor_eq_filter, hroot]
      simp
    have howed := sum_owedMinor es
    simp only [foldl_balanceFold_add, Except.ok.injEq, hrooted, true_and, balanceOf, statusOf,
      outstandingOf, netOf, howed, haccrued, paidOf, Bool.false_or, zero_add]
    exact eq_comm
  · next hnot =>
    have hrooted : ¬ Rooted es := fun h ↦ by
      obtain ⟨root, hroot⟩ := List.length_eq_one_iff.1 h
      exact hnot root hroot
    simp [hrooted]

theorem Rooted.computeAccrualBalance {es : List AccrualLedgerEntryLike} (h : Rooted es) :
    computeAccrualBalance es = .ok (balanceOf es) :=
  computeAccrualBalance_eq_ok_iff.2 ⟨h, rfl⟩

/-! ### The order of a chain -/

theorem Rooted.perm {es es' : List AccrualLedgerEntryLike} (h : es.Perm es') (hr : Rooted es) :
    Rooted es' :=
  ((h.filter _).length_eq.symm.trans hr)

theorem hasEntry_perm {es es' : List AccrualLedgerEntryLike} (h : es.Perm es')
    (t : LedgerEntryType) : hasEntry t es = hasEntry t es' := by
  rw [hasEntry, hasEntry, h.any_eq]

theorem outstandingOf_perm {es es' : List AccrualLedgerEntryLike} (h : es.Perm es') :
    outstandingOf es = outstandingOf es' := by
  rw [outstandingOf, outstandingOf, hasEntry_perm h, (h.map owedMinor).sum_eq]

theorem paidOf_perm {es es' : List AccrualLedgerEntryLike} (h : es.Perm es') :
    paidOf es = paidOf es' :=
  (h.map paidMinor).sum_eq

theorem balanceOf_perm {es es' : List AccrualLedgerEntryLike} (h : es.Perm es') :
    balanceOf es = balanceOf es' := by
  have hstatus : statusOf es = statusOf es' := by
    rw [statusOf, statusOf, outstandingOf_perm h, paidOf_perm h, hasEntry_perm h, hasEntry_perm h]
  rw [balanceOf, balanceOf, hstatus, outstandingOf_perm h, paidOf_perm h, netOf, netOf,
    (h.map accruedMinor).sum_eq, (h.map adjustedMinor).sum_eq]

/-- **A chain's balance does not depend on the order of its rows.** -/
theorem computeAccrualBalance_perm {es es' : List AccrualLedgerEntryLike} (h : es.Perm es')
    (hr : Rooted es) : computeAccrualBalance es = computeAccrualBalance es' := by
  rw [hr.computeAccrualBalance, (hr.perm h).computeAccrualBalance, balanceOf_perm h]

/-! ### The period view -/

theorem foldl_reconcileFold_add (es : List AccrualLedgerEntryLike) (acc : ReconcileFold) :
    es.foldl ReconcileFold.add acc =
      { distributedMinor := acc.distributedMinor + (es.map accruedMinor).sum
        paidMinor := acc.paidMinor + (es.map paidMinor).sum
        adjustmentNetMinor := acc.adjustmentNetMinor + (es.map adjustedMinor).sum
        reversedMinor := acc.reversedMinor + (es.map reversedMinor).sum } := by
  induction es generalizing acc with
  | nil => simp
  | cons e es ih =>
    rw [List.foldl_cons, ih]
    rcases he : e.entryType with - | - | - | -
    all_goals simp [ReconcileFold.add, accruedMinor, adjustedMinor, paidMinor, reversedMinor, he,
      add_assoc]

theorem reconcileRevenueEvent_outstandingMinor (input : RevenueEventReconciliationInput) :
    (reconcileRevenueEvent input).outstandingMinor =
      (input.ledgerEntries.map owedMinor).sum - (input.ledgerEntries.map reversedMinor).sum := by
  simp only [reconcileRevenueEvent, foldl_reconcileFold_add, sum_owedMinor, zero_add]

theorem reconcileRevenueEvent_paidMinor (input : RevenueEventReconciliationInput) :
    (reconcileRevenueEvent input).paidMinor = paidOf input.ledgerEntries := by
  simp only [reconcileRevenueEvent, foldl_reconcileFold_add, paidOf, zero_add]

end TolPlatform
