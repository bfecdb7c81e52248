import TolPlatform.Shared.Errors

/-!
# Economics vocabularies and the schedule state machine

`packages/domain/src/economics-states.ts`. A `CommissionSchedule` row is one version of a schedule:
it goes `DRAFT → ACTIVE → SUPERSEDED`, or is `RETIRED`, and a terminal version is never reactivated.
The other enumerations are closed vocabularies. `isCommissionScheduleStatus` and its siblings guard
against strings outside the enumeration, which an inductive type excludes.
-/

namespace TolPlatform

inductive CommissionScheduleStatus
  | draft | active | superseded | retired
  deriving DecidableEq, Repr

namespace CommissionScheduleStatus

instance : ToString CommissionScheduleStatus where
  toString
    | draft => "DRAFT"
    | active => "ACTIVE"
    | superseded => "SUPERSEDED"
    | retired => "RETIRED"

end CommissionScheduleStatus

/-- `COMMISSION_SCHEDULE_TRANSITIONS`. -/
def commissionScheduleTransitions : CommissionScheduleStatus → List CommissionScheduleStatus
  | .draft => [.active, .retired]
  | .active => [.superseded, .retired]
  | .superseded => []
  | .retired => []

def assertValidCommissionScheduleTransition (src dst : CommissionScheduleStatus) :
    Except Thrown Unit :=
  throwIf (src = dst ∨ dst ∉ commissionScheduleTransitions src)
    (.domainTransition s!"invalid CommissionSchedule transition: {src} -> {dst}")

inductive CommissionBasis
  | grossProcessingVolume | netPlatformRevenue | receivedCommission | fixedFee | setupFee | other
  deriving DecidableEq, Repr

instance : ToString CommissionBasis where
  toString
    | .grossProcessingVolume => "GROSS_PROCESSING_VOLUME"
    | .netPlatformRevenue => "NET_PLATFORM_REVENUE"
    | .receivedCommission => "RECEIVED_COMMISSION"
    | .fixedFee => "FIXED_FEE"
    | .setupFee => "SETUP_FEE"
    | .other => "OTHER"

inductive CommissionRecipientType
  | contributor | platform | other
  deriving DecidableEq, Repr

inductive CommissionComponentType
  | percentageBps | fixedAmount
  deriving DecidableEq, Repr

inductive LedgerEntryType
  | accrual | adjustment | payment | reversal
  deriving DecidableEq, Repr

instance : ToString LedgerEntryType where
  toString
    | .accrual => "ACCRUAL"
    | .adjustment => "ADJUSTMENT"
    | .payment => "PAYMENT"
    | .reversal => "REVERSAL"

/-- `CREDIT` raises what is owed, `DEBIT` lowers it. -/
inductive LedgerDirection
  | credit | debit
  deriving DecidableEq, Repr

instance : ToString LedgerDirection where
  toString
    | .credit => "CREDIT"
    | .debit => "DEBIT"

inductive AccrualDerivedStatus
  | accrued | adjusted | partiallyPaid | paid | reversed
  deriving DecidableEq, Repr

/-- A terminal version has no way out. -/
theorem commissionScheduleTransitions_terminal {src : CommissionScheduleStatus}
    (h : src = .superseded ∨ src = .retired) (dst : CommissionScheduleStatus) :
    assertValidCommissionScheduleTransition src dst ≠ .ok () := by
  rcases h with rfl | rfl <;> simp [assertValidCommissionScheduleTransition,
    commissionScheduleTransitions]

end TolPlatform
