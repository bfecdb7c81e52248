import Mathlib.Algebra.BigOperators.Group.List.Basic
import Mathlib.Algebra.Ring.Int.Defs
import Mathlib.Data.List.Sort
import TolPlatform.Domain.EconomicsStates
import TolPlatform.Domain.Money

/-!
# The economics engine

`packages/domain/src/economics-engine.ts`: three pure computations over integer minor units.

* `computeCommissionSplits` splits a net amount over a schedule's components, fixed amounts first
  and the rest by largest remainder.
* `computeAccrualBalance` folds one accrual's chain of ledger entries into a balance and a derived
  status.
* `reconcileRevenueEvent` folds all ledger entries of one revenue event into a period view.

`selectComponentsForBasis` filters a schedule's components down to one basis before the split, and
`evaluateScheduleCapFloor` discloses a cap or floor without enforcing it.

A `Map` that is only read and overwritten is a function here; the sort is stable, as the language's
is, and its comparison is total on distinct component ids, so stability is never consulted.
-/

namespace TolPlatform

/-- `ECONOMICS_ENGINE_VERSION`. -/
def economicsEngineVersion : String := "economics-ledger-v1"

def economicsInvariantError (message : String) : Thrown :=
  .economicsInvariant s!"economics invariant violated: {message}"

/-! ### The commission split -/

structure EconomicsComponentInput where
  componentId : Uuid
  recipientOrgId : Uuid
  componentType : CommissionComponentType
  bps : Option Number
  fixedAmountMinor : Option Int
  claimId : Option Uuid
  priority : Int
  deriving DecidableEq, Repr

structure ComputedLedgerEntry where
  componentId : Uuid
  recipientOrgId : Uuid
  claimId : Option Uuid
  amountMinor : Int
  direction : LedgerDirection := .credit
  deriving DecidableEq, Repr

structure ComputeCommissionSplitsInput where
  netDistributableMinor : Int
  components : List EconomicsComponentInput
  scheduleId : Uuid
  scheduleVersion : Int
  now : Instant
  inputVersions : Option (List String) := none

structure ComputeCommissionSplitsResult where
  entries : List ComputedLedgerEntry
  calculationVersion : String
  computedAt : Instant
  inputVersions : List String
  deriving DecidableEq, Repr

/-- The duplicate-id loop: `seen` is the set built so far. -/
def checkDistinctComponentIds (seen : List Uuid) :
    List EconomicsComponentInput → Except Thrown Unit
  | [] => .ok ()
  | c :: rest => do
    throwIf (c.componentId ∈ seen) (economicsInvariantError s!"duplicate componentId {c.componentId} in the components passed to computeCommissionSplits — each component may only appear once per split")
    checkDistinctComponentIds (c.componentId :: seen) rest

/-- The loop that checks and totals the fixed amounts. -/
def sumFixedAmounts (fixedTotal : Int) : List EconomicsComponentInput → Except Thrown Int
  | [] => .ok fixedTotal
  | c :: rest =>
    match c.fixedAmountMinor with
    | none => .error (economicsInvariantError
        s!"component {c.componentId} is FIXED_AMOUNT but fixedAmountMinor is null")
    | some amount => do
      assertBigIntMinorUnits amount s!"component {c.componentId}.fixedAmountMinor"
      sumFixedAmounts (fixedTotal + amount) rest

/-- The loop that checks and totals the basis points, in doubles. -/
def sumBps (bpsTotal : Number) : List EconomicsComponentInput → Except Thrown Number
  | [] => .ok bpsTotal
  | c :: rest =>
    let missing := economicsInvariantError
      s!"component {c.componentId} is PERCENTAGE_BPS but bps is missing or negative"
    match c.bps with
    | none => .error missing
    | some bps => do
      throwIf (bps < toNumber 0) missing
      sumBps (bpsTotal.add bps) rest

/-- One percentage component with its floored share and what the floor cut off. -/
structure BpsShare where
  component : EconomicsComponentInput
  floorShare : Int
  remainder : Int
  deriving DecidableEq, Repr

/-- `numerator / 10_000n` and `numerator % 10_000n`: `bigint` division truncates. The loop above has
seen that the basis points are there. -/
def bpsShare (remainingAfterFixed : Int) (c : EconomicsComponentInput) : Except Thrown BpsShare := do
  let bps ← bigIntOfNumber (c.bps.getD (toNumber 0))
  let numerator := remainingAfterFixed * bps
  return { component := c, floorShare := numerator.tdiv 10000, remainder := numerator.tmod 10000 }

/-- The ranking comparison: larger remainder first, ties by component id. -/
def BpsShare.ranksBefore (a b : BpsShare) : Prop :=
  b.remainder < a.remainder ∨
    (a.remainder = b.remainder ∧ a.component.componentId ≤ b.component.componentId)

instance : DecidableRel BpsShare.ranksBefore := fun a b ↦ by
  unfold BpsShare.ranksBefore
  infer_instance

/-- The loop that hands out the leftover pool one unit at a time, down the ranking. Returns what
each component got on top of its floor, and what is left when the ranking is exhausted. -/
def assignBonusUnits (leftoverPool : Int) (bonusUnits : Uuid → Int) :
    List BpsShare → (Uuid → Int) × Int
  | [] => (bonusUnits, leftoverPool)
  | s :: rest =>
    if 0 < leftoverPool then
      let id := s.component.componentId
      assignBonusUnits (leftoverPool - 1) (Function.update bonusUnits id (bonusUnits id + 1)) rest
    else (bonusUnits, leftoverPool)

/-- The entry of a component that received `amountMinor`. -/
def EconomicsComponentInput.entry (c : EconomicsComponentInput) (amountMinor : Int) :
    ComputedLedgerEntry :=
  { componentId := c.componentId, recipientOrgId := c.recipientOrgId, claimId := c.claimId,
    amountMinor }

/-- The percentage branch of the split: what is left after the fixed amounts goes over the
percentage components by largest remainder. -/
def splitByLargestRemainder (remainingAfterFixed : Int)
    (bpsComponents : List EconomicsComponentInput) (scheduleId : Uuid) (scheduleVersion : Int) :
    Except Thrown (List ComputedLedgerEntry) := do
  let bpsTotal ← sumBps (toNumber 0) bpsComponents
  throwIf (bpsTotal ≠ toNumber 10000) (economicsInvariantError s!"PERCENTAGE_BPS components for schedule {scheduleId} v{scheduleVersion} sum to {bpsTotal} bps, not exactly 10000 (100%) of the amount remaining after fixed deductions — a schedule where the platform keeps the residual must say so with an explicit component, never an implicit gap")
  let shares ← bpsComponents.mapM (bpsShare remainingAfterFixed)
  let leftoverPool := remainingAfterFixed - (shares.map BpsShare.floorShare).sum
  throwIf (leftoverPool < 0) (economicsInvariantError s!"internal error: leftoverPool went negative ({leftoverPool}) for schedule {scheduleId} v{scheduleVersion} — floor-division invariant violated")
  let ranked := shares.insertionSort BpsShare.ranksBefore
  let bonus := assignBonusUnits leftoverPool (fun _ ↦ 0) ranked
  throwIf (0 < bonus.2) (economicsInvariantError s!"internal error: leftoverPool ({bonus.2}) exceeds one full round-robin pass over {bpsComponents.length} components — apportionment invariant violated for schedule {scheduleId} v{scheduleVersion}")
  return shares.map fun s ↦ s.component.entry (s.floorShare + bonus.1 s.component.componentId)

/-- The entries of the percentage components, where a schedule may have none as long as nothing is
left for them. -/
def splitRemainder (net fixedTotal : Int) (bpsComponents : List EconomicsComponentInput)
    (scheduleId : Uuid) (scheduleVersion : Int) : Except Thrown (List ComputedLedgerEntry) :=
  let remainingAfterFixed := net - fixedTotal
  if bpsComponents.length = 0 then do
    throwIf (remainingAfterFixed ≠ 0) (economicsInvariantError s!"netDistributableMinor ({net}) exceeds the sum of FIXED_AMOUNT components ({fixedTotal}) by {remainingAfterFixed} for schedule {scheduleId} v{scheduleVersion}, and there are no PERCENTAGE_BPS components to absorb the remainder — every minor unit must be assigned to exactly one recipient, never left implicit")
    return []
  else splitByLargestRemainder remainingAfterFixed bpsComponents scheduleId scheduleVersion

/-- The entries of a split, up to the check of their sum. -/
def commissionEntries (input : ComputeCommissionSplitsInput) :
    Except Thrown (List ComputedLedgerEntry) := do
  let net := input.netDistributableMinor
  assertBigIntMinorUnits net "netDistributableMinor"
  throwIf (input.components.length = 0) (economicsInvariantError s!"no components supplied for schedule {input.scheduleId} v{input.scheduleVersion} — cannot split {net} across zero recipients")
  checkDistinctComponentIds [] input.components
  let fixedComponents := input.components.filter (·.componentType = .fixedAmount)
  let bpsComponents := input.components.filter (·.componentType = .percentageBps)
  let fixedTotal ← sumFixedAmounts 0 fixedComponents
  throwIf (net < fixedTotal) (economicsInvariantError s!"sum of FIXED_AMOUNT components ({fixedTotal}) exceeds netDistributableMinor ({net}) for schedule {input.scheduleId} v{input.scheduleVersion}")
  let fixedEntries := fixedComponents.map fun c ↦ c.entry (c.fixedAmountMinor.getD 0)
  let bpsEntries ← splitRemainder net fixedTotal bpsComponents input.scheduleId input.scheduleVersion
  return fixedEntries ++ bpsEntries

def computeCommissionSplits (input : ComputeCommissionSplitsInput) :
    Except Thrown ComputeCommissionSplitsResult := do
  let net := input.netDistributableMinor
  let entries ← commissionEntries input
  let sumCheck := (entries.map ComputedLedgerEntry.amountMinor).sum
  throwIf (sumCheck ≠ net) (economicsInvariantError s!"internal error: computed entries sum to {sumCheck}, not netDistributableMinor ({net}) — zero-leakage invariant violated for schedule {input.scheduleId} v{input.scheduleVersion}")
  return {
    entries
    calculationVersion := economicsEngineVersion
    computedAt := input.now
    inputVersions := input.inputVersions.getD
      [s!"schedule:{input.scheduleId}:v{input.scheduleVersion}"] }

/-- Keep the components whose effective basis — their own override, else the schedule's — is the
target. -/
def selectComponentsForBasis (components : List EconomicsComponentInput)
    (scheduleBasis targetBasis : CommissionBasis)
    (componentBasisOverride : Uuid → Option CommissionBasis) : List EconomicsComponentInput :=
  components.filter fun c ↦ (componentBasisOverride c.componentId).getD scheduleBasis = targetBasis

/-! ### The accrual balance -/

structure AccrualLedgerEntryLike where
  entryType : LedgerEntryType
  direction : LedgerDirection
  amountMinor : Int
  deriving DecidableEq, Repr

structure AccrualBalance where
  status : AccrualDerivedStatus
  originalAmountMinor : Int
  netAmountMinor : Int
  paidAmountMinor : Int
  outstandingAmountMinor : Int
  deriving DecidableEq, Repr

/-- The signed effect of an adjustment. -/
def AccrualLedgerEntryLike.signedAmount (e : AccrualLedgerEntryLike) : Int :=
  if e.direction = .credit then e.amountMinor else -e.amountMinor

/-- The running state of the balance loop. -/
structure BalanceFold where
  netAmountMinor : Int
  paidAmountMinor : Int := 0
  hasAdjustment : Bool := false
  hasReversal : Bool := false

/-- One iteration of the balance loop. -/
def BalanceFold.add (acc : BalanceFold) (e : AccrualLedgerEntryLike) : BalanceFold :=
  match e.entryType with
  | .adjustment =>
    { acc with hasAdjustment := true, netAmountMinor := acc.netAmountMinor + e.signedAmount }
  | .payment => { acc with paidAmountMinor := acc.paidAmountMinor + e.amountMinor }
  | .reversal => { acc with hasReversal := true }
  | .accrual => acc

def computeAccrualBalance (entries : List AccrualLedgerEntryLike) : Except Thrown AccrualBalance :=
  match entries.filter (·.entryType = .accrual) with
  | [root] =>
    let originalAmountMinor := root.amountMinor
    let acc := entries.foldl BalanceFold.add { netAmountMinor := originalAmountMinor }
    let outstandingAmountMinor :=
      if acc.hasReversal then 0 else acc.netAmountMinor - acc.paidAmountMinor
    let status : AccrualDerivedStatus :=
      if acc.hasReversal then .reversed
      else if outstandingAmountMinor ≤ 0 then .paid
      else if 0 < acc.paidAmountMinor then .partiallyPaid
      else if acc.hasAdjustment then .adjusted
      else .accrued
    .ok { status, originalAmountMinor, netAmountMinor := acc.netAmountMinor,
          paidAmountMinor := acc.paidAmountMinor, outstandingAmountMinor }
  | accrualEntries => .error (economicsInvariantError s!"expected exactly one ACCRUAL entry in an accrual's ledger chain, found {accrualEntries.length}")

/-! ### The period view -/

inductive RevenueEventMismatchCode
  | basisMismatch | distributionMismatch
  deriving DecidableEq, Repr

structure RevenueEventMismatch where
  code : RevenueEventMismatchCode
  message : String
  deriving DecidableEq, Repr

structure RevenueEventReconciliationInput where
  grossAmountMinor : Int
  deductionsMinor : Int
  netDistributableMinor : Int
  ledgerEntries : List AccrualLedgerEntryLike

structure RevenueEventReconciliation where
  reconciled : Bool
  distributedMinor : Int
  paidMinor : Int
  outstandingMinor : Int
  mismatches : List RevenueEventMismatch
  deriving DecidableEq, Repr

/-- The four running totals of the reconciliation loop. -/
structure ReconcileFold where
  distributedMinor : Int := 0
  paidMinor : Int := 0
  adjustmentNetMinor : Int := 0
  reversedMinor : Int := 0

/-- One iteration of the reconciliation loop. -/
def ReconcileFold.add (acc : ReconcileFold) (e : AccrualLedgerEntryLike) : ReconcileFold :=
  match e.entryType with
  | .accrual => { acc with distributedMinor := acc.distributedMinor + e.amountMinor }
  | .payment => { acc with paidMinor := acc.paidMinor + e.amountMinor }
  | .adjustment => { acc with adjustmentNetMinor := acc.adjustmentNetMinor + e.signedAmount }
  | .reversal => { acc with reversedMinor := acc.reversedMinor + e.amountMinor }

def reconcileRevenueEvent (input : RevenueEventReconciliationInput) : RevenueEventReconciliation :=
  let expectedNet := input.grossAmountMinor - input.deductionsMinor
  let basisMismatches : List RevenueEventMismatch :=
    if expectedNet ≠ input.netDistributableMinor then
      [{ code := .basisMismatch
         message := s!"grossAmountMinor ({input.grossAmountMinor}) - deductionsMinor ({input.deductionsMinor}) = {expectedNet}, not netDistributableMinor ({input.netDistributableMinor})" }]
    else []
  let acc := input.ledgerEntries.foldl ReconcileFold.add {}
  let distributionMismatches : List RevenueEventMismatch :=
    if acc.distributedMinor ≠ input.netDistributableMinor then
      [{ code := .distributionMismatch
         message := s!"SUM(ACCRUAL ledger entries) = {acc.distributedMinor} does not equal netDistributableMinor ({input.netDistributableMinor})" }]
    else []
  let mismatches := basisMismatches ++ distributionMismatches
  { reconciled := mismatches.length = 0
    distributedMinor := acc.distributedMinor
    paidMinor := acc.paidMinor
    outstandingMinor :=
      acc.distributedMinor + acc.adjustmentNetMinor - acc.paidMinor - acc.reversedMinor
    mismatches }

/-! ### Cap and floor disclosure -/

structure ScheduleCapFloorInput where
  capMinor : Option Int
  floorMinor : Option Int
  cumulativeDistributedMinor : Int

structure ScheduleCapFloorStatus where
  withinCap : Bool
  capExceededByMinor : Option Int
  withinFloor : Bool
  floorShortfallMinor : Option Int
  deriving DecidableEq, Repr

def evaluateScheduleCapFloor (input : ScheduleCapFloorInput) :
    Except Thrown ScheduleCapFloorStatus := do
  let cumulative := input.cumulativeDistributedMinor
  assertBigIntMinorUnits cumulative "cumulativeDistributedMinor"
  if let some cap := input.capMinor then assertBigIntMinorUnits cap "capMinor"
  if let some floor := input.floorMinor then assertBigIntMinorUnits floor "floorMinor"
  let capExceededByMinor := (input.capMinor.filter (· < cumulative)).map (cumulative - ·)
  let floorShortfallMinor := (input.floorMinor.filter (cumulative < ·)).map (· - cumulative)
  return { withinCap := capExceededByMinor.isNone, capExceededByMinor,
           withinFloor := floorShortfallMinor.isNone, floorShortfallMinor }

end TolPlatform
