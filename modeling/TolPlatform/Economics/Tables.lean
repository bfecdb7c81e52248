import TolPlatform.Authz.Can
import TolPlatform.Domain.EconomicsEngine
import TolPlatform.Domain.StateMachines
import TolPlatform.Library.Table
import TolPlatform.Shared.IdempotencyRepository
import TolPlatform.Shared.Support

/-!
# The economics tables

The rows of `packages/db/prisma/schema.prisma` that the economics service and the accrual job read
and write, and the database `Db` they make up. A column that no modelled function reads or writes,
or that every writer sets to the same constant (`privacyClass`, `sourceType`), is left out. Rows are
kept in the order they were inserted, which no query relies on.
-/

namespace TolPlatform

/-! ### Rows -/

structure DealRoom where
  id : Uuid
  merchantOrgId : Uuid
  status : DealRoomStatus
  deriving DecidableEq, Repr

/-- One version of a schedule. -/
structure CommissionSchedule where
  id : Uuid
  dealRoomId : Uuid
  scheduleFamilyId : Uuid
  versionNumber : Int
  previousVersionId : Option Uuid
  basis : CommissionBasis
  status : CommissionScheduleStatus
  capMinor : Option Int
  floorMinor : Option Int
  survivalMonths : Option Int
  description : Option String
  createdAt : Instant
  createdByUserId : Option Uuid
  createdByOrgId : Option Uuid
  updatedByUserId : Option Uuid := none
  version : Int := 1
  deriving DecidableEq, Repr

structure CommissionComponent where
  id : Uuid
  scheduleId : Uuid
  recipientType : CommissionRecipientType
  recipientOrgId : Uuid
  componentType : CommissionComponentType
  bps : Option Int
  fixedAmountMinor : Option Int
  /-- `none` inherits the schedule's basis. -/
  calculationBasis : Option CommissionBasis
  priority : Int
  claimId : Option Uuid
  createdByUserId : Option Uuid
  createdByOrgId : Option Uuid
  deriving DecidableEq, Repr

structure RevenueEvent where
  id : Uuid
  dealRoomId : Uuid
  scheduleId : Uuid
  basis : CommissionBasis
  period : String
  source : String
  grossAmountMinor : Int
  deductionsMinor : Int
  netDistributableMinor : Int
  currency : String
  recognizedAt : Instant
  createdByUserId : Option Uuid
  createdByOrgId : Option Uuid
  deriving DecidableEq, Repr

/-- One row of the append-only ledger. -/
structure CommissionAccrual where
  id : Uuid
  accrualRootId : Uuid
  entryType : LedgerEntryType
  direction : LedgerDirection
  amountMinor : Int
  currency : String
  dealRoomId : Uuid
  revenueEventId : Uuid
  scheduleId : Uuid
  scheduleVersion : Int
  componentId : Uuid
  recipientOrgId : Uuid
  claimId : Option Uuid
  paymentId : Option Uuid
  reason : Option String
  approverUserId : Option Uuid
  approverOrgId : Option Uuid
  calculationVersion : String
  inputVersions : List String
  computedAt : Instant
  createdAt : Instant
  createdByUserId : Option Uuid
  createdByOrgId : Option Uuid
  deriving DecidableEq, Repr

structure CommissionPayment where
  id : Uuid
  dealRoomId : Uuid
  recipientOrgId : Uuid
  totalAmountMinor : Int
  currency : String
  paidAt : Instant
  reference : String
  evidenceRef : Option String
  createdByUserId : Option Uuid
  createdByOrgId : Option Uuid
  deriving DecidableEq, Repr

inductive EconomicsAccrualStatus
  | alreadyAccrued | accrued | skippedNoActiveSchedule
  deriving DecidableEq, Repr

/-- What the accrual job returns, and caches under its idempotency key. -/
structure EconomicsAccrualJobResult where
  status : EconomicsAccrualStatus
  entryCount : Nat
  deriving DecidableEq, Repr

/-! ### The database -/

structure Db where
  dealRooms : List DealRoom := []
  commissionSchedules : List CommissionSchedule := []
  commissionComponents : List CommissionComponent := []
  revenueEvents : List RevenueEvent := []
  commissionAccruals : List CommissionAccrual := []
  commissionPayments : List CommissionPayment := []
  idempotencyKeys : List (IdempotencyKey EconomicsAccrualJobResult) := []
  auditEvents : List AuditEvent := []
  domainEvents : List DomainEvent := []
  deriving DecidableEq, Repr

namespace Db

def schedules : Table Db CommissionSchedule Uuid where
  rows := commissionSchedules
  put l db := { db with commissionSchedules := l }
  key := (·.id)

def components : Table Db CommissionComponent Uuid where
  rows := commissionComponents
  put l db := { db with commissionComponents := l }
  key := (·.id)

def events : Table Db RevenueEvent Uuid where
  rows := revenueEvents
  put l db := { db with revenueEvents := l }
  key := (·.id)

def accruals : Table Db CommissionAccrual Uuid where
  rows := commissionAccruals
  put l db := { db with commissionAccruals := l }
  key := (·.id)

def payments : Table Db CommissionPayment Uuid where
  rows := commissionPayments
  put l db := { db with commissionPayments := l }
  key := (·.id)

def jobKeys : Table Db (IdempotencyKey EconomicsAccrualJobResult) Uuid where
  rows := idempotencyKeys
  put l db := { db with idempotencyKeys := l }
  key := (·.id)

end Db

/-- The ledger entry that the domain's folds read off a row. -/
def CommissionAccrual.toLike (row : CommissionAccrual) : AccrualLedgerEntryLike :=
  { entryType := row.entryType, direction := row.direction, amountMinor := row.amountMinor }

end TolPlatform
