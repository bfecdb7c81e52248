import Mathlib.Data.List.Dedup
import TolPlatform.Economics.Repositories
import TolPlatform.Library.Grouping

/-!
# The economics service

`apps/api/src/modules/economics/service.ts`. A service call is a few stages: it reads and checks on
the open database, then runs one transaction. Each stage is a definition of its own — reads are
functions of the database, the transaction is a `Tx` body — because other parties' transactions
commit between the stages.

* `createSchedule`: `prepareSchedule`, then `commitSchedule`.
* `recordRevenueEvent`: `admitRevenueEvent`, `planRevenueEvent`, then `commitRevenueEvent`.
* `recordPayment`: `precheckPayment`; under the deal room's lock `revalidatePayment`, then
  `commitPayment`.
* `adjustLedger`: `precheckAdjustment`; under the deal room's lock `loadAdjustableChain`, then
  `commitAdjustment`.
* `listSchedules`, `listRevenueEvents` and `getLedger` only read.

Optional date fields of a request are taken as parsed instants. Identifiers that the request schemas
require to be UUIDs are never empty, so their truth tests are tests for presence.
-/

namespace TolPlatform

/-! ### Calls and their environment -/

/-- One call of a service function on a deal room. -/
structure ServiceCall (Input : Type) where
  actor : Actor
  dealRoomId : Uuid
  input : Input
  context : RequestContext
  deriving DecidableEq, Repr

/-- `ECONOMICS_ELIGIBLE_DEAL_STATUSES`. -/
def economicsEligibleDealStatuses : List DealRoomStatus := [.activation, .live, .archived]

/-- `CROSS_ORG_ECONOMICS_ROLES`. -/
def crossOrgEconomicsRoles : List PersonaRole :=
  [.platformOwner, .financeOperator, .auditorReadonly]

/-- `LEDGER_PARTY_ROLES`. -/
def ledgerPartyRoles : List PersonaRole := [.contributorAgent, .merchantPspUser, .acquirerProviderUser]

def loadDealRoom (db : Db) (dealRoomId : Uuid) : Except Thrown DealRoom :=
  match DealRoomRepository.findById db dealRoomId with
  | none => .error (notFound "Deal room not found.")
  | some dealRoom => .ok dealRoom

/-- `auditWriter(context).write`. -/
def auditWrite (actor : Actor) (context : RequestContext) (subjectOrgId : Option Uuid)
    (action resourceType : String) (resourceId : Uuid) (afterValue : List (String × JsonValue)) :
    Tx Db Thrown PUnit :=
  AuditRepository.write
    { actorUserId := some actor.userId, actorOrgId := actor.organizationId, actorRole := actor.role,
      subjectOrgId, action, resourceType, resourceId := some resourceId, afterValue,
      requestId := some context.requestId, correlationId := some context.correlationId,
      ipClass := some context.ipClass, userAgentClass := some context.userAgentClass }

/-- `timelineWriter(context).write`, on the deal room. -/
def timelineWrite (actor : Actor) (context : RequestContext) (eventType : String)
    (dealRoomId : Uuid) (payload : List (String × JsonValue)) : Tx Db Thrown PUnit :=
  DomainEventRepository.write
    { eventType, aggregateType := "deal_room", aggregateId := dealRoomId, payload,
      actorUserId := some actor.userId, actorOrgId := actor.organizationId, actorRole := actor.role,
      requestId := some context.requestId, correlationId := some context.correlationId }

/-! ### Schedules -/

structure CommissionComponentInput where
  recipientType : CommissionRecipientType
  recipientOrgId : Uuid
  componentType : CommissionComponentType
  bps : Option Int := none
  fixedAmountMinor : Option String := none
  calculationBasis : Option CommissionBasis := none
  priority : Int
  claimId : Option Uuid := none
  deriving DecidableEq, Repr

structure CreateScheduleRequest where
  basis : CommissionBasis
  capMinor : Option String := none
  floorMinor : Option String := none
  survivalMonths : Option Int := none
  description : Option String := none
  supersedesScheduleId : Option Uuid := none
  components : List CommissionComponentInput
  deriving DecidableEq, Repr

/-- What `createSchedule` has read when its transaction opens. -/
structure SchedulePlan where
  dealRoom : DealRoom
  capMinor : Option Int
  floorMinor : Option Int
  previous : Option CommissionSchedule
  deriving DecidableEq, Repr

structure ScheduleDetail where
  schedule : CommissionSchedule
  components : List CommissionComponent
  capFloorStatus : Option ScheduleCapFloorStatus
  deriving DecidableEq, Repr

/-- `value ? parseBigIntMinorUnits(value, fieldName) : null`. -/
def parseOptionalMinorUnits (value : Option String) (fieldName : String) :
    Except Thrown (Option Int) :=
  if truthy value then (parseBigIntMinorUnits value fieldName).map some else .ok none

def checkCapFloor : Option Int → Option Int → Except Thrown Unit
  | some capMinor, some floorMinor =>
    throwIf (capMinor < floorMinor) (badRequest s!"capMinor ({capMinor}) must not be less than floorMinor ({floorMinor}) — a schedule cannot promise to distribute at least floorMinor while also capping total distribution below it.")
  | _, _ => .ok ()

/-- The version to supersede: it must be of this deal room, and still `ACTIVE` when read. -/
def loadPrevious (db : Db) (dealRoomId : Uuid) :
    Option Uuid → Except Thrown (Option CommissionSchedule)
  | none => .ok none
  | some supersedesScheduleId =>
    let missing :=
      badRequest "supersedesScheduleId does not reference an existing schedule for this deal room."
    match CommissionScheduleRepository.findById db supersedesScheduleId with
    | none => .error missing
    | some previous => do
      throwIf (previous.dealRoomId ≠ dealRoomId) missing
      throwIf (previous.status ≠ .active) (badRequest
        s!"Cannot supersede a schedule that is not ACTIVE (current status: {previous.status}).")
      assertValidCommissionScheduleTransition previous.status .superseded
      return some previous

/-- `createSchedule` up to its transaction. -/
def prepareSchedule (db : Db) (call : ServiceCall CreateScheduleRequest) :
    Except Thrown SchedulePlan := do
  let dealRoom ← loadDealRoom db call.dealRoomId
  requireAllowed (can call.actor .scheduleManage
    { type := .commissionSchedule, ownerOrgId := some dealRoom.merchantOrgId })
  let capMinor ← parseOptionalMinorUnits call.input.capMinor "capMinor"
  let floorMinor ← parseOptionalMinorUnits call.input.floorMinor "floorMinor"
  checkCapFloor capMinor floorMinor
  let previous ← loadPrevious db call.dealRoomId call.input.supersedesScheduleId
  return { dealRoom, capMinor, floorMinor, previous }

/-- `null` when a schedule has neither a cap nor a floor to disclose. -/
def toCapFloorStatus (schedule : CommissionSchedule) (cumulativeDistributedMinor : Int) :
    Except Thrown (Option ScheduleCapFloorStatus) :=
  if schedule.capMinor = none ∧ schedule.floorMinor = none then .ok none
  else
    let input : ScheduleCapFloorInput :=
      { capMinor := schedule.capMinor, floorMinor := schedule.floorMinor,
        cumulativeDistributedMinor }
    (evaluateScheduleCapFloor input).map some

/-- The basis-point guard over the submitted components. -/
def checkComponentBps : List CommissionComponentInput → Except Thrown Unit
  | [] => .ok ()
  | c :: rest => do
    if let some bps := c.bps then
      assertIntegerBps bps s!"component[recipientOrgId={c.recipientOrgId}].bps" 10000
    checkComponentBps rest

/-- The row input of one submitted component. -/
def toComponentInput (actor : Actor) (scheduleId : Uuid) (c : CommissionComponentInput) :
    Except Thrown CreateCommissionComponentInput := do
  let fixedAmountMinor ← parseOptionalMinorUnits c.fixedAmountMinor
    s!"component[recipientOrgId={c.recipientOrgId}].fixedAmountMinor"
  return { scheduleId, recipientType := c.recipientType, recipientOrgId := c.recipientOrgId,
           componentType := c.componentType, bps := c.bps, fixedAmountMinor,
           calculationBasis := c.calculationBasis, priority := c.priority, claimId := c.claimId,
           createdByUserId := some actor.userId, createdByOrgId := actor.organizationId }

/-- `if (previous) await updateStatus(tx, previous.id, "SUPERSEDED", actor.userId);`. -/
def supersede (actor : Actor) : Option CommissionSchedule → Tx Db Thrown PUnit
  | none => pure ⟨⟩
  | some previous => do
    let _ ← CommissionScheduleRepository.updateStatus previous.id .superseded (some actor.userId)

def commitSchedule (e : Draws) (call : ServiceCall CreateScheduleRequest) (plan : SchedulePlan) :
    Tx Db Thrown ScheduleDetail := do
  let schedule ← CommissionScheduleRepository.create e.now (e.ids 0)
    { dealRoomId := call.dealRoomId, basis := call.input.basis, capMinor := plan.capMinor,
      floorMinor := plan.floorMinor, survivalMonths := call.input.survivalMonths,
      description := call.input.description, previousVersionId := plan.previous.map (·.id),
      createdByUserId := some call.actor.userId, createdByOrgId := call.actor.organizationId }
  Tx.check (assertValidCommissionScheduleTransition .draft .active)
  let activated ←
    CommissionScheduleRepository.updateStatus schedule.id .active (some call.actor.userId)
  Tx.check (checkComponentBps call.input.components)
  let inputs ← Tx.check (call.input.components.mapM (toComponentInput call.actor schedule.id))
  let components ← CommissionComponentRepository.createMany (fun n ↦ e.ids (n + 1)) inputs
  supersede call.actor plan.previous
  auditWrite call.actor call.context (some plan.dealRoom.merchantOrgId)
    "economics.schedule_created" "commission_schedule" activated.id
    [("dealRoomId", .string call.dealRoomId), ("basis", .string (toString activated.basis)),
     ("versionNumber", .number activated.versionNumber),
     ("componentCount", .number components.length),
     ("supersedes", (plan.previous.map fun p ↦ JsonValue.string p.id).getD .null)]
  timelineWrite call.actor call.context
    (if plan.previous.isSome then "economics.schedule_superseded" else "economics.schedule_created")
    call.dealRoomId
    [("scheduleId", .string activated.id), ("versionNumber", .number activated.versionNumber),
     ("basis", .string (toString activated.basis))]
  let capFloorStatus ← Tx.check (toCapFloorStatus activated 0)
  return { schedule := activated, components, capFloorStatus }

/-- One schedule of a listing. The rows are added up only where there is a cap or a floor. -/
def toScheduleDetail (db : Db) (schedule : CommissionSchedule) : Except Thrown ScheduleDetail := do
  let components := CommissionComponentRepository.listBySchedule db schedule.id
  let cumulativeDistributedMinor :=
    if schedule.capMinor = none ∧ schedule.floorMinor = none then 0
    else CommissionAccrualRepository.sumAccrualAmountByScheduleId db schedule.id
  let capFloorStatus ← toCapFloorStatus schedule cumulativeDistributedMinor
  return { schedule, components, capFloorStatus }

def listSchedules (db : Db) (actor : Actor) (dealRoomId : Uuid) :
    Except Thrown (List ScheduleDetail) := do
  let dealRoom ← loadDealRoom db dealRoomId
  requireAllowed (can actor .scheduleList
    { type := .commissionSchedule, ownerOrgId := some dealRoom.merchantOrgId })
  (CommissionScheduleRepository.listByDealRoom db dealRoomId).mapM (toScheduleDetail db)

/-! ### Revenue events -/

structure RecordRevenueEventRequest where
  basis : CommissionBasis
  period : String
  source : String
  grossAmountMinor : String
  deductionsMinor : Option String := none
  currency : String
  recognizedAt : Option Instant := none
  deriving DecidableEq, Repr

/-- What `recordRevenueEvent` has computed when its transaction opens. -/
structure RevenuePlan where
  schedule : CommissionSchedule
  grossAmountMinor : Int
  deductionsMinor : Int
  netDistributableMinor : Int
  recognizedAt : Instant
  split : ComputeCommissionSplitsResult
  deriving DecidableEq, Repr

structure RevenueEventRecorded where
  revenueEvent : RevenueEvent
  ledgerEntries : List CommissionAccrual
  reconciliation : RevenueEventReconciliation
  deriving DecidableEq, Repr

/-- The checks before the schedule is chosen. -/
def admitRevenueEvent (db : Db) (call : ServiceCall RecordRevenueEventRequest) :
    Except Thrown DealRoom := do
  let dealRoom ← loadDealRoom db call.dealRoomId
  requireAllowed (can call.actor .economicsRecord
    { type := .revenueEvent, ownerOrgId := some dealRoom.merchantOrgId })
  throwIf (dealRoom.status ∉ economicsEligibleDealStatuses) (badRequest s!"Deal room must be ACTIVATION, LIVE, or ARCHIVED before economics can engage (current status: {dealRoom.status}).")
  assertCurrencyCode call.input.currency "currency"
  throwIf (RevenueEventRepository.findByDealPeriodSource db call.dealRoomId call.input.period
      call.input.source ≠ none)
    (conflict s!"A RevenueEvent already exists for deal {call.dealRoomId}, period {call.input.period}, source \"{call.input.source}\".")
  return dealRoom

/-- The schedule to book against: the first active schedule of the deal room whose own basis is the
event's. -/
def chooseSchedule (db : Db) (dealRoomId : Uuid) (basis : CommissionBasis) :
    Except Thrown CommissionSchedule :=
  match (CommissionScheduleRepository.listActiveByDealRoom db dealRoomId).find? (·.basis = basis) with
  | none => .error (badRequest s!"No ACTIVE CommissionSchedule covers basis \"{basis}\" for this deal room. Create one first (schedule.manage).")
  | some schedule => .ok schedule

/-- The engine's input for one component row. -/
def CommissionComponent.toEngineInput (c : CommissionComponent) : EconomicsComponentInput :=
  { componentId := c.id, recipientOrgId := c.recipientOrgId, componentType := c.componentType,
    bps := c.bps.map toNumber, fixedAmountMinor := c.fixedAmountMinor, claimId := c.claimId,
    priority := c.priority }

/-- `new Map(allComponents.map((c) => [c.id, c.calculationBasis]))`. -/
def basisOverrideMap (components : List CommissionComponent) (id : Uuid) : Option CommissionBasis :=
  (components.find? (·.id = id)).bind (·.calculationBasis)

/-- The components of a schedule that an event of the given basis is split over. -/
def targetedComponents (db : Db) (schedule : CommissionSchedule) (basis : CommissionBasis) :
    List EconomicsComponentInput :=
  let allComponents := CommissionComponentRepository.listBySchedule db schedule.id
  selectComponentsForBasis (allComponents.map CommissionComponent.toEngineInput) schedule.basis basis
    (basisOverrideMap allComponents)

/-- An engine invariant that a schedule breaks is the caller's problem, not the server's. -/
def splitOrBadRequest (input : ComputeCommissionSplitsInput) :
    Except Thrown ComputeCommissionSplitsResult :=
  match computeCommissionSplits input with
  | .error (.economicsInvariant message) =>
    .error (badRequest s!"Cannot compute the commission split: {message}")
  | r => r

/-- Amounts, components and split, once the schedule is chosen. -/
def planAgainst (db : Db) (call : ServiceCall RecordRevenueEventRequest) (now : Instant)
    (schedule : CommissionSchedule) : Except Thrown RevenuePlan := do
  let grossAmountMinor ← parseBigIntMinorUnits (some call.input.grossAmountMinor) "grossAmountMinor"
  let deductionsMinor ←
    (parseOptionalMinorUnits call.input.deductionsMinor "deductionsMinor").map (·.getD 0)
  let netDistributableMinor := grossAmountMinor - deductionsMinor
  throwIf (netDistributableMinor < 0) (badRequest "deductionsMinor must not exceed grossAmountMinor.")
  let components := targetedComponents db schedule call.input.basis
  throwIf (components.length = 0) (badRequest
    s!"Schedule {schedule.id} has zero components covering basis \"{call.input.basis}\".")
  let recognizedAt := call.input.recognizedAt.getD now
  let split ← splitOrBadRequest
    { netDistributableMinor, components, scheduleId := schedule.id,
      scheduleVersion := schedule.versionNumber, now := recognizedAt }
  return { schedule, grossAmountMinor, deductionsMinor, netDistributableMinor, recognizedAt, split }

/-- The reads between the admission and the transaction. -/
def planRevenueEvent (db : Db) (call : ServiceCall RecordRevenueEventRequest) (now : Instant) :
    Except Thrown RevenuePlan := do
  let schedule ← chooseSchedule db call.dealRoomId call.input.basis
  planAgainst db call now schedule

/-- The `ACCRUAL` row input of one split entry. -/
def accrualInput (event : RevenueEvent) (schedule : CommissionSchedule)
    (split : ComputeCommissionSplitsResult) (createdByUserId createdByOrgId : Option Uuid)
    (entry : ComputedLedgerEntry) : CreateCommissionAccrualInput :=
  { entryType := .accrual, direction := entry.direction, amountMinor := entry.amountMinor,
    currency := event.currency, dealRoomId := event.dealRoomId, revenueEventId := event.id,
    scheduleId := schedule.id, scheduleVersion := schedule.versionNumber,
    componentId := entry.componentId, recipientOrgId := entry.recipientOrgId,
    claimId := entry.claimId, calculationVersion := split.calculationVersion,
    inputVersions := split.inputVersions, computedAt := event.recognizedAt, createdByUserId,
    createdByOrgId }

def commitRevenueEvent (e : Draws) (call : ServiceCall RecordRevenueEventRequest)
    (dealRoom : DealRoom) (plan : RevenuePlan) :
    Tx Db Thrown (RevenueEvent × List CommissionAccrual) := do
  let revenueEvent ← RevenueEventRepository.create (e.ids 0)
    { dealRoomId := call.dealRoomId, scheduleId := plan.schedule.id, basis := call.input.basis,
      period := call.input.period, source := call.input.source,
      grossAmountMinor := plan.grossAmountMinor, deductionsMinor := plan.deductionsMinor,
      netDistributableMinor := plan.netDistributableMinor, currency := call.input.currency,
      recognizedAt := plan.recognizedAt, createdByUserId := some call.actor.userId,
      createdByOrgId := call.actor.organizationId }
  let ledgerEntries ← CommissionAccrualRepository.createMany e.now (fun n ↦ e.ids (n + 1))
    (plan.split.entries.map (accrualInput revenueEvent plan.schedule plan.split
      (some call.actor.userId) call.actor.organizationId))
  auditWrite call.actor call.context (some dealRoom.merchantOrgId)
    "commission.accrued" "revenue_event" revenueEvent.id
    [("dealRoomId", .string call.dealRoomId), ("period", .string call.input.period),
     ("source", .string call.input.source),
     ("netDistributableMinor", .string (toString plan.netDistributableMinor)),
     ("entryCount", .number ledgerEntries.length),
     ("calculationVersion", .string plan.split.calculationVersion)]
  timelineWrite call.actor call.context "commission.accrued" call.dealRoomId
    [("revenueEventId", .string revenueEvent.id), ("scheduleId", .string plan.schedule.id),
     ("netDistributableMinor", .string (toString plan.netDistributableMinor)),
     ("entryCount", .number ledgerEntries.length)]
  return (revenueEvent, ledgerEntries)

/-- The response, with its own reconciliation. -/
def toRevenueEventRecorded (result : RevenueEvent × List CommissionAccrual) :
    RevenueEventRecorded :=
  { revenueEvent := result.1
    ledgerEntries := result.2
    reconciliation := reconcileRevenueEvent
      { grossAmountMinor := result.1.grossAmountMinor
        deductionsMinor := result.1.deductionsMinor
        netDistributableMinor := result.1.netDistributableMinor
        ledgerEntries := result.2.map CommissionAccrual.toLike } }

def listRevenueEvents (db : Db) (actor : Actor) (dealRoomId : Uuid) :
    Except Thrown (List RevenueEvent) := do
  let dealRoom ← loadDealRoom db dealRoomId
  requireAllowed (can actor .economicsList
    { type := .revenueEvent, ownerOrgId := some dealRoom.merchantOrgId })
  return RevenueEventRepository.listByDealRoom db dealRoomId

/-! ### The ledger -/

structure AccrualWithBalance where
  accrualRootId : Uuid
  dealRoomId : Uuid
  revenueEventId : Uuid
  scheduleId : Uuid
  componentId : Uuid
  recipientOrgId : Uuid
  claimId : Option Uuid
  currency : String
  balance : AccrualBalance
  entries : List CommissionAccrual
  deriving DecidableEq, Repr

/-- One group of rows; a group without an `ACCRUAL` row is skipped. -/
def toAccrualWithBalance (group : Uuid × List CommissionAccrual) :
    Except Thrown (Option AccrualWithBalance) :=
  match group.2.find? (·.entryType = .accrual) with
  | none => .ok none
  | some root => do
    let sorted := group.2.insertionSort fun a b ↦ a.createdAt ≤ b.createdAt
    let balance ← computeAccrualBalance (sorted.map CommissionAccrual.toLike)
    return some
      { accrualRootId := group.1, dealRoomId := root.dealRoomId,
        revenueEventId := root.revenueEventId, scheduleId := root.scheduleId,
        componentId := root.componentId, recipientOrgId := root.recipientOrgId,
        claimId := root.claimId, currency := root.currency, balance, entries := sorted }

/-- The per-accrual view of a list of ledger rows. -/
def groupIntoAccruals (rows : List CommissionAccrual) : Except Thrown (List AccrualWithBalance) :=
  ((rows.groupedBy (·.accrualRootId)).mapM toAccrualWithBalance).map (·.filterMap id)

def getLedger (db : Db) (actor : Actor) (dealRoomId : Uuid) :
    Except Thrown (List AccrualWithBalance) := do
  let _ ← loadDealRoom db dealRoomId
  let isCrossOrg := actor.role.any (· ∈ crossOrgEconomicsRoles)
  let allRows := CommissionAccrualRepository.listByDealRoom db dealRoomId
  let isRecipient :=
    actor.organizationId.isSome && allRows.any (some ·.recipientOrgId = actor.organizationId)
  let isParticipant := !isCrossOrg && actor.role.any (· ∈ ledgerPartyRoles) && isRecipient
  requireAllowed (can actor .ledgerList { type := .commissionAccrual, ownerOrgId := none }
    { isParticipant })
  groupIntoAccruals (if isCrossOrg then allRows
    else allRows.filter (some ·.recipientOrgId = actor.organizationId))

/-! ### Payments -/

structure PaymentEntry where
  accrualRootId : Uuid
  amountMinor : String
  deriving DecidableEq, Repr

structure RecordPaymentRequest where
  payments : List PaymentEntry
  reference : String
  evidenceRef : Option String := none
  paidAt : Option Instant := none
  deriving DecidableEq, Repr

structure LoadedPayment where
  accrualRootId : Uuid
  amountMinor : Int
  root : CommissionAccrual
  deriving DecidableEq, Repr

/-- What `recordPayment` knows when its transaction opens. -/
structure PaymentPlan where
  dealRoom : DealRoom
  paidAt : Instant
  deriving DecidableEq, Repr

/-- What the authoritative check inside the lock returns. -/
structure ValidatedPayment where
  loaded : List LoadedPayment
  recipientOrgId : Uuid
  currency : String
  deriving DecidableEq, Repr

/-- One entry of the batch against its accrual's current balance. -/
def loadAndValidatePayment (db : Db) (dealRoomId : Uuid) (p : PaymentEntry) :
    Except Thrown LoadedPayment :=
  let missing := badRequest
    s!"accrualRootId {p.accrualRootId} does not reference an accrual on this deal room."
  match CommissionAccrualRepository.listByAccrualRoot db p.accrualRootId with
  | [] => .error missing
  | root :: rest => do
    throwIf (root.dealRoomId ≠ dealRoomId) missing
    let balance ← computeAccrualBalance ((root :: rest).map CommissionAccrual.toLike)
    throwIf (balance.status = .reversed) (badRequest s!"Accrual {p.accrualRootId} has been REVERSED — no further payment may be recorded against it.")
    let amountMinor ← parseBigIntMinorUnits (some p.amountMinor)
      s!"payment[accrualRootId={p.accrualRootId}].amountMinor"
    throwIf (amountMinor ≤ 0)
      (badRequest s!"Payment amount for accrual {p.accrualRootId} must be positive.")
    throwIf (balance.outstandingAmountMinor < amountMinor) (badRequest s!"Payment amount {amountMinor} for accrual {p.accrualRootId} exceeds its outstanding balance {balance.outstandingAmountMinor}.")
    return { accrualRootId := p.accrualRootId, amountMinor, root }

/-- Every entry is checked on its own, against the same database. -/
def loadAndValidatePayments (db : Db) (dealRoomId : Uuid) (payments : List PaymentEntry) :
    Except Thrown (List LoadedPayment) :=
  payments.mapM (loadAndValidatePayment db dealRoomId)

/-- A batch has one recipient and one currency; `new Set(xs).size` is the length of `xs` without
repetitions. -/
def validateSingleRecipientAndCurrency (loaded : List LoadedPayment) :
    Except Thrown (Uuid × String) := do
  throwIf (1 < (loaded.map (·.root.recipientOrgId)).dedup.length) (badRequest
    "A single payment batch must cover accruals for exactly one recipient organization.")
  throwIf (1 < (loaded.map (·.root.currency)).dedup.length)
    (badRequest "A single payment batch must cover accruals in exactly one currency.")
  match loaded with
  | [] => .error (.error "Cannot read properties of undefined (reading 'root')")
  | l :: _ => return (l.root.recipientOrgId, l.root.currency)

/-- The shared loader, then the shared batch check. -/
def revalidatePayment (db : Db) (call : ServiceCall RecordPaymentRequest) :
    Except Thrown ValidatedPayment := do
  let loaded ← loadAndValidatePayments db call.dealRoomId call.input.payments
  let single ← validateSingleRecipientAndCurrency loaded
  return { loaded, recipientOrgId := single.1, currency := single.2 }

/-- `recordPayment` up to its transaction. -/
def precheckPayment (db : Db) (call : ServiceCall RecordPaymentRequest) (now : Instant) :
    Except Thrown PaymentPlan := do
  let dealRoom ← loadDealRoom db call.dealRoomId
  requireAllowed
    (can call.actor .ledgerRecordPayment { type := .commissionAccrual, ownerOrgId := none })
  let _ ← revalidatePayment db call
  return { dealRoom, paidAt := call.input.paidAt.getD now }

/-- The `PAYMENT` row input of one loaded entry. -/
def paymentInput (call : ServiceCall RecordPaymentRequest) (plan : PaymentPlan) (currency : String)
    (paymentId : Uuid) (l : LoadedPayment) : CreateCommissionAccrualInput :=
  { accrualRootId := some l.accrualRootId, entryType := .payment, direction := .debit,
    amountMinor := l.amountMinor, currency, dealRoomId := call.dealRoomId,
    revenueEventId := l.root.revenueEventId, scheduleId := l.root.scheduleId,
    scheduleVersion := l.root.scheduleVersion, componentId := l.root.componentId,
    recipientOrgId := l.root.recipientOrgId, claimId := l.root.claimId, paymentId := some paymentId,
    calculationVersion := economicsEngineVersion, inputVersions := [s!"payment:{paymentId}"],
    computedAt := plan.paidAt, createdByUserId := some call.actor.userId,
    createdByOrgId := call.actor.organizationId }

def commitPayment (e : Draws) (call : ServiceCall RecordPaymentRequest) (plan : PaymentPlan)
    (valid : ValidatedPayment) : Tx Db Thrown (CommissionPayment × List CommissionAccrual) := do
  let totalAmountMinor := valid.loaded.foldl (fun sum l ↦ sum + l.amountMinor) 0
  let payment ← CommissionPaymentRepository.create (e.ids 0)
    { dealRoomId := call.dealRoomId, recipientOrgId := valid.recipientOrgId, totalAmountMinor,
      currency := valid.currency, paidAt := plan.paidAt, reference := call.input.reference,
      evidenceRef := call.input.evidenceRef, createdByUserId := some call.actor.userId,
      createdByOrgId := call.actor.organizationId }
  let ledgerEntries ← CommissionAccrualRepository.createMany e.now (fun n ↦ e.ids (n + 1))
    (valid.loaded.map (paymentInput call plan valid.currency payment.id))
  auditWrite call.actor call.context (some plan.dealRoom.merchantOrgId)
    "commission.paid" "commission_accrual" payment.id
    [("dealRoomId", .string call.dealRoomId), ("recipientOrgId", .string valid.recipientOrgId),
     ("totalAmountMinor", .string (toString totalAmountMinor)),
     ("accrualCount", .number valid.loaded.length), ("reference", .string call.input.reference)]
  timelineWrite call.actor call.context "commission.paid" call.dealRoomId
    [("paymentId", .string payment.id), ("recipientOrgId", .string valid.recipientOrgId),
     ("totalAmountMinor", .string (toString totalAmountMinor)),
     ("accrualRootIds", .strings (valid.loaded.map (·.accrualRootId)))]
  return (payment, ledgerEntries)

/-! ### Adjustments -/

structure AdjustLedgerRequest where
  /-- The path parameter. -/
  accrualRootId : Uuid
  direction : LedgerDirection
  amountMinor : String
  reason : String
  deriving DecidableEq, Repr

/-- What `adjustLedger` knows when its transaction opens. -/
structure AdjustmentPlan where
  dealRoom : DealRoom
  amountMinor : Int
  deriving DecidableEq, Repr

/-- The chain to adjust, as it is read before the transaction and again under the lock. -/
def loadAdjustableChain (db : Db) (call : ServiceCall AdjustLedgerRequest) :
    Except Thrown (CommissionAccrual × List CommissionAccrual) :=
  let missing := notFound "Accrual not found on this deal room."
  match CommissionAccrualRepository.listByAccrualRoot db call.input.accrualRootId with
  | [] => .error missing
  | root :: rest => do
    throwIf (root.dealRoomId ≠ call.dealRoomId) missing
    let balance ← computeAccrualBalance ((root :: rest).map CommissionAccrual.toLike)
    throwIf (balance.status = .reversed) (badRequest s!"Accrual {call.input.accrualRootId} has been REVERSED — no further adjustment may be recorded against it.")
    return (root, root :: rest)

/-- `adjustLedger` up to its transaction. -/
def precheckAdjustment (db : Db) (call : ServiceCall AdjustLedgerRequest) :
    Except Thrown AdjustmentPlan := do
  let dealRoom ← loadDealRoom db call.dealRoomId
  requireAllowed (can call.actor .ledgerAdjust { type := .commissionAccrual, ownerOrgId := none })
  let _ ← loadAdjustableChain db call
  let amountMinor ← parseBigIntMinorUnits (some call.input.amountMinor) "amountMinor"
  throwIf (amountMinor ≤ 0) (badRequest "Adjustment amountMinor must be positive.")
  return { dealRoom, amountMinor }

/-- The `ADJUSTMENT` row input. -/
def adjustmentInput (P : Platform) (now : Instant) (call : ServiceCall AdjustLedgerRequest)
    (plan : AdjustmentPlan) (root : CommissionAccrual) : CreateCommissionAccrualInput :=
  { accrualRootId := some call.input.accrualRootId, entryType := .adjustment,
    direction := call.input.direction, amountMinor := plan.amountMinor, currency := root.currency,
    dealRoomId := call.dealRoomId, revenueEventId := root.revenueEventId,
    scheduleId := root.scheduleId, scheduleVersion := root.scheduleVersion,
    componentId := root.componentId, recipientOrgId := root.recipientOrgId, claimId := root.claimId,
    reason := some call.input.reason, approverUserId := some call.actor.userId,
    approverOrgId := call.actor.organizationId, calculationVersion := economicsEngineVersion,
    inputVersions := [s!"adjustment:{call.input.accrualRootId}:{P.toISOString now}"],
    computedAt := now, createdByUserId := some call.actor.userId,
    createdByOrgId := call.actor.organizationId }

def commitAdjustment (P : Platform) (e : Draws) (call : ServiceCall AdjustLedgerRequest)
    (plan : AdjustmentPlan) (root : CommissionAccrual) : Tx Db Thrown CommissionAccrual := do
  let ledgerEntry ← CommissionAccrualRepository.create e.now (e.ids 0)
    (adjustmentInput P e.now call plan root)
  auditWrite call.actor call.context (some plan.dealRoom.merchantOrgId)
    "commission.adjusted" "commission_accrual" ledgerEntry.id
    [("accrualRootId", .string call.input.accrualRootId),
     ("direction", .string (toString call.input.direction)),
     ("amountMinor", .string (toString plan.amountMinor)), ("reason", .string call.input.reason)]
  timelineWrite call.actor call.context "commission.adjusted" call.dealRoomId
    [("accrualRootId", .string call.input.accrualRootId),
     ("direction", .string (toString call.input.direction)),
     ("amountMinor", .string (toString plan.amountMinor))]
  return ledgerEntry

/-- The response: the new entry and the balance of the chain it completes. -/
def toLedgerAdjusted (chain : List CommissionAccrual) (ledgerEntry : CommissionAccrual) :
    Except Thrown (CommissionAccrual × AccrualBalance) := do
  let balance ← computeAccrualBalance ((chain ++ [ledgerEntry]).map CommissionAccrual.toLike)
  return (ledgerEntry, balance)

end TolPlatform
