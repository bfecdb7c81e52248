import TolPlatform.Economics.Service
import TolPlatform.Shared.JobIdempotency

/-!
# The economics-accrual job

`apps/worker/src/jobs/economics-accrual.job.ts` with `shared/job-idempotency.ts`. After a look
outside any transaction (`jobEventExists`) the job opens one, takes the lock on the revenue event,
reads what it needs (`clearJob`) and then computes and writes the accruals under its idempotency key
(`commitJob`).

`withJobIdempotency` swallows a unique violation of its own bookkeeping. The database does not: the
statement that failed has aborted the transaction, so what the job wrote is rolled back while its
result is returned. `JobOutcome.aborted` keeps track of that.
-/

namespace TolPlatform

/-! ### Job idempotency -/

/-- What the transaction ends with: the result to return, and whether the transaction is aborted. -/
structure JobOutcome where
  result : Option EconomicsAccrualJobResult
  aborted : Bool
  deriving DecidableEq, Repr

/-- `try { … } catch (err) { if (err.code !== "P2002") throw err; }`: whether it was caught. -/
def catchUniqueViolation (body : Tx Db Thrown PUnit) : Tx Db Thrown Bool := fun db ↦
  match body db with
  | .ok (_, db') => .ok (false, db')
  | .error .uniqueViolation => .ok (true, db)
  | .error thrown => .error thrown

/-- Run the handler, then record its result under the key. -/
def runAndRecord (e : Draws) (keyId : Uuid) (info : JobIdempotencyInfo) (requestHash : String)
    (handler : Tx Db Thrown EconomicsAccrualJobResult) : Tx Db Thrown JobOutcome := do
  let result ← handler
  let aborted ← catchUniqueViolation do
    let reservation ← IdempotencyRepository.reserve Db.jobKeys keyId
      { key := info.key, scope := info.scope, requestHash, organizationId := none, userId := none,
        expiresAt := e.now + jobIdempotencyTtlMs }
    let _ ← IdempotencyRepository.complete Db.jobKeys reservation.id 200 (some result)
  return { result := some result, aborted }

/-- A completed record answers; otherwise the handler runs. -/
def withJobIdempotency (P : Platform) (e : Draws) (keyId : Uuid) (info : JobIdempotencyInfo)
    (handler : Tx Db Thrown EconomicsAccrualJobResult) : Tx Db Thrown JobOutcome := do
  let requestHash := P.sha256 info.requestPayload
  let db ← get
  match (IdempotencyRepository.find Db.jobKeys db info.scope info.key).filter
      (·.responseStatus ≠ none) with
  | some existing => do
    Tx.check (throwIf (existing.requestHash ≠ requestHash)
      (jobIdempotencyConflictError info.scope info.key))
    return { result := existing.responseBody, aborted := false }
  | none => runAndRecord e keyId info requestHash handler

/-! ### The job -/

/-- What the job has read under its lock. -/
structure JobPlan where
  revenueEvent : RevenueEvent
  dealRoom : DealRoom
  schedule : CommissionSchedule
  deriving DecidableEq, Repr

def skippedNoActiveSchedule : EconomicsAccrualJobResult :=
  { status := .skippedNoActiveSchedule, entryCount := 0 }

/-- The look outside the transaction. -/
def jobEventExists (db : Db) (revenueEventId : Uuid) : Bool :=
  (RevenueEventRepository.findById db revenueEventId).isSome

/-- The reads under the lock: either there is nothing to do, or the job goes on. -/
def clearJob (db : Db) (revenueEventId : Uuid) :
    Except Thrown (EconomicsAccrualJobResult ⊕ JobPlan) :=
  match RevenueEventRepository.findById db revenueEventId with
  | none => .ok (.inl skippedNoActiveSchedule)
  | some revenueEvent =>
    let existingEntries := CommissionAccrualRepository.listByRevenueEvent db revenueEventId
    if 0 < existingEntries.length then
      .ok (.inl { status := .alreadyAccrued, entryCount := existingEntries.length })
    else match DealRoomRepository.findById db revenueEvent.dealRoomId with
      | none => .error (.error s!"economics-accrual: RevenueEvent {revenueEventId} references DealRoom {revenueEvent.dealRoomId}, which does not exist — data integrity issue, not a retryable transient failure")
      | some dealRoom =>
        match CommissionScheduleRepository.findById db revenueEvent.scheduleId with
        | none => .ok (.inl skippedNoActiveSchedule)
        | some schedule =>
          if schedule.status ≠ .active then .ok (.inl skippedNoActiveSchedule)
          else .ok (.inr { revenueEvent, dealRoom, schedule })

/-- The job wraps an engine invariant in an error of its own. -/
def splitOrError (revenueEventId : Uuid) (input : ComputeCommissionSplitsInput) :
    Except Thrown ComputeCommissionSplitsResult :=
  match computeCommissionSplits input with
  | .error (.economicsInvariant message) => .error (.error s!"economics-accrual: cannot compute the commission split for RevenueEvent {revenueEventId}: {message}")
  | r => r

/-- The idempotent handler: the same split as the service's, of the recorded event. -/
def accrueEvent (e : Draws) (plan : JobPlan) : Tx Db Thrown EconomicsAccrualJobResult := do
  let { revenueEvent, dealRoom, schedule } := plan
  let db ← get
  let components := targetedComponents db schedule revenueEvent.basis
  Tx.check (throwIf (components.length = 0) (.error s!"economics-accrual: schedule {schedule.id} has zero components covering basis \"{revenueEvent.basis}\" — same misconfiguration apps/api's synchronous path would also reject; this RevenueEvent was recorded against a schedule that cannot actually split it"))
  let split ← Tx.check (splitOrError revenueEvent.id
    { netDistributableMinor := revenueEvent.netDistributableMinor, components,
      scheduleId := schedule.id, scheduleVersion := schedule.versionNumber,
      now := revenueEvent.recognizedAt })
  let ledgerEntries ← CommissionAccrualRepository.createMany e.now (fun n ↦ e.ids (n + 1))
    (split.entries.map (accrualInput revenueEvent schedule split none none))
  AuditRepository.write
    { actorUserId := none, actorOrgId := none, actorRole := none,
      subjectOrgId := some dealRoom.merchantOrgId, action := "commission.accrued",
      resourceType := "revenue_event", resourceId := some revenueEvent.id,
      afterValue := [("dealRoomId", .string revenueEvent.dealRoomId),
        ("netDistributableMinor", .string (toString revenueEvent.netDistributableMinor)),
        ("entryCount", .number ledgerEntries.length),
        ("calculationVersion", .string split.calculationVersion),
        ("trigger", .string "worker_reconciliation")],
      requestId := none, correlationId := none, ipClass := none, userAgentClass := none }
  DomainEventRepository.write
    { eventType := "commission.accrued", aggregateType := "deal_room",
      aggregateId := revenueEvent.dealRoomId,
      payload := [("revenueEventId", .string revenueEvent.id),
        ("scheduleId", .string schedule.id),
        ("netDistributableMinor", .string (toString revenueEvent.netDistributableMinor)),
        ("entryCount", .number ledgerEntries.length)],
      actorUserId := none, actorOrgId := none, actorRole := none, requestId := none,
      correlationId := none }
  return { status := .accrued, entryCount := ledgerEntries.length }

/-- `JSON.stringify({ revenueEventId, scheduleId, scheduleVersion })`. -/
def jobRequestPayload (plan : JobPlan) : String :=
  s!"\x7b\"revenueEventId\":\"{plan.revenueEvent.id}\",\"scheduleId\":\"{plan.schedule.id}\",\"scheduleVersion\":{plan.schedule.versionNumber}\x7d"

def commitJob (P : Platform) (e : Draws) (plan : JobPlan) : Tx Db Thrown JobOutcome :=
  withJobIdempotency P e (e.ids 0)
    { scope := "worker.economics-accrual", key := plan.revenueEvent.id,
      requestPayload := jobRequestPayload plan }
    (accrueEvent e plan)

end TolPlatform
