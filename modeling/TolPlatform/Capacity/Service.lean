import TolPlatform.Capacity.Tables
import TolPlatform.Domain.Money
import TolPlatform.Library.LockedCalls

/-!
# Capacity profiles and their freshness

`create` of `apps/api/src/modules/capacity/service.ts` and the worker's `capacity-freshness` job
(`apps/worker/src/jobs/capacity-freshness.job.ts`), as calls that interleave statement by statement. The
job takes the advisory lock of a profile's id for each recomputation and reads the profile under it, so
such a transaction body is one step; the time it classifies at was read when it was picked up.

The API has no update of a profile yet. The job is written for one, so profiles are updated here by any
write of the columns that it reads, at any time and under no lock. The JSON guards pass every value of
these types. A job is delivered at any time, so `enqueueCapacityFreshness` has no counterpart; neither
have the two reads of the service, which write nothing.
-/

namespace TolPlatform.Capacity

/-! ### Requests -/

structure CreateCapacityProfileRequest where
  acceptingNewVolume : Option Bool := none
  jurisdictions : Option (List String) := none
  mccsAccepted : Option (List String) := none
  mccsExcluded : Option (List String) := none
  currency : String
  monthlyCapacityMinor : Option String := none
  minTicketMinor : Option Int := none
  maxTicketMinor : Option Int := none
  maxChargebackBps : Option Int := none
  maxFraudBps : Option Int := none
  maxRefundBps : Option Int := none
  settlementRail : String
  settlementCadenceDays : Option Int := none
  commercialTerms : Option (List (String × JsonValue)) := none
  deriving DecidableEq, Repr

/-- A `create` once it is allowed and its amount is parsed. -/
structure CreateCall where
  actor : Actor
  context : RequestContext
  organizationId : Uuid
  monthlyCapacityMinor : Int
  now : Instant
  input : CreateCapacityProfileRequest
  deriving DecidableEq, Repr

/-- The columns of a profile that the job reads. -/
structure ProfileUpdate where
  asOf : Instant
  sourceType : SourceType
  freshnessClass : FreshnessClass
  deriving DecidableEq, Repr

/-! ### `create` -/

def precheckCreate (actor : Actor) (context : RequestContext) (now : Instant)
    (input : CreateCapacityProfileRequest) : Except Thrown CreateCall := do
  let organizationId ← orThrow actor.organizationId
    (forbidden "Actor has no active organization membership.")
  requireAllowed (can actor .capacityCreate ⟨.capacityProfile, some organizationId⟩)
  let monthlyCapacityMinor ← parseBigIntMinorUnits input.monthlyCapacityMinor "monthlyCapacityMinor"
  return { actor, context, organizationId, monthlyCapacityMinor, now, input }

def newProfile (d : Draws) (call : CreateCall) : CapacityProfile where
  id := d.ids 0
  providerOrgId := call.organizationId
  asOf := call.now
  freshnessClass := classifyCapacityFreshness call.now .platform call.now
  acceptingNewVolume := call.input.acceptingNewVolume.getD true
  jurisdictions := call.input.jurisdictions.getD []
  mccsAccepted := call.input.mccsAccepted.getD []
  mccsExcluded := call.input.mccsExcluded.getD []
  currency := call.input.currency
  monthlyCapacityMinor := call.monthlyCapacityMinor
  minTicketMinor := call.input.minTicketMinor.getD 0
  maxTicketMinor := call.input.maxTicketMinor.getD 0
  maxChargebackBps := call.input.maxChargebackBps.getD 0
  maxFraudBps := call.input.maxFraudBps.getD 0
  maxRefundBps := call.input.maxRefundBps.getD 0
  settlementRail := call.input.settlementRail
  settlementCadenceDays := call.input.settlementCadenceDays.getD 1
  commercialTerms := call.input.commercialTerms
  createdAt := d.now

def record (f : Trails → Trails) : Tx Db Thrown PUnit :=
  modify fun db : Db ↦ { db with trails := f db.trails }

def createTx (d : Draws) (call : CreateCall) : Tx Db Thrown CapacityProfile := do
  let created ← profiles.insert .uniqueViolation (newProfile d call)
  record fun t ↦ t.audit call.actor call.context (some call.organizationId)
    "capacity_profile.created" "capacity_profile" created.id
    [("freshnessClass", .string (toString created.freshnessClass)),
     ("currency", .string created.currency)]
  return created

/-! ### Updates -/

def ProfileUpdate.apply (update : ProfileUpdate) (p : CapacityProfile) : CapacityProfile :=
  { p with
    asOf := update.asOf, sourceType := update.sourceType, freshnessClass := update.freshnessClass
    version := p.version + 1 }

def updateTx (profileId : Uuid) (update : ProfileUpdate) : Tx Db Thrown CapacityProfile :=
  profiles.update .recordNotFound profileId update.apply

/-! ### The job -/

inductive Trigger
  | event | sweep
  deriving DecidableEq, Repr

instance : ToString Trigger where
  toString
    | .event => "event"
    | .sweep => "sweep"

/-- The key names the profile, what it was confirmed as of, and the class that it moves to. -/
def freshnessInfo (env : Platform) (profile : CapacityProfile) (newFreshnessClass : FreshnessClass) :
    JobIdempotencyInfo :=
  let asOf := env.toISOString profile.asOf
  { scope := "worker.capacity-freshness"
    key := s!"{profile.id}:{asOf}:{newFreshnessClass}"
    requestPayload :=
      s!"\x7b\"profileId\":\"{profile.id}\",\"asOf\":\"{asOf}\",\"newFreshnessClass\":\"{newFreshnessClass}\"\x7d" }

/-- `capacity_profile.freshness_recomputed`, under no actor. -/
def recomputedEvent (profile : CapacityProfile) (newFreshnessClass : FreshnessClass)
    (trigger : Trigger) : DomainEvent where
  eventType := "capacity_profile.freshness_recomputed"
  aggregateType := "capacity_profile"
  aggregateId := profile.id
  payload :=
    [("providerOrgId", .string profile.providerOrgId),
     ("previousFreshnessClass", .string (toString profile.freshnessClass)),
     ("newFreshnessClass", .string (toString newFreshnessClass)),
     ("trigger", .string (toString trigger))]
  actorUserId := none
  actorOrgId := none
  actorRole := none
  requestId := none
  correlationId := none

/-- The idempotent handler. -/
def reclassifyHandler (profile : CapacityProfile) (newFreshnessClass : FreshnessClass)
    (trigger : Trigger) : Tx Db Thrown Reclassified := do
  let _ ← CapacityProfileRepository.updateFreshnessClass profile.id newFreshnessClass
  record fun t ↦
    { t with domainEvents := t.domainEvents ++ [recomputedEvent profile newFreshnessClass trigger] }
  return {}

/-- Under the lock: `now` is the time at which the job was picked up. -/
def recomputeOne (env : Platform) (d : Draws) (profileId : Uuid) (now : Instant) (trigger : Trigger) :
    Tx Db Thrown Bool := do
  let db ← get
  match CapacityProfileRepository.findById db profileId with
  | none => return false
  | some fresh =>
    let newFreshnessClass := classifyCapacityFreshness fresh.asOf fresh.sourceType now
    if newFreshnessClass = fresh.freshnessClass then return false
    else
      -- `true` whether the handler ran or an earlier record answered for it
      (fun _ ↦ true) <$> Jobs.inTransaction (Jobs.withJobIdempotency idempotencyKeys env.sha256 d.now
        (d.ids 0) (freshnessInfo env fresh newFreshnessClass)
        (reclassifyHandler fresh newFreshnessClass trigger))

structure CapacityFreshnessJobResult where
  scanned : ℕ
  reclassified : ℕ
  deriving DecidableEq, Repr

/-- A job that was picked up at `now`, with the profiles that it has yet to recompute. -/
structure JobRun where
  now : Instant
  trigger : Trigger
  rest : List Uuid
  result : CapacityFreshnessJobResult
  deriving DecidableEq, Repr

/-! ### Calls -/

/-- How far a call, an update or a job has got. -/
inductive Local
  | called (actor : Actor) (context : RequestContext) (input : CreateCapacityProfileRequest)
  | createReady (call : CreateCall)
  | updating (profileId : Uuid) (update : ProfileUpdate)
  /-- The job: delivered, for one profile or as the sweep; about to recompute one; under its lock. -/
  | delivered (profileId : Option Uuid)
  | recomputing (run : JobRun) (profileId : Uuid)
  | recomputeLocked (run : JobRun) (profileId : Uuid)
  | created (profile : CapacityProfile)
  | updated (profile : CapacityProfile)
  | finished (result : CapacityFreshnessJobResult)
  | threw (thrown : Thrown)
  | crashed
  deriving DecidableEq, Repr

/-- The next profile of a job, or its end. -/
def proceed (run : JobRun) : Local :=
  match run.rest with
  | [] => .finished run.result
  | profileId :: rest => .recomputing { run with rest } profileId

/-- What a delivery looks up, outside any transaction. -/
def pickUp (db : Db) (now : Instant) : Option Uuid → Local
  | some profileId =>
    match CapacityProfileRepository.findById db profileId with
    | none => .finished ⟨0, 0⟩
    | some _ => .recomputing ⟨now, .event, [], ⟨1, 0⟩⟩ profileId
  | none =>
    -- the sweep takes one page
    let profiles := CapacityProfileRepository.list db 500
    proceed ⟨now, .sweep, profiles.map CapacityProfile.id, ⟨profiles.length, 0⟩⟩

/-- Once a profile has been recomputed. -/
def afterOne (run : JobRun) (changed : Bool) : Local :=
  proceed { run with
    result := { run.result with reclassified := run.result.reclassified + changed.toNat } }

def calls (env : Platform) : CallSystem Db Thrown Int Draws Local where
  next d
    | .called actor context input => .query fun _ ↦
      .createReady <$> precheckCreate actor context d.now input
    | .createReady call => .commit (.created <$> createTx d call)
    | .updating profileId update => .commit (.updated <$> updateTx profileId update)
    | .delivered profileId => .query fun db ↦ .ok (pickUp db d.now profileId)
    | .recomputing run profileId => .lock (env.hashtext profileId) (.recomputeLocked run profileId)
    | .recomputeLocked run profileId =>
      .commit (afterOne run <$> recomputeOne env d profileId run.now run.trigger)
    | .created _ | .updated _ | .finished _ | .threw _ | .crashed => .stop
  ended
    | .created _ | .updated _ | .finished _ | .threw _ | .crashed => true
    | _ => false
  failed := .threw
  crashed := .crashed

/-- A configuration of profiles and of any number of calls. -/
abbrev Config (Pid : Type) := PartySystem.Config Pid (CallSystem.Shared Db Int Pid) Local

end TolPlatform.Capacity
