import TolPlatform.Library.LockedCalls
import TolPlatform.Passports.Tables

/-!
# Passports

`apps/api/src/modules/passport/service.ts` (`create`, `upsertFact`, `addEvidence`, `verify` and the
detail reads, which demote a passport whose readiness has aged) and the worker's `passport-readiness`
job, as calls that interleave statement by statement. All but `create` and `addEvidence` take the
advisory lock of the passport's id for their transaction. What they read under it (the passport, its
facts, the evidence these name, its readiness results) is written under it only, or never rewritten, so
such a transaction body is one step.

The API and the worker recompute by the same steps, with a different trail and different input
versions: `recompute` is written once, over a `Recomputer`. A job is delivered at any time, so
`enqueuePassportReadiness` has no counterpart; neither has `list`, which writes nothing. The JSON guards
are parameters.
-/

namespace TolPlatform.Passports

/-! ### Requests -/

structure UpsertFactRequest where
  sectionType : PassportSectionType
  fieldKey : String
  normalizedValue : Option String
  verification : Option FactProvenance
  evidenceId : Option Uuid
  deriving DecidableEq, Repr

structure CreateEvidenceRequest where
  type : EvidenceSourceKind
  objectRef : String
  checksum : Option String
  issuer : Option String
  collectedAt : Instant
  expiresAt : Option Instant
  deriving DecidableEq, Repr

structure VerifyPassportRequest where
  reason : String
  deriving DecidableEq, Repr

/-- What the service takes from outside. -/
structure Env extends Platform where
  /-- Of a JSON text and the name of its column. -/
  assertJsonSerializableValue : Option String → String → Except Thrown Unit
  assertJsonSafeObjectArray : List ReadinessFinding → String → Except Thrown Unit
  assertStringArray : List String → String → Except Thrown Unit

/-- An operation on a passport, with the row that it reads first. -/
structure PassportCall where
  actor : Actor
  context : RequestContext
  passport : Passport
  deriving DecidableEq, Repr

/-! ### Before the transactions -/

def loadPassport (db : Db) (passportId : Uuid) : Except Thrown Passport :=
  orThrow (PassportRepository.findById db passportId) (notFound "Passport not found.")

def requireOnPassport (actor : Actor) (action : Action) (passport : Passport) :
    Except Thrown Unit :=
  requireAllowed (can actor action ⟨.passport, some passport.organizationId⟩)

/-- The organization that `create` goes on with. -/
def precheckCreate (db : Db) (actor : Actor) : Except Thrown Uuid := do
  let organizationId ← orThrow actor.organizationId
    (forbidden "Actor has no active organization membership.")
  requireAllowed (can actor .passportCreate ⟨.passport, some organizationId⟩)
  throwIf (PassportRepository.findByOrganizationId db organizationId ≠ none)
    (conflict "This organization already has a Passport — use the existing one.")
  return organizationId

/-- Evidence that a fact names is evidence of its passport. -/
def precheckEvidence (db : Db) (passportId : Uuid) (evidenceId : Option Uuid) : Except Thrown Unit :=
  match evidenceId with
  | none => .ok ()
  | some id =>
    throwIf ((EvidenceRepository.findById db id).filter (·.passportId = passportId) = none)
      (badRequest "evidenceId does not reference evidence belonging to this Passport.")

def requireReady (passport : Passport) : Except Thrown Unit :=
  throwIf (passport.status ≠ .ready)
    (conflict s!"Passport cannot be verified from its current status ({passport.status}); must be READY.")

/-! ### Recomputing readiness and status -/

def record (f : Trails → Trails) : Tx Db Thrown PUnit :=
  modify fun db : Db ↦ { db with trails := f db.trails }

/-- `READINESS_STALE_AFTER_DAYS`. -/
def readinessStaleAfterDays : ℕ+ := 90

def expiryOf (db : Db) (fact : Fact) : Option Instant :=
  (fact.evidenceId.bind (EvidenceRepository.findById db)).bind (·.expiresAt)

def snapshot (db : Db) (fact : Fact) : FactSnapshot where
  fieldKey := fact.fieldKey
  sectionType := fact.sectionType
  hasValue := fact.normalizedValue ≠ none
  verification := fact.verification
  expiresAt := expiryOf db fact
  updatedAt := fact.updatedAt

def buildSnapshots (db : Db) (facts : List Fact) : List FactSnapshot := facts.map (snapshot db)

/-- Who recomputes. -/
structure Recomputer where
  inputVersion : Db → Instant → Fact → String
  computedTrails : Passport → ReadinessResultShape → Trails → Trails
  movedTrails : Passport → PassportStatus → Trails → Trails

/-- The readiness of a passport's facts. -/
def readinessOf (who : Recomputer) (now : Instant) (db : Db) (passportId : Uuid) :
    Except Thrown ReadinessResultShape :=
  let facts := FactRepository.listByPassport db passportId
  computeReadiness (buildSnapshots db facts) now (facts.map (who.inputVersion db now))

/-- The status that a recompute of a passport's facts calls for. -/
def targetStatus (db : Db) (passport : Passport) (result : ReadinessResultShape) : PassportStatus :=
  targetStatusAfterRecompute passport.status (FactRepository.listByPassport db passport.id ≠ [])
    (isReadinessBlocked result)

def storeReadiness (env : Env) (row : ReadinessResult) : Tx Db Thrown ReadinessResult := do
  Tx.check (env.assertJsonSafeObjectArray row.blockers "ReadinessResult.blockers")
  Tx.check (env.assertJsonSafeObjectArray row.warnings "ReadinessResult.warnings")
  Tx.check (env.assertStringArray row.inputVersions "ReadinessResult.inputVersions")
  readinessResults.insert .uniqueViolation row

def moveTo (who : Recomputer) (passport : Passport) (target : PassportStatus) :
    Tx Db Thrown PUnit :=
  if target ≠ passport.status then do
    Tx.check (assertValidPassportTransition passport.status target)
    let _ ← PassportRepository.updateStatus passport.id target
    record (who.movedTrails passport target)
  else pure ⟨⟩

def recompute (env : Env) (who : Recomputer) (now : Instant) (id : Uuid) (passport : Passport) :
    Tx Db Thrown (ReadinessResult × PassportStatus) := do
  let db ← get
  let result ← Tx.check (readinessOf who now db passport.id)
  let readiness ← storeReadiness env
    { toReadinessResultShape := result, id, passportId := passport.id, computedAt := now }
  record (who.computedTrails passport result)
  moveTo who passport (targetStatus db passport result)
  return (readiness, targetStatus db passport result)

/-! ### The API -/

/-- `recomputeReadinessAndStatus` writes its trail under the user, without a role. -/
def recomputerOf (actor : Actor) (context : RequestContext) : Recomputer where
  inputVersion _ _ fact := s!"fact:{fact.id}:v{fact.version}"
  computedTrails passport result t :=
    let writer : Actor := ⟨actor.userId, some passport.organizationId, none, none⟩
    (t.audit writer context (some passport.organizationId) "passport.readiness_computed" "passport"
      passport.id
      [("score", .decimal result.score), ("blockerCount", .number result.blockers.length),
       ("warningCount", .number result.warnings.length)]).timeline writer context
      "passport.readiness_computed" "passport" passport.id
      [("score", .decimal result.score), ("blockerCount", .number result.blockers.length),
       ("warningCount", .number result.warnings.length),
       ("algorithmVersion", .string result.algorithmVersion)]
  movedTrails passport target t :=
    t.timeline ⟨actor.userId, some passport.organizationId, none, none⟩ context
      "passport.status_changed" "passport" passport.id
      [("from", .string (toString passport.status)), ("to", .string (toString target))]

def recomputeReadinessAndStatus (env : Env) (now : Instant) (id : Uuid) (actor : Actor)
    (context : RequestContext) (passport : Passport) :
    Tx Db Thrown (ReadinessResult × PassportStatus) :=
  recompute env (recomputerOf actor context) now id passport

def createdTrails (actor : Actor) (context : RequestContext) (passport : Passport) (t : Trails) :
    Trails :=
  (t.audit actor context (some passport.organizationId) "passport.created" "passport" passport.id
    [("organizationId", .string passport.organizationId)]).timeline actor context
    "passport.created" "passport" passport.id
    [("organizationId", .string passport.organizationId)]

def createTx (env : Env) (d : Draws) (actor : Actor) (context : RequestContext)
    (organizationId : Uuid) : Tx Db Thrown Passport := do
  let created ← PassportRepository.create { id := d.ids 0, organizationId, createdAt := d.now }
  record (createdTrails actor context created)
  let _ ← recomputeReadinessAndStatus env d.now (d.ids 1) actor context created
  return created

structure UpsertedFact where
  fact : Fact
  readiness : ReadinessResult
  status : PassportStatus
  deriving DecidableEq, Repr

def newFact (d : Draws) (passportId : Uuid) (input : UpsertFactRequest) : Fact where
  id := d.ids 0
  passportId := passportId
  sectionType := input.sectionType
  fieldKey := input.fieldKey
  normalizedValue := input.normalizedValue
  verification := input.verification.getD .selfReported
  evidenceId := input.evidenceId
  updatedAt := d.now

def factTrails (call : PassportCall) (input : UpsertFactRequest) (fact : Fact) (t : Trails) :
    Trails :=
  let updated : List (String × JsonValue) :=
    [("fieldKey", .string input.fieldKey), ("sectionType", .string (toString input.sectionType)),
     ("verification", .string (toString fact.verification))]
  (t.audit call.actor call.context (some call.passport.organizationId) "passport.fact_updated"
    "passport" call.passport.id updated).timeline call.actor call.context "passport.fact_updated"
    "passport" call.passport.id updated

def upsertFactTx (env : Env) (d : Draws) (call : PassportCall) (input : UpsertFactRequest) :
    Tx Db Thrown UpsertedFact := do
  let db ← get
  let freshPassport ← Tx.check (orThrow (PassportRepository.findById db call.passport.id)
    (internal "Passport disappeared mid-transaction."))
  let fact ← FactRepository.upsertByFieldKey env.assertJsonSerializableValue
    (newFact d call.passport.id input)
  record (factTrails call input fact)
  let (readiness, status) ← recomputeReadinessAndStatus env d.now (d.ids 1) call.actor call.context
    freshPassport
  return { fact, readiness, status }

def newEvidence (d : Draws) (passportId : Uuid) (input : CreateEvidenceRequest) : Evidence where
  id := d.ids 0
  passportId := passportId
  type := input.type
  objectRef := input.objectRef
  checksum := input.checksum
  issuer := input.issuer
  collectedAt := input.collectedAt
  expiresAt := input.expiresAt
  createdAt := d.now

def evidenceTrails (call : PassportCall) (row : Evidence) (t : Trails) : Trails :=
  let added : List (String × JsonValue) :=
    [("evidenceId", .string row.id), ("type", .string (toString row.type))]
  (t.audit call.actor call.context (some call.passport.organizationId) "passport.evidence_added"
    "passport" call.passport.id added).timeline call.actor call.context "passport.evidence_added"
    "passport" call.passport.id added

def addEvidenceTx (d : Draws) (call : PassportCall) (input : CreateEvidenceRequest) :
    Tx Db Thrown Evidence := do
  let row ← evidence.insert .uniqueViolation (newEvidence d call.passport.id input)
  record (evidenceTrails call row)
  return row

/-- `reviewerOrgId: actor.organizationId!`: who may verify is in an organization. -/
def verifyTrails (call : PassportCall) (input : VerifyPassportRequest) (t : Trails) : Trails :=
  let reviewer : JsonValue := (call.actor.organizationId.map JsonValue.string).getD .null
  (t.audit call.actor call.context (some call.passport.organizationId) "passport.verified"
    "passport" call.passport.id [("reviewerOrgId", reviewer)]).timeline call.actor call.context
    "passport.verified" "passport" call.passport.id
    [("reviewerOrgId", reviewer), ("reason", .string input.reason)]

def verifyTx (call : PassportCall) (input : VerifyPassportRequest) : Tx Db Thrown Passport := do
  let db ← get
  let fresh ← Tx.check (orThrow (PassportRepository.findById db call.passport.id)
    (internal "Passport disappeared mid-transaction."))
  Tx.check (requireReady fresh)
  Tx.check (assertValidPassportTransition fresh.status .verified)
  let updated ← PassportRepository.updateStatus call.passport.id .verified
  record (verifyTrails call input)
  return updated

/-! ### Detail reads -/

structure PassportDetail where
  passport : Passport
  facts : List Fact
  evidence : List Evidence
  readiness : Option ReadinessResult
  deriving DecidableEq, Repr

/-- A detail read, with the passport and its readiness as they are known so far. -/
structure DetailCall where
  passport : Passport
  now : Instant
  latest : Option ReadinessResult
  deriving DecidableEq, Repr

def isStale (status : PassportStatus) (latest : Option ReadinessResult) (now : Instant) : Bool :=
  isPassportReadinessStale status (latest.map (·.computedAt)) now readinessStaleAfterDays

/-- Under the lock: demote the passport, unless it has changed since. -/
def demoteTx (call : DetailCall) : Tx Db Thrown DetailCall := do
  let db ← get
  match PassportRepository.findById db call.passport.id with
  | none => return call
  | some fresh =>
    let freshReadiness := ReadinessResultRepository.findLatestByPassport db call.passport.id
    let latest := freshReadiness.or call.latest
    if isStale fresh.status freshReadiness call.now then do
      Tx.check (assertValidPassportTransition fresh.status .stale)
      let updated ← PassportRepository.updateStatus call.passport.id .stale
      return { call with
        passport := updated
        latest }
    else
      return { call with
        passport := fresh
        latest }

def detailOf (db : Db) (call : DetailCall) : PassportDetail where
  passport := call.passport
  facts := FactRepository.listByPassport db call.passport.id
  evidence := EvidenceRepository.listByPassport db call.passport.id
  readiness := call.latest

/-! ### The readiness job -/

/-- The worker writes its trail under no actor and no request. -/
def worker : Recomputer where
  inputVersion db now fact :=
    s!"fact:{fact.id}:v{fact.version}:{classifyFactFreshness (expiryOf db fact) now}"
  computedTrails passport result t :=
    { auditEvents := t.auditEvents ++
        [{ actorUserId := none, actorOrgId := none, actorRole := none,
           subjectOrgId := some passport.organizationId, action := "passport.readiness_computed",
           resourceType := "passport", resourceId := some passport.id,
           afterValue :=
             [("score", .decimal result.score), ("blockerCount", .number result.blockers.length),
              ("warningCount", .number result.warnings.length), ("trigger", .string "worker")],
           requestId := none, correlationId := none, ipClass := none, userAgentClass := none }]
      domainEvents := t.domainEvents ++
        [{ eventType := "passport.readiness_computed", aggregateType := "passport",
           aggregateId := passport.id,
           payload :=
             [("score", .decimal result.score), ("blockerCount", .number result.blockers.length),
              ("warningCount", .number result.warnings.length),
              ("algorithmVersion", .string result.algorithmVersion)],
           actorUserId := none, actorOrgId := none, actorRole := none, requestId := none,
           correlationId := none }] }
  movedTrails passport target t :=
    { t with
      domainEvents := t.domainEvents ++
        [{ eventType := "passport.status_changed", aggregateType := "passport",
           aggregateId := passport.id,
           payload :=
             [("from", .string (toString passport.status)), ("to", .string (toString target))],
           actorUserId := none, actorOrgId := none, actorRole := none, requestId := none,
           correlationId := none }] }

def readinessInputVersions (db : Db) (now : Instant) (passportId : Uuid) : List String :=
  (FactRepository.listByPassport db passportId).map (worker.inputVersion db now)

/-- The key is of the status and of the input versions. -/
def readinessInfo (passport : Passport) (inputVersions : List String) : JobIdempotencyInfo :=
  let joined := ",".intercalate inputVersions
  let forKey := if joined = "" then "no-facts" else joined
  let quoted := ",".intercalate (inputVersions.map fun v ↦ s!"\"{v}\"")
  { scope := "worker.passport-readiness"
    key := s!"{passport.id}:{passport.status}:{forKey}"
    requestPayload :=
      s!"\x7b\"passportId\":\"{passport.id}\",\"status\":\"{passport.status}\",\"inputVersions\":[{quoted}]\x7d" }

/-- The idempotent handler. -/
def recomputeHandler (env : Env) (d : Draws) (now : Instant) (passport : Passport) :
    Tx Db Thrown Recomputed := do
  let _ ← recompute env worker now (d.ids 0) passport
  return {}

/-- Under the lock: `now` is the time at which the job was picked up. -/
def recomputePassport (env : Env) (d : Draws) (passportId : Uuid) (now : Instant) :
    Tx Db Thrown (Option Recomputed) := do
  let db ← get
  match PassportRepository.findById db passportId with
  | none => return none
  | some passport =>
    Jobs.inTransaction (Jobs.withJobIdempotency idempotencyKeys env.sha256 d.now (d.ids 1)
      (readinessInfo passport (readinessInputVersions db now passport.id))
      (recomputeHandler env d now passport))

def needsSweepRecompute (status : PassportStatus) (latest : Option ReadinessResult) (now : Instant) :
    Bool :=
  match latest with
  | none => true
  | some latest => status = .stale || isStale status (some latest) now

structure PassportReadinessJobResult where
  scanned : ℕ
  recomputed : ℕ
  deriving DecidableEq, Repr

/-- A job that was picked up at `now`, with the passports that it has yet to look at. -/
structure JobRun where
  now : Instant
  rest : List Passport
  result : PassportReadinessJobResult
  deriving DecidableEq, Repr

/-! ### Calls -/

inductive Request
  | create
  | upsertFact (passportId : Uuid) (input : UpsertFactRequest)
  | addEvidence (passportId : Uuid) (input : CreateEvidenceRequest)
  | verify (passportId : Uuid) (input : VerifyPassportRequest)
  | getById (id : Uuid)
  | getByOrganizationId (organizationId : Uuid)
  deriving DecidableEq, Repr

inductive Response
  | created (passport : Passport)
  | upserted (result : UpsertedFact)
  | added (evidence : Evidence)
  | verified (passport : Passport)
  | detail (detail : PassportDetail)
  deriving DecidableEq, Repr

/-- How far a call, or a job, has got. -/
inductive Local
  | called (actor : Actor) (context : RequestContext) (request : Request)
  | createReady (actor : Actor) (context : RequestContext) (organizationId : Uuid)
  /-- `upsertFact`: the passport is read; the evidence is checked; the lock is taken. -/
  | upsertRead (call : PassportCall) (input : UpsertFactRequest)
  | upsertReady (call : PassportCall) (input : UpsertFactRequest)
  | upsertLocked (call : PassportCall) (input : UpsertFactRequest)
  | addReady (call : PassportCall) (input : CreateEvidenceRequest)
  | verifyReady (call : PassportCall) (input : VerifyPassportRequest)
  | verifyLocked (call : PassportCall) (input : VerifyPassportRequest)
  /-- A detail read: the passport is read; its readiness has aged; the lock is taken; what to answer
  with is known, up to facts and evidence. -/
  | detailRead (passport : Passport)
  | demoteReady (call : DetailCall)
  | demoteLocked (call : DetailCall)
  | detailReady (call : DetailCall)
  /-- The job: delivered, for one passport or as the sweep; about to look at the next passport; to
  recompute one; under its lock. -/
  | delivered (passportId : Option Uuid)
  | sweeping (run : JobRun) (passport : Passport)
  | recomputing (run : JobRun) (passportId : Uuid)
  | recomputeLocked (run : JobRun) (passportId : Uuid)
  | returned (response : Response)
  | finished (result : PassportReadinessJobResult)
  | threw (thrown : Thrown)
  | crashed
  deriving DecidableEq, Repr

/-- The next passport of a job, or its end. -/
def proceed (now : Instant) (result : PassportReadinessJobResult) : List Passport → Local
  | [] => .finished result
  | passport :: rest => .sweeping ⟨now, rest, result⟩ passport

/-- What a delivery looks up, outside any transaction. -/
def pickUp (db : Db) (now : Instant) : Option Uuid → Local
  | some passportId =>
    match PassportRepository.findById db passportId with
    | none => .finished ⟨0, 0⟩
    | some _ => .recomputing ⟨now, [], ⟨1, 0⟩⟩ passportId
  | none =>
    let passports := PassportRepository.list db 500
    proceed now ⟨passports.length, 0⟩ passports

/-- The sweep goes by the status that it has listed. -/
def sweepOne (db : Db) (run : JobRun) (passport : Passport) : Local :=
  let latest := ReadinessResultRepository.findLatestByPassport db passport.id
  if needsSweepRecompute passport.status latest run.now then .recomputing run passport.id
  else proceed run.now run.result run.rest

/-- Once a passport has been dealt with. -/
def afterOne (run : JobRun) : Local :=
  proceed run.now { run.result with recomputed := run.result.recomputed + 1 } run.rest

/-- What a call does first. -/
def enter (db : Db) (actor : Actor) (context : RequestContext) : Request → Except Thrown Local
  | .create => do
    let organizationId ← precheckCreate db actor
    return .createReady actor context organizationId
  | .upsertFact passportId input => do
    let passport ← loadPassport db passportId
    requireOnPassport actor .passportUpdate passport
    return .upsertRead ⟨actor, context, passport⟩ input
  | .addEvidence passportId input => do
    let passport ← loadPassport db passportId
    requireOnPassport actor .passportUpdate passport
    return .addReady ⟨actor, context, passport⟩ input
  | .verify passportId input => do
    let passport ← loadPassport db passportId
    requireOnPassport actor .passportVerify passport
    requireReady passport
    return .verifyReady ⟨actor, context, passport⟩ input
  | .getById id => do
    let passport ← loadPassport db id
    requireOnPassport actor .passportRead passport
    return .detailRead passport
  | .getByOrganizationId organizationId => do
    let passport ← orThrow (PassportRepository.findByOrganizationId db organizationId)
      (notFound "No Passport exists yet for this organization.")
    requireOnPassport actor .passportRead passport
    return .detailRead passport

/-- What a detail read makes of the latest readiness result. -/
def checkAge (db : Db) (now : Instant) (passport : Passport) : Local :=
  let latest := ReadinessResultRepository.findLatestByPassport db passport.id
  if isStale passport.status latest now then .demoteReady ⟨passport, now, latest⟩
  else .detailReady ⟨passport, now, latest⟩

def calls (env : Env) : CallSystem Db Thrown Int Draws Local where
  next d
    | .called actor context request => .query fun db ↦ enter db actor context request
    | .createReady actor context organizationId =>
      .commit ((fun passport ↦ .returned (.created passport)) <$>
        createTx env d actor context organizationId)
    | .upsertRead call input => .query fun db ↦ do
      precheckEvidence db call.passport.id input.evidenceId
      return .upsertReady call input
    | .upsertReady call input => .lock (env.hashtext call.passport.id) (.upsertLocked call input)
    | .upsertLocked call input =>
      .commit ((fun result ↦ .returned (.upserted result)) <$> upsertFactTx env d call input)
    | .addReady call input =>
      .commit ((fun row ↦ .returned (.added row)) <$> addEvidenceTx d call input)
    | .verifyReady call input => .lock (env.hashtext call.passport.id) (.verifyLocked call input)
    | .verifyLocked call input =>
      .commit ((fun passport ↦ .returned (.verified passport)) <$> verifyTx call input)
    | .detailRead passport => .query fun db ↦ .ok (checkAge db d.now passport)
    | .demoteReady call => .lock (env.hashtext call.passport.id) (.demoteLocked call)
    | .demoteLocked call => .commit (.detailReady <$> demoteTx call)
    | .detailReady call => .query fun db ↦ .ok (.returned (.detail (detailOf db call)))
    | .delivered passportId => .query fun db ↦ .ok (pickUp db d.now passportId)
    | .sweeping run passport => .query fun db ↦ .ok (sweepOne db run passport)
    | .recomputing run passportId => .lock (env.hashtext passportId) (.recomputeLocked run passportId)
    | .recomputeLocked run passportId =>
      .commit ((fun _ ↦ afterOne run) <$> recomputePassport env d passportId run.now)
    | .returned _ | .finished _ | .threw _ | .crashed => .stop
  ended
    | .returned _ | .finished _ | .threw _ | .crashed => true
    | _ => false
  failed := .threw
  crashed := .crashed

/-- A configuration of passports and of any number of calls. -/
abbrev Config (Pid : Type) := PartySystem.Config Pid (CallSystem.Shared Db Int Pid) Local

end TolPlatform.Passports
