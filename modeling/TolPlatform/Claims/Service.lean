import TolPlatform.Domain.StateMachines
import TolPlatform.Library.LockedCalls
import TolPlatform.Library.Table
import TolPlatform.Shared.Support

/-!
# Claims

The mutations of `apps/api/src/modules/claims/service.ts`: `create`, `fileDispute` and `decide`, with
the tables and repositories they go through, as calls that interleave statement by statement. The
pre-checks read outside any lock, one statement a step; `fileDispute` and `decide` then take the
advisory lock of the claim's id, read again under it and commit. `create` takes no lock.

The score is a parameter (`Env.scoreClaim`: a pure function over doubles, whose finite values are
rationals), and so is the JSON guard on dispute evidence, whose free-form part is kept as text. Base
audit columns that nothing here reads, and `reason` of the audit rows, are left out.
-/

namespace TolPlatform.Claims

/-! ### Vocabulary -/

inductive DirectnessTier
  | d5 | d4 | d3 | d2 | d1 | d0
  deriving DecidableEq, Repr

instance : ToString DirectnessTier where
  toString
    | .d5 => "D5"
    | .d4 => "D4"
    | .d3 => "D3"
    | .d2 => "D2"
    | .d1 => "D1"
    | .d0 => "D0"

inductive ClaimEvidenceType
  | contract | counterpartyAcknowledgment | emailThread | crmRecord | other
  deriving DecidableEq, Repr

inductive EvidenceVerificationState
  | selfReported | documentExtracted | apiVerified | counterpartyConfirmed | operatorVerified
  deriving DecidableEq, Repr

instance : ToString ClaimDecisionOutcome where
  toString outcome := toString outcome.toStatus

instance : ToString ClaimDisputeResolution where
  toString
    | .upheldOriginal => "UPHELD_ORIGINAL"
    | .partialAttribution => "PARTIAL_ATTRIBUTION"
    | .rejectedOriginal => "REJECTED_ORIGINAL"

def disputeResolutionFor : ClaimDecisionOutcome → ClaimDisputeResolution
  | .verified => .upheldOriginal
  | .partial_ => .partialAttribution
  | .rejected => .rejectedOriginal

def decisionEventType : ClaimDecisionOutcome → String
  | .verified => "claim.verified"
  | .partial_ => "claim.partial"
  | .rejected => "claim.rejected"

/-- `PROVISIONAL_WINDOW_DAYS`, in milliseconds. -/
def provisionalWindowMs : Int := 30 * 24 * 60 * 60 * 1000

/-! ### Scores -/

structure ClaimEvidenceInput where
  evidenceType : ClaimEvidenceType
  verificationState : EvidenceVerificationState
  deriving DecidableEq, Repr

structure ClaimScoringInput where
  priorCommercialHistoryMonths : Int
  directnessTier : DirectnessTier
  evidenceItems : List ClaimEvidenceInput
  submissionLagDays : Int
  inputVersions : List String
  deriving DecidableEq, Repr

structure ClaimEvidenceContribution where
  index : ℕ
  evidenceType : ClaimEvidenceType
  verificationState : EvidenceVerificationState
  basePoints : Rat
  multiplier : Rat
  contribution : Rat
  deriving DecidableEq, Repr

structure ClaimScoreBreakdown where
  history : Rat
  proximity : Rat
  evidence : Rat
  time : Rat
  weighted : Rat
  total : Rat
  cappedFrom : Option Rat := none
  evidenceRawTotal : Option Rat := none
  evidenceBreakdown : List ClaimEvidenceContribution
  algorithmVersion : String
  inputVersions : List String
  deriving DecidableEq, Repr

/-! ### Requests -/

structure ClaimScope where
  geography : Option String := none
  channel : Option String := none
  product : Option String := none
  programId : Option String := none
  deriving DecidableEq, Repr

structure ClaimEvidenceItemInput where
  evidenceType : ClaimEvidenceType
  assertedFact : String
  verificationState : Option EvidenceVerificationState := none
  evidenceRef : Option String := none
  deriving DecidableEq, Repr

structure CreateClaimRequest where
  subjectOrgId : Uuid
  relationshipType : String
  directnessTier : DirectnessTier
  opportunityId : Option Uuid := none
  claimScope : Option ClaimScope := none
  priorCommercialHistoryMonths : Int
  submissionLagDays : Int
  evidenceItems : List ClaimEvidenceItemInput
  deriving DecidableEq, Repr

/-- `rest` is what the schema's `catchall` admits, as JSON text. -/
structure ClaimDisputeEvidenceItem where
  evidenceType : Option String := none
  note : String
  rest : String := ""
  deriving DecidableEq, Repr

structure FileClaimDisputeRequest where
  basis : String
  evidence : Option (List ClaimDisputeEvidenceItem) := none
  deriving DecidableEq, Repr

structure DecideClaimRequest where
  decision : ClaimDecisionOutcome
  reason : String
  deriving DecidableEq, Repr

/-- What the service takes from outside. -/
structure Env where
  hashtext : String → Int
  scoreClaim : ClaimScoringInput → Except Thrown ClaimScoreBreakdown
  assertJsonSafeObjectArray : List ClaimDisputeEvidenceItem → Except Thrown Unit

/-! ### Tables -/

structure Claim where
  id : Uuid
  claimantOrgId : Uuid
  claimantUserId : Uuid
  subjectOrgId : Uuid
  relationshipType : String
  directnessTier : DirectnessTier
  opportunityId : Option Uuid
  claimScope : ClaimScope
  status : ClaimStatus
  priorCommercialHistoryMonths : Int
  submissionLagDays : Int
  scoreBreakdown : Option ClaimScoreBreakdown := none
  scoreTotal : Option Rat := none
  algorithmVersion : Option String := none
  inputVersions : List String := []
  scoredAt : Option Instant := none
  provisionalExpiresAt : Option Instant := none
  createdAt : Instant
  deriving DecidableEq, Repr

structure ClaimEvidence where
  id : Uuid
  claimId : Uuid
  evidenceType : ClaimEvidenceType
  assertedFact : String
  verificationState : EvidenceVerificationState
  evidenceRef : Option String
  deriving DecidableEq, Repr

structure ClaimDecision where
  id : Uuid
  claimId : Uuid
  disputeId : Option Uuid
  decision : ClaimDecisionOutcome
  scoreBreakdown : ClaimScoreBreakdown
  algorithmVersion : String
  ruleVersion : String := "attribution-rules-v1"
  reviewerUserId : Uuid
  reviewerOrgId : Uuid
  reason : String
  effectiveFrom : Instant
  deriving DecidableEq, Repr

structure ClaimDispute where
  id : Uuid
  claimId : Uuid
  challengerOrgId : Uuid
  challengerUserId : Uuid
  basis : String
  evidence : List ClaimDisputeEvidenceItem
  status : ClaimDisputeStatus := .open_
  resolution : Option ClaimDisputeResolution := none
  deriving DecidableEq, Repr

structure Db where
  organizations : List Uuid
  opportunities : List Uuid
  claims : List Claim := []
  claimEvidence : List ClaimEvidence := []
  claimDecisions : List ClaimDecision := []
  claimDisputes : List ClaimDispute := []
  trails : Trails := {}
  deriving DecidableEq, Repr

def claims : Table Db Claim Uuid where
  rows := Db.claims
  put l db := { db with claims := l }
  key := Claim.id

def claimEvidence : Table Db ClaimEvidence Uuid where
  rows := Db.claimEvidence
  put l db := { db with claimEvidence := l }
  key := ClaimEvidence.id

def claimDecisions : Table Db ClaimDecision Uuid where
  rows := Db.claimDecisions
  put l db := { db with claimDecisions := l }
  key := ClaimDecision.id

def claimDisputes : Table Db ClaimDispute Uuid where
  rows := Db.claimDisputes
  put l db := { db with claimDisputes := l }
  key := ClaimDispute.id

/-! ### Repositories -/

namespace ClaimRepository

def findById (db : Db) (id : Uuid) : Option Claim := db.claims.find? (·.id = id)

/-- Competing claims, oldest first; `take: 500`. -/
def listBySubject (db : Db) (subjectOrgId : Uuid) (opportunityId : Option Uuid) : List Claim :=
  ((db.claims.filter fun c ↦ c.subjectOrgId = subjectOrgId ∧ c.opportunityId = opportunityId).mergeSort
    fun a b ↦ decide (a.createdAt ≤ b.createdAt)).take 500

def create (row : Claim) : Tx Db Thrown Claim := claims.insert .uniqueViolation row

def scored (breakdown : ClaimScoreBreakdown) (scoredAt : Instant) (c : Claim) : Claim :=
  { c with
    status := .scored
    scoreBreakdown := some breakdown
    scoreTotal := some breakdown.total
    algorithmVersion := some breakdown.algorithmVersion
    inputVersions := breakdown.inputVersions
    scoredAt := some scoredAt
    provisionalExpiresAt := some (scoredAt + provisionalWindowMs) }

def markScored (id : Uuid) (breakdown : ClaimScoreBreakdown) (scoredAt : Instant) :
    Tx Db Thrown Claim :=
  claims.update .recordNotFound id (scored breakdown scoredAt)

def setStatus (status : ClaimStatus) (c : Claim) : Claim := { c with status }

@[simp] theorem setStatus_id (status : ClaimStatus) (c : Claim) : (setStatus status c).id = c.id :=
  rfl

def updateStatus (id : Uuid) (status : ClaimStatus) : Tx Db Thrown Claim :=
  claims.update .recordNotFound id (setStatus status)

end ClaimRepository

namespace ClaimDisputeRepository

def findOpenByClaim (db : Db) (claimId : Uuid) : Option ClaimDispute :=
  db.claimDisputes.find? fun dispute ↦ dispute.claimId = claimId ∧ dispute.status = .open_

def create (env : Env) (row : ClaimDispute) : Tx Db Thrown ClaimDispute := do
  Tx.check (env.assertJsonSafeObjectArray row.evidence)
  claimDisputes.insert .uniqueViolation row

def decidedAs (resolution : ClaimDisputeResolution) (dispute : ClaimDispute) : ClaimDispute :=
  { dispute with status := .decided, resolution := some resolution }

def markDecided (id : Uuid) (resolution : ClaimDisputeResolution) : Tx Db Thrown ClaimDispute :=
  claimDisputes.update .recordNotFound id (decidedAs resolution)

end ClaimDisputeRepository

/-! ### Before the transactions -/

/-- The arguments of `fileDispute`, with the organization the actor acts for. -/
structure DisputeCall where
  actor : Actor
  organizationId : Uuid
  claimId : Uuid
  input : FileClaimDisputeRequest
  context : RequestContext
  deriving DecidableEq, Repr

structure DecideCall where
  actor : Actor
  claimId : Uuid
  input : DecideClaimRequest
  context : RequestContext
  deriving DecidableEq, Repr

def activeOrganization (actor : Actor) : Except Thrown Uuid :=
  orThrow actor.organizationId (forbidden "No active organization membership.")

def loadClaim (db : Db) (claimId : Uuid) : Except Thrown Claim :=
  orThrow (ClaimRepository.findById db claimId) (notFound "Claim not found.")

/-- The checks of `create`. The two look-ups read rows that nothing here writes. -/
def assertCreatable (db : Db) (actor : Actor) (input : CreateClaimRequest) : Except Thrown Uuid := do
  let organizationId ← activeOrganization actor
  requireAllowed (can actor .claimCreate ⟨.claim, some organizationId⟩)
  throwIf (input.subjectOrgId ∉ db.organizations)
    (badRequest "subjectOrgId does not reference a real organization.")
  throwIf (∃ id ∈ input.opportunityId, id ∉ db.opportunities)
    (badRequest "opportunityId does not reference a real opportunity.")
  return organizationId

def scoringInput (claimId : Uuid) (input : CreateClaimRequest) : ClaimScoringInput where
  priorCommercialHistoryMonths := input.priorCommercialHistoryMonths
  directnessTier := input.directnessTier
  evidenceItems := input.evidenceItems.map fun item ↦
    ⟨item.evidenceType, item.verificationState.getD .selfReported⟩
  submissionLagDays := input.submissionLagDays
  inputVersions := [s!"claim-scoring-input:{claimId}:v1"]

/-- The first look-up of `fileDispute`. -/
def loadDisputable (db : Db) (call : DisputeCall) : Except Thrown Claim := do
  let claim ← loadClaim db call.claimId
  throwIf (claim.claimantOrgId = call.organizationId)
    (badRequest "Cannot dispute your own claim — withdraw it instead.")
  return claim

def computeDisputeStanding (db : Db) (challengerOrgId : Uuid) (claim : Claim) : Bool :=
  claim.subjectOrgId = challengerOrgId ||
    (ClaimRepository.listBySubject db claim.subjectOrgId claim.opportunityId).any fun c ↦
      c.claimantOrgId = challengerOrgId ∧ c.id ≠ claim.id

def requireStanding (db : Db) (call : DisputeCall) (claim : Claim) : Except Thrown Unit :=
  requireAllowed (can call.actor .claimDispute ⟨.claim, some claim.claimantOrgId⟩
    { isParticipant := computeDisputeStanding db call.organizationId claim })

/-- The open-dispute check runs before the transition assertion, for the better message. -/
def assertDisputable (db : Db) (claim : Claim) : Except Thrown Unit := do
  throwIf ((ClaimDisputeRepository.findOpenByClaim db claim.id).isSome)
    (conflict "This claim already has an open dispute.")
  assertValidClaimTransition claim.status .disputed

/-- `SCORED` or `DISPUTED`, with an edge to the outcome and a score to copy. -/
def assertDecidable (claim : Claim) (decision : ClaimDecisionOutcome) (hint suffix : String) :
    Except Thrown (ClaimScoreBreakdown × String) := do
  throwIf (claim.status ≠ .scored ∧ claim.status ≠ .disputed)
    (conflict s!"Claim cannot be decided from its current status ({claim.status}){hint}.")
  assertValidClaimTransition claim.status decision.toStatus
  orThrow (claim.scoreBreakdown.bind fun b ↦ (claim.algorithmVersion.filter (· ≠ "")).map (b, ·))
    (internal s!"Claim has no scoreBreakdown/algorithmVersion to snapshot{suffix}.")

/-- The checks of `decide`, the self-certification guard among them. -/
def precheckDecision (db : Db) (call : DecideCall) : Except Thrown Unit := do
  let claim ← loadClaim db call.claimId
  requireAllowed (can call.actor .claimDecide ⟨.claim, some claim.claimantOrgId⟩)
  throwIf (call.actor.organizationId = some claim.claimantOrgId)
    (forbidden "Cannot decide a claim your own organization filed — self-certification is never permitted.")
  let _ ← assertDecidable claim call.input.decision "; must be SCORED or DISPUTED"
    " — internal consistency error"
  return ()

/-! ### Under the lock -/

def reloadClaim (db : Db) (claimId : Uuid) : Except Thrown Claim :=
  orThrow (ClaimRepository.findById db claimId) (internal "Claim disappeared mid-transaction.")

def revalidateDispute (db : Db) (call : DisputeCall) : Except Thrown Unit := do
  let freshClaim ← reloadClaim db call.claimId
  assertDisputable db freshClaim

/-- What `decide` has read under the lock. -/
structure FreshDecision where
  claim : Claim
  scoreBreakdown : ClaimScoreBreakdown
  algorithmVersion : String
  openDispute : Option ClaimDispute
  deriving DecidableEq, Repr

/-- The open dispute of a `DISPUTED` claim. -/
def loadOpenDispute (db : Db) (claim : Claim) : Except Thrown (Option ClaimDispute) :=
  if claim.status = .disputed then
    some <$> orThrow (ClaimDisputeRepository.findOpenByClaim db claim.id)
      (internal "Claim is DISPUTED but has no open dispute row — internal consistency error.")
  else .ok none

def revalidateDecision (db : Db) (call : DecideCall) : Except Thrown FreshDecision := do
  let freshClaim ← reloadClaim db call.claimId
  let score ← assertDecidable freshClaim call.input.decision "" ""
  let openDispute ← loadOpenDispute db freshClaim
  return ⟨freshClaim, score.1, score.2, openDispute⟩

/-! ### Transactions -/

/-- Both trails. -/
def record (f : Trails → Trails) : Tx Db Thrown PUnit :=
  modify fun db : Db ↦ { db with trails := f db.trails }

/-- What `create` has computed before its transaction. -/
structure NewClaim where
  actor : Actor
  organizationId : Uuid
  input : CreateClaimRequest
  context : RequestContext
  claimId : Uuid
  breakdown : ClaimScoreBreakdown
  deriving DecidableEq, Repr

def filedClaim (n : NewClaim) (now : Instant) : Claim where
  id := n.claimId
  claimantOrgId := n.organizationId
  claimantUserId := n.actor.userId
  subjectOrgId := n.input.subjectOrgId
  relationshipType := n.input.relationshipType
  directnessTier := n.input.directnessTier
  opportunityId := n.input.opportunityId
  claimScope := n.input.claimScope.getD {}
  status := .filed
  priorCommercialHistoryMonths := n.input.priorCommercialHistoryMonths
  submissionLagDays := n.input.submissionLagDays
  createdAt := now

def insertEvidence (claimId id : Uuid) (item : ClaimEvidenceItemInput) :
    Tx Db Thrown ClaimEvidence :=
  claimEvidence.insert .uniqueViolation
    { id, claimId, evidenceType := item.evidenceType, assertedFact := item.assertedFact,
      verificationState := item.verificationState.getD .selfReported,
      evidenceRef := item.evidenceRef }

def claimTrails (n : NewClaim) (t : Trails) : Trails :=
  let opportunityId : JsonValue := (n.input.opportunityId.map .string).getD .null
  let submitted :=
    (t.audit n.actor n.context (some n.organizationId) "claim.submitted" "claim" n.claimId
      [("subjectOrgId", .string n.input.subjectOrgId),
       ("relationshipType", .string n.input.relationshipType),
       ("directnessTier", .string (toString n.input.directnessTier)),
       ("opportunityId", opportunityId),
       ("evidenceItemCount", .number n.input.evidenceItems.length)]).timeline n.actor n.context
      "claim.submitted" "claim" n.claimId
      [("claimantOrgId", .string n.organizationId),
       ("subjectOrgId", .string n.input.subjectOrgId),
       ("relationshipType", .string n.input.relationshipType),
       ("directnessTier", .string (toString n.input.directnessTier)),
       ("opportunityId", opportunityId)]
  let score := [("scoreTotal", .decimal n.breakdown.total),
    ("algorithmVersion", .string n.breakdown.algorithmVersion)]
  (submitted.audit n.actor n.context (some n.organizationId) "claim.scored" "claim" n.claimId
    score).timeline n.actor n.context "claim.scored" "claim" n.claimId score

/-- Files the claim and scores it. -/
def createTx (d : Draws) (n : NewClaim) : Tx Db Thrown Claim := do
  let filed ← ClaimRepository.create (filedClaim n d.now)
  Tx.check (assertValidClaimTransition filed.status .scored)
  let _ ← Table.insertEach (insertEvidence n.claimId) d.ids n.input.evidenceItems
  let scored ← ClaimRepository.markScored n.claimId n.breakdown d.now
  record (claimTrails n)
  return scored

def disputeTrails (call : DisputeCall) (claim : Claim) (disputeId : Uuid) (t : Trails) : Trails :=
  (t.audit call.actor call.context (some claim.claimantOrgId) "claim.disputed" "claim" call.claimId
    [("challengerOrgId", .string call.organizationId), ("disputeId", .string disputeId)]).timeline
    call.actor call.context "claim.disputed" "claim" call.claimId
    [("challengerOrgId", .string call.organizationId), ("basis", .string call.input.basis)]

def newDispute (call : DisputeCall) (disputeId : Uuid) : ClaimDispute where
  id := disputeId
  claimId := call.claimId
  challengerOrgId := call.organizationId
  challengerUserId := call.actor.userId
  basis := call.input.basis
  evidence := call.input.evidence.getD []

def fileDisputeTx (env : Env) (call : DisputeCall) (claim : Claim) (disputeId : Uuid) :
    Tx Db Thrown ClaimDispute := do
  let dispute ← ClaimDisputeRepository.create env (newDispute call disputeId)
  let _ ← ClaimRepository.updateStatus call.claimId .disputed
  record (disputeTrails call claim disputeId)
  return dispute

/-- The reviewer's organization is a column that is never null. -/
def createDecision (d : Draws) (call : DecideCall) (fresh : FreshDecision) :
    Tx Db Thrown ClaimDecision := do
  let reviewerOrgId ← Tx.check (orThrow call.actor.organizationId
    (.error "Argument reviewerOrgId must not be null."))
  claimDecisions.insert .uniqueViolation
    { id := d.ids 0, claimId := call.claimId, disputeId := fresh.openDispute.map (·.id),
      decision := call.input.decision, scoreBreakdown := fresh.scoreBreakdown,
      algorithmVersion := fresh.algorithmVersion, reviewerUserId := call.actor.userId,
      reviewerOrgId, reason := call.input.reason, effectiveFrom := d.now }

def resolutionTrails (call : DecideCall) (fresh : FreshDecision) (disputeId : Uuid)
    (t : Trails) : Trails :=
  let resolution := toString (disputeResolutionFor call.input.decision)
  let reviewerOrgId := (call.actor.organizationId.map JsonValue.string).getD .null
  (t.audit call.actor call.context (some fresh.claim.claimantOrgId) "claim.dispute_decided"
    "claim_dispute" disputeId
    [("resolution", .string resolution), ("reviewerOrgId", reviewerOrgId)]).timeline
    call.actor call.context "claim.dispute_decided" "claim" call.claimId
    [("disputeId", .string disputeId), ("resolution", .string resolution),
     ("reviewerOrgId", reviewerOrgId)]

def resolveDispute (call : DecideCall) (fresh : FreshDecision) : Tx Db Thrown PUnit :=
  match fresh.openDispute with
  | none => pure ⟨⟩
  | some dispute => do
    let _ ← ClaimDisputeRepository.markDecided dispute.id (disputeResolutionFor call.input.decision)
    record (resolutionTrails call fresh dispute.id)

def decisionTrails (call : DecideCall) (fresh : FreshDecision) (t : Trails) : Trails :=
  let eventType := decisionEventType call.input.decision
  let reviewerOrgId := (call.actor.organizationId.map JsonValue.string).getD .null
  (t.audit call.actor call.context (some fresh.claim.claimantOrgId) eventType "claim" call.claimId
    [("decision", .string (toString call.input.decision)),
     ("reviewerOrgId", reviewerOrgId)]).timeline
    call.actor call.context eventType "claim" call.claimId
    [("reviewerOrgId", reviewerOrgId), ("reason", .string call.input.reason),
     ("disputeId", (fresh.openDispute.map fun o ↦ JsonValue.string o.id).getD .null)]

def decideTx (d : Draws) (call : DecideCall) (fresh : FreshDecision) : Tx Db Thrown ClaimDecision := do
  let decisionRow ← createDecision d call fresh
  let _ ← ClaimRepository.updateStatus call.claimId call.input.decision.toStatus
  resolveDispute call fresh
  record (decisionTrails call fresh)
  return decisionRow

/-! ### Calls -/

inductive Request
  | create (input : CreateClaimRequest)
  | fileDispute (claimId : Uuid) (input : FileClaimDisputeRequest)
  | decide (claimId : Uuid) (input : DecideClaimRequest)
  deriving DecidableEq, Repr

inductive Response
  | created (claim : Claim)
  | disputed (dispute : ClaimDispute)
  | decided (decision : ClaimDecision)
  deriving DecidableEq, Repr

/-- How far a call has got. -/
inductive Local
  | called (actor : Actor) (context : RequestContext) (request : Request)
  /-- `create`: checked and scored. -/
  | scored (n : NewClaim)
  /-- `fileDispute`: the claim is read; the actor has standing; the checks passed; the lock is taken;
  the checks passed again. -/
  | disputeRead (call : DisputeCall) (claim : Claim)
  | disputeAllowed (call : DisputeCall) (claim : Claim)
  | disputeChecked (call : DisputeCall) (claim : Claim) (disputeId : Uuid)
  | disputeLocked (call : DisputeCall) (claim : Claim) (disputeId : Uuid)
  | disputeValidated (call : DisputeCall) (claim : Claim) (disputeId : Uuid)
  /-- `decide`, likewise. -/
  | decideChecked (call : DecideCall)
  | decideLocked (call : DecideCall)
  | decideValidated (call : DecideCall) (fresh : FreshDecision)
  | returned (response : Response)
  | threw (thrown : Thrown)
  | crashed
  deriving DecidableEq, Repr

/-- What a call does first. -/
def enter (env : Env) (d : Draws) (db : Db) (actor : Actor) (context : RequestContext) :
    Request → Except Thrown Local
  | .create input => do
    let organizationId ← assertCreatable db actor input
    let breakdown ← env.scoreClaim (scoringInput (d.ids 0) input)
    return .scored ⟨actor, organizationId, input, context, d.ids 0, breakdown⟩
  | .fileDispute claimId input => do
    let organizationId ← activeOrganization actor
    let call : DisputeCall := ⟨actor, organizationId, claimId, input, context⟩
    let claim ← loadDisputable db call
    return .disputeRead call claim
  | .decide claimId input => do
    let call : DecideCall := ⟨actor, claimId, input, context⟩
    precheckDecision db call
    return .decideChecked call

def calls (env : Env) : CallSystem Db Thrown Int Draws Local where
  next d
    | .called actor context request => .query fun db ↦ enter env d db actor context request
    | .scored n => .commit ((fun claim ↦ .returned (.created claim)) <$> createTx d n)
    | .disputeRead call claim => .query fun db ↦ do
      requireStanding db call claim
      return .disputeAllowed call claim
    | .disputeAllowed call claim => .query fun db ↦ do
      assertDisputable db claim
      return .disputeChecked call claim (d.ids 0)
    | .disputeChecked call claim disputeId =>
      .lock (env.hashtext call.claimId) (.disputeLocked call claim disputeId)
    | .disputeLocked call claim disputeId => .query fun db ↦ do
      revalidateDispute db call
      return .disputeValidated call claim disputeId
    | .disputeValidated call claim disputeId =>
      .commit ((fun dispute ↦ .returned (.disputed dispute)) <$>
        fileDisputeTx env call claim disputeId)
    | .decideChecked call => .lock (env.hashtext call.claimId) (.decideLocked call)
    | .decideLocked call => .query fun db ↦ do
      let fresh ← revalidateDecision db call
      return .decideValidated call fresh
    | .decideValidated call fresh =>
      .commit ((fun decision ↦ .returned (.decided decision)) <$> decideTx d call fresh)
    | .returned _ | .threw _ | .crashed => .stop
  ended
    | .returned _ | .threw _ | .crashed => true
    | _ => false
  failed := .threw
  crashed := .crashed

end TolPlatform.Claims
