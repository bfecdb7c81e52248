import TolPlatform.Deals.Tables
import TolPlatform.Library.LockedCalls

/-!
# Deal rooms

`apps/api/src/modules/deals/service.ts`. The mutations (`postCondition`, `resolveCondition` and
`recordDecision`) are calls that interleave statement by statement: each reads the room, then the
actor's participant row, then takes the advisory lock of the room's id, reads again under it what its
transition depends on, and commits. `postCondition` inserts its condition before it reads the room
again; nobody sees that row before the commit, so the insertion is part of the commit here.

The reads (`getById`, `getTimeline`) come with what `deals/mapper.ts` makes of them. `beforeValue` and
`reason` of the audit rows are left out.
-/

namespace TolPlatform.Deals

/-! ### Requests -/

structure PostConditionRequest where
  description : String
  ownerOrgId : Uuid
  evidenceRef : Option String := none
  dueAt : Option Instant := none
  blocking : Option Bool := none
  deriving DecidableEq, Repr

/-- What a condition can be resolved to: never `PENDING`. -/
inductive ConditionResolution
  | satisfied | waived | rejected
  deriving DecidableEq, Repr

def ConditionResolution.toState : ConditionResolution → DealConditionState
  | .satisfied => .satisfied
  | .waived => .waived
  | .rejected => .rejected

structure ResolveConditionRequest where
  state : ConditionResolution
  resolutionNote : Option String := none
  deriving DecidableEq, Repr

/-- What can be decided by request: `QUOTE_SELECTED` is recorded with the selection. -/
inductive RequestedDecision
  | approval | decline | exception
  deriving DecidableEq, Repr

def RequestedDecision.toType : RequestedDecision → DealDecisionType
  | .approval => .approval
  | .decline => .decline
  | .exception => .exception

structure RecordDecisionRequest where
  decisionType : RequestedDecision
  reason : String
  deriving DecidableEq, Repr

/-- An operation on a deal room, with the row that it reads first. -/
structure DealCall where
  actor : Actor
  context : RequestContext
  dealRoom : DealRoom
  deriving DecidableEq, Repr

structure PostCall extends DealCall where
  input : PostConditionRequest
  deriving DecidableEq, Repr

structure ResolveCall extends DealCall where
  input : ResolveConditionRequest
  condition : DealCondition
  deriving DecidableEq, Repr

structure DecideCall extends DealCall where
  input : RecordDecisionRequest
  deriving DecidableEq, Repr

/-! ### Checks outside the lock -/

/-- The first half of `loadDealRoomAndAuthContext`. -/
def loadDealRoom (db : Db) (dealRoomId : Uuid) : Except Thrown DealRoom :=
  orThrow (DealRoomRepository.findById db dealRoomId) (notFound "Deal room not found.")

/-- The second half. -/
def isParticipant (db : Db) (actor : Actor) (dealRoomId : Uuid) : Bool :=
  (actor.organizationId.bind
    (DealRoomParticipantRepository.findByDealRoomAndOrg db dealRoomId)).isSome

def requireOnDeal (db : Db) (actor : Actor) (dealRoom : DealRoom) (action : Action) :
    Except Thrown Unit :=
  requireAllowed (can actor action ⟨.dealRoom, some dealRoom.merchantOrgId⟩
    { isParticipant := isParticipant db actor dealRoom.id })

def requireCounterparty (dealRoom : DealRoom) (ownerOrgId : Uuid) : Except Thrown Unit :=
  throwIf (ownerOrgId ≠ dealRoom.merchantOrgId ∧ ownerOrgId ≠ dealRoom.providerOrgId)
    (badRequest "ownerOrgId must be one of this deal room's two counterparties.")

/-- The condition as `resolveCondition` reads it first. -/
def loadCondition (db : Db) (call : DealCall) (conditionId : Uuid) (state : DealConditionState) :
    Except Thrown DealCondition := do
  let condition ← orThrow
    ((DealConditionRepository.findById db conditionId).filter (·.dealRoomId = call.dealRoom.id))
    (notFound "Condition not found on this deal room.")
  assertValidDealConditionTransition condition.state state
  return condition

/-- An exception never changes the status. -/
def computeNextStatus (decisionType : RequestedDecision) (currentStatus : DealRoomStatus) :
    Option DealRoomStatus :=
  if decisionType = .approval ∧ (currentStatus = .open ∨ currentStatus = .conditions) then
    some .approved
  else if decisionType = .decline ∧ (currentStatus = .open ∨ currentStatus = .conditions) then
    some .declined
  else none

/-- The next status of a room, where a decision has one. -/
def nextStatus (decisionType : RequestedDecision) (currentStatus : DealRoomStatus) :
    Except Thrown (Option DealRoomStatus) :=
  match computeNextStatus decisionType currentStatus with
  | none => .ok none
  | some status => do
    assertValidDealRoomTransition currentStatus status
    return some status

/-! ### Under the lock -/

def reloadStatus (db : Db) (dealRoomId : Uuid) : Except Thrown DealRoomStatus := do
  let freshDealRoom ← orThrow (DealRoomRepository.findById db dealRoomId)
    (internal "Deal room disappeared mid-transaction.")
  return freshDealRoom.status

def revalidateCondition (db : Db) (conditionId : Uuid) (state : DealConditionState) :
    Except Thrown Unit := do
  let freshCondition ← orThrow (DealConditionRepository.findById db conditionId)
    (internal "Condition disappeared mid-transaction.")
  assertValidDealConditionTransition freshCondition.state state

/-! ### Transactions -/

def record (f : Trails → Trails) : Tx Db Thrown PUnit :=
  modify fun db : Db ↦ { db with trails := f db.trails }

/-- The stage event of a room, if its status has changed. -/
def stageTrail (call : DealCall) (src : DealRoomStatus) (dst : Option DealRoomStatus) (t : Trails) :
    Trails :=
  match dst with
  | none => t
  | some dst => t.timeline call.actor call.context "deal.stage_changed" "deal_room" call.dealRoom.id
      [("from", .string (toString src)), ("to", .string (toString dst))]

def setStage (call : DealCall) : Option DealRoomStatus → Tx Db Thrown PUnit
  | none => pure ⟨⟩
  | some status => do
    let _ ← DealRoomRepository.updateStatus call.dealRoom.id status

def newCondition (d : Draws) (call : PostCall) : DealCondition where
  id := d.ids 0
  dealRoomId := call.dealRoom.id
  description := call.input.description
  ownerOrgId := call.input.ownerOrgId
  evidenceRef := call.input.evidenceRef
  dueAt := call.input.dueAt
  blocking := call.input.blocking.getD true

/-- The first condition of an open room. -/
def conditionStage (freshStatus : DealRoomStatus) : Option DealRoomStatus :=
  if freshStatus = .open then some .conditions else none

def postTrails (call : PostCall) (condition : DealCondition) (freshStatus : DealRoomStatus)
    (t : Trails) : Trails :=
  let posted : List (String × JsonValue) :=
    [("conditionId", .string condition.id), ("ownerOrgId", .string condition.ownerOrgId),
     ("blocking", .bool condition.blocking)]
  stageTrail call.toDealCall freshStatus (conditionStage freshStatus)
    ((t.audit call.actor call.context (some call.dealRoom.merchantOrgId) "deal.condition_posted"
      "deal_room" call.dealRoom.id posted).timeline call.actor call.context "deal.condition_created"
      "deal_room" call.dealRoom.id posted)

def postConditionTx (d : Draws) (call : PostCall) (freshStatus : DealRoomStatus) :
    Tx Db Thrown DealCondition := do
  let condition ← dealConditions.insert .uniqueViolation (newCondition d call)
  Tx.check (if freshStatus = .open then assertValidDealRoomTransition .open .conditions else .ok ())
  setStage call.toDealCall (conditionStage freshStatus)
  record (postTrails call condition freshStatus)
  return condition

def resolveTrails (call : ResolveCall) (updated : DealCondition) (t : Trails) : Trails :=
  (t.audit call.actor call.context (some call.dealRoom.merchantOrgId) "deal.condition_resolved"
    "deal_room" call.dealRoom.id [("state", .string (toString updated.state))]).timeline call.actor
    call.context "deal.condition_resolved" "deal_room" call.dealRoom.id
    [("conditionId", .string updated.id), ("state", .string (toString updated.state))]

def resolveConditionTx (call : ResolveCall) : Tx Db Thrown DealCondition := do
  let updated ← DealConditionRepository.updateState call.condition.id call.input.state.toState
    call.input.resolutionNote
  record (resolveTrails call updated)
  return updated

def newDecision (d : Draws) (call : DecideCall) : DealDecision where
  id := d.ids 0
  dealRoomId := call.dealRoom.id
  decisionType := call.input.decisionType.toType
  reason := call.input.reason
  actorUserId := call.actor.userId
  actorOrgId := call.actor.organizationId
  actorRole := call.actor.role

def decisionTrails (call : DecideCall) (decision : DealDecision) (freshStatus : DealRoomStatus)
    (next : Option DealRoomStatus) (t : Trails) : Trails :=
  let recorded : List (String × JsonValue) :=
    [("decisionId", .string decision.id), ("decisionType", .string (toString decision.decisionType))]
  stageTrail call.toDealCall freshStatus next
    ((t.audit call.actor call.context (some call.dealRoom.merchantOrgId) "deal.decision_recorded"
      "deal_room" call.dealRoom.id
      (recorded ++ [("nextStatus", (next.map fun s ↦ JsonValue.string (toString s)).getD .null)])).timeline
      call.actor call.context "deal.decision_recorded" "deal_room" call.dealRoom.id recorded)

def recordDecisionTx (d : Draws) (call : DecideCall) (freshStatus : DealRoomStatus)
    (next : Option DealRoomStatus) : Tx Db Thrown DealDecision := do
  let decision ← dealDecisions.insert .uniqueViolation (newDecision d call)
  setStage call.toDealCall next
  record (decisionTrails call decision freshStatus next)
  return decision

/-! ### Calls -/

inductive Request
  | postCondition (input : PostConditionRequest)
  | resolveCondition (conditionId : Uuid) (input : ResolveConditionRequest)
  | recordDecision (input : RecordDecisionRequest)
  deriving DecidableEq, Repr

inductive Response
  | posted (condition : DealCondition)
  | resolved (condition : DealCondition)
  | decided (decision : DealDecision)
  deriving DecidableEq, Repr

/-- How far a call has got. -/
inductive Local
  | called (actor : Actor) (context : RequestContext) (dealRoomId : Uuid) (request : Request)
  /-- The room is read. -/
  | roomRead (call : DealCall) (request : Request)
  /-- `postCondition`: the checks passed; the lock is taken; the status is read again. -/
  | postReady (call : PostCall)
  | postLocked (call : PostCall)
  | postFresh (call : PostCall) (freshStatus : DealRoomStatus)
  /-- `resolveCondition`: the actor may; the condition is read and checked; the lock is taken; the
  condition is checked again. -/
  | resolveAllowed (call : DealCall) (conditionId : Uuid) (input : ResolveConditionRequest)
  | resolveReady (call : ResolveCall)
  | resolveLocked (call : ResolveCall)
  | resolveFresh (call : ResolveCall)
  /-- `recordDecision`: the checks passed; the lock is taken; the status is read again, and the next
  one checked. -/
  | decideReady (call : DecideCall)
  | decideLocked (call : DecideCall)
  | decideFresh (call : DecideCall) (freshStatus : DealRoomStatus) (next : Option DealRoomStatus)
  | returned (response : Response)
  | threw (thrown : Thrown)
  | crashed
  deriving DecidableEq, Repr

/-- What a call does once it has read its room. -/
def check (db : Db) (call : DealCall) : Request → Except Thrown Local
  | .postCondition input => do
    requireOnDeal db call.actor call.dealRoom .dealPostCondition
    requireCounterparty call.dealRoom input.ownerOrgId
    return .postReady ⟨call, input⟩
  | .resolveCondition conditionId input => do
    requireOnDeal db call.actor call.dealRoom .dealResolveCondition
    return .resolveAllowed call conditionId input
  | .recordDecision input => do
    requireOnDeal db call.actor call.dealRoom .dealRecordDecision
    let _ ← nextStatus input.decisionType call.dealRoom.status
    return .decideReady ⟨call, input⟩

def calls (env : Platform) : CallSystem Db Thrown Int Draws Local where
  next d
    | .called actor context dealRoomId request => .query fun db ↦ do
      let dealRoom ← loadDealRoom db dealRoomId
      return .roomRead ⟨actor, context, dealRoom⟩ request
    | .roomRead call request => .query fun db ↦ check db call request
    | .postReady call => .lock (env.hashtext call.dealRoom.id) (.postLocked call)
    | .postLocked call => .query fun db ↦ do
      let freshStatus ← reloadStatus db call.dealRoom.id
      return .postFresh call freshStatus
    | .postFresh call freshStatus =>
      .commit ((fun condition ↦ .returned (.posted condition)) <$> postConditionTx d call freshStatus)
    | .resolveAllowed call conditionId input => .query fun db ↦ do
      let condition ← loadCondition db call conditionId input.state.toState
      return .resolveReady ⟨call, input, condition⟩
    | .resolveReady call => .lock (env.hashtext call.dealRoom.id) (.resolveLocked call)
    | .resolveLocked call => .query fun db ↦ do
      revalidateCondition db call.condition.id call.input.state.toState
      return .resolveFresh call
    | .resolveFresh call =>
      .commit ((fun condition ↦ .returned (.resolved condition)) <$> resolveConditionTx call)
    | .decideReady call => .lock (env.hashtext call.dealRoom.id) (.decideLocked call)
    | .decideLocked call => .query fun db ↦ do
      let freshStatus ← reloadStatus db call.dealRoom.id
      let next ← nextStatus call.input.decisionType freshStatus
      return .decideFresh call freshStatus next
    | .decideFresh call freshStatus next =>
      .commit ((fun decision ↦ .returned (.decided decision)) <$>
        recordDecisionTx d call freshStatus next)
    | .returned _ | .threw _ | .crashed => .stop
  ended
    | .returned _ | .threw _ | .crashed => true
    | _ => false
  failed := .threw
  crashed := .crashed

/-! ### Reads -/

structure DealRoomDetail where
  dealRoom : DealRoom
  participants : List Rfqs.DealRoomParticipant
  conditions : List DealCondition
  decisions : List DealDecision
  deriving DecidableEq, Repr

def getById (db : Db) (actor : Actor) (id : Uuid) : Except Thrown DealRoomDetail := do
  let dealRoom ← loadDealRoom db id
  requireOnDeal db actor dealRoom .dealRead
  return ⟨dealRoom, DealRoomParticipantRepository.listByDealRoom db id,
    DealConditionRepository.listByDealRoom db id, DealDecisionRepository.listByDealRoom db id⟩

/-- The room's own events and those of the RFQ that it comes from. -/
def getTimeline (db : Db) (actor : Actor) (id : Uuid) : Except Thrown (List DomainEvent) := do
  let dealRoom ← loadDealRoom db id
  requireOnDeal db actor dealRoom .dealRead
  return DomainEventRepository.listByAggregates db
    [("deal_room", dealRoom.id), ("rfq", dealRoom.rfqId)]

/-! ### Answers -/

/-- Without the snapshot of the quotes that were compared. -/
structure DealDecisionDTO where
  id : Uuid
  dealRoomId : Uuid
  decisionType : DealDecisionType
  reason : String
  relatedQuoteId : Option Uuid
  actorOrgId : Option Uuid
  actorRole : Option PersonaRole
  deriving DecidableEq, Repr

def toDealDecisionDTO (d : DealDecision) : DealDecisionDTO :=
  ⟨d.id, d.dealRoomId, d.decisionType, d.reason, d.relatedQuoteId, d.actorOrgId, d.actorRole⟩

structure TimelineEventDTO where
  eventType : String
  aggregateType : String
  aggregateId : String
  payload : List (String × JsonValue)
  actorOrgId : Option Uuid
  actorRole : Option PersonaRole
  deriving DecidableEq, Repr

/-- The payload is passed through. -/
def toTimelineEventDTO (e : DomainEvent) : TimelineEventDTO :=
  ⟨e.eventType, e.aggregateType, e.aggregateId, e.payload, e.actorOrgId, e.actorRole⟩

structure DealRoomDTO where
  dealRoom : DealRoom
  participants : List Rfqs.DealRoomParticipant
  conditions : List DealCondition
  decisions : List DealDecisionDTO
  deriving DecidableEq, Repr

def toDealRoomDTO (detail : DealRoomDetail) : DealRoomDTO :=
  ⟨detail.dealRoom, detail.participants, detail.conditions, detail.decisions.map toDealDecisionDTO⟩

/-- `GET /deals/:id`. -/
def dealAnswer (db : Db) (actor : Actor) (id : Uuid) : Except Thrown DealRoomDTO :=
  (getById db actor id).map toDealRoomDTO

/-- `GET /deals/:id/timeline`. -/
def timelineAnswer (db : Db) (actor : Actor) (id : Uuid) : Except Thrown (List TimelineEventDTO) :=
  (getTimeline db actor id).map (·.map toTimelineEventDTO)

end TolPlatform.Deals
