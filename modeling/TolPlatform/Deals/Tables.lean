import TolPlatform.Rfqs.Tables

/-!
# The tables of a deal room

The rows that `apps/api/src/modules/deals/service.ts` reads and writes, and their repositories. A deal
room, its participants and its first decision come from the selection of a quote, so their columns are
those of the RFQ tables, and `Db.ofSelection` is what the selections leave. Only the status of a room
and the state and note of a condition are ever updated.

Rows and events are in the order in which they were recorded, which is the order that the lists come in.
Their times, the ids of events and the base audit columns are left out.
-/

namespace TolPlatform.Deals

/-! ### Rows -/

/-- Every room is inserted as `OPEN`. -/
structure DealRoom extends Rfqs.DealRoom where
  status : DealRoomStatus := .open
  nextAction : Option String := none
  deriving DecidableEq, Repr

structure DealCondition where
  id : Uuid
  dealRoomId : Uuid
  description : String
  /-- Who owes it. -/
  ownerOrgId : Uuid
  evidenceRef : Option String
  dueAt : Option Instant
  state : DealConditionState := .pending
  blocking : Bool
  resolutionNote : Option String := none
  deriving DecidableEq, Repr

structure DealDecision where
  id : Uuid
  dealRoomId : Uuid
  decisionType : DealDecisionType
  reason : String
  relatedQuoteId : Option Uuid := none
  /-- `comparisonSnapshot.consideredQuoteIds`. -/
  consideredQuoteIds : Option (List Uuid) := none
  actorUserId : Uuid
  actorOrgId : Option Uuid
  actorRole : Option PersonaRole
  deriving DecidableEq, Repr

structure Db where
  dealRooms : List DealRoom := []
  dealRoomParticipants : List Rfqs.DealRoomParticipant := []
  dealConditions : List DealCondition := []
  dealDecisions : List DealDecision := []
  trails : Trails := {}
  deriving DecidableEq, Repr

def dealRooms : Table Db DealRoom Uuid where
  rows := Db.dealRooms
  put l db := { db with dealRooms := l }
  key r := r.id

def dealConditions : Table Db DealCondition Uuid where
  rows := Db.dealConditions
  put l db := { db with dealConditions := l }
  key := DealCondition.id

def dealDecisions : Table Db DealDecision Uuid where
  rows := Db.dealDecisions
  put l db := { db with dealDecisions := l }
  key := DealDecision.id

/-! ### Repositories -/

namespace DealRoomRepository

def findById (db : Db) (id : Uuid) : Option DealRoom := db.dealRooms.find? (·.id = id)

def setStatus (status : DealRoomStatus) (r : DealRoom) : DealRoom := { r with status }

@[simp] theorem setStatus_id (status : DealRoomStatus) (r : DealRoom) : (setStatus status r).id = r.id :=
  rfl

def updateStatus (id : Uuid) (status : DealRoomStatus) : Tx Db Thrown DealRoom :=
  dealRooms.update .recordNotFound id (setStatus status)

end DealRoomRepository

namespace DealRoomParticipantRepository

def findByDealRoomAndOrg (db : Db) (dealRoomId organizationId : Uuid) :
    Option Rfqs.DealRoomParticipant :=
  db.dealRoomParticipants.find? fun p ↦
    p.dealRoomId = dealRoomId ∧ p.organizationId = organizationId

def listByDealRoom (db : Db) (dealRoomId : Uuid) : List Rfqs.DealRoomParticipant :=
  db.dealRoomParticipants.filter (·.dealRoomId = dealRoomId)

end DealRoomParticipantRepository

namespace DealConditionRepository

def findById (db : Db) (id : Uuid) : Option DealCondition := db.dealConditions.find? (·.id = id)

def listByDealRoom (db : Db) (dealRoomId : Uuid) : List DealCondition :=
  db.dealConditions.filter (·.dealRoomId = dealRoomId)

def setState (state : DealConditionState) (resolutionNote : Option String) (c : DealCondition) :
    DealCondition :=
  { c with state, resolutionNote }

@[simp] theorem setState_id (state : DealConditionState) (resolutionNote : Option String)
    (c : DealCondition) : (setState state resolutionNote c).id = c.id := rfl

def updateState (id : Uuid) (state : DealConditionState) (resolutionNote : Option String) :
    Tx Db Thrown DealCondition :=
  dealConditions.update .recordNotFound id (setState state resolutionNote)

end DealConditionRepository

def DealDecisionRepository.listByDealRoom (db : Db) (dealRoomId : Uuid) : List DealDecision :=
  db.dealDecisions.filter (·.dealRoomId = dealRoomId)

/-- The events of several aggregates, each an `(aggregateType, aggregateId)`. -/
def DomainEventRepository.listByAggregates (db : Db) (pairs : List (String × String)) :
    List DomainEvent :=
  db.trails.domainEvents.filter fun e ↦ (e.aggregateType, e.aggregateId) ∈ pairs

/-! ### After a selection -/

/-- A `QUOTE_SELECTED` decision. -/
def DealDecision.ofSelection (d : Rfqs.DealDecision) : DealDecision where
  id := d.id
  dealRoomId := d.dealRoomId
  decisionType := .quoteSelected
  reason := d.reason
  relatedQuoteId := some d.relatedQuoteId
  consideredQuoteIds := some d.consideredQuoteIds
  actorUserId := d.actorUserId
  actorOrgId := d.actorOrgId
  actorRole := d.actorRole

/-- The deal tables as the selections of quotes leave them. -/
def Db.ofSelection (db : Rfqs.Db) : Db where
  dealRooms := db.dealRooms.map fun r ↦ { toDealRoom := r }
  dealRoomParticipants := db.dealRoomParticipants
  dealDecisions := db.dealDecisions.map .ofSelection
  trails := db.trails

end TolPlatform.Deals
