import TolPlatform.Domain.StateMachines
import TolPlatform.Library.Table
import TolPlatform.Shared.JobIdempotency
import TolPlatform.Shared.Support

/-!
# The tables of an RFQ

The rows that `apps/api/src/modules/rfqs/service.ts` and `apps/worker/src/jobs/rfq-expiry.job.ts` read
and write, and their repositories. The unique constraints are those of the schema: of a recipient
`(rfqId, providerOrgId)`, of a quote `(rfqRecipientId, quoteVersion)`, of a deal room `rfqId` and
`selectedQuoteId`, of a participant `(dealRoomId, organizationId)`.

`opportunityUpdates` records every status `UPDATE` of an opportunity, which the code does not: a write
that changes nothing leaves no other trace. Free-form JSON is kept as text. Left out are the columns
that nothing here reads, base audit columns, the deal room's `OPEN` and `reason` of the audit rows
among them.
-/

namespace TolPlatform.Rfqs

/-! ### Rows -/

structure Opportunity where
  id : Uuid
  ownerOrgId : Uuid
  status : OpportunityStatus
  deriving DecidableEq, Repr

structure RFQ where
  id : Uuid
  opportunityId : Uuid
  status : RfqStatus
  dueAt : Instant
  currentVersionNumber : ℕ := 1
  deriving DecidableEq, Repr

inductive DisclosurePacketType
  | matchSummary | qualifiedRfq | dueDiligence | restricted
  deriving DecidableEq, Repr

structure RFQVersion where
  id : Uuid
  rfqId : Uuid
  versionNumber : ℕ
  packetType : DisclosurePacketType
  disclosureSnapshot : String
  deriving DecidableEq, Repr

structure RFQRecipient where
  id : Uuid
  rfqId : Uuid
  providerOrgId : Uuid
  state : RfqRecipientState := .invited
  declineReason : Option String := none
  deriving DecidableEq, Repr

structure Quote where
  id : Uuid
  rfqId : Uuid
  rfqRecipientId : Uuid
  providerOrgId : Uuid
  quoteVersion : ℕ
  currency : String
  status : QuoteStatus := .submitted
  validUntil : Instant
  terms : String
  deriving DecidableEq, Repr

structure DealRoom where
  id : Uuid
  opportunityId : Uuid
  rfqId : Uuid
  selectedQuoteId : Uuid
  merchantOrgId : Uuid
  providerOrgId : Uuid
  deriving DecidableEq, Repr

inductive ParticipantRole
  | merchant | provider
  deriving DecidableEq, Repr

instance : ToString ParticipantRole where
  toString
    | .merchant => "MERCHANT"
    | .provider => "PROVIDER"

structure DealRoomParticipant where
  id : Uuid
  dealRoomId : Uuid
  organizationId : Uuid
  participantRole : ParticipantRole
  deriving DecidableEq, Repr

/-- A `QUOTE_SELECTED` decision, the only kind that is recorded here. -/
structure DealDecision where
  id : Uuid
  dealRoomId : Uuid
  reason : String
  relatedQuoteId : Uuid
  /-- `comparisonSnapshot.consideredQuoteIds`. -/
  consideredQuoteIds : List Uuid
  actorUserId : Uuid
  actorOrgId : Option Uuid
  actorRole : Option PersonaRole
  deriving DecidableEq, Repr

/-- One status `UPDATE` of an opportunity. -/
structure OpportunityUpdate where
  opportunityId : Uuid
  move : OpportunityStatus × OpportunityStatus
  deriving DecidableEq, Repr

/-- What the handler of an expiry returns: `{ expired: true }`. -/
structure Expired where
  deriving DecidableEq, Repr

structure Db where
  organizations : List Uuid := []
  opportunities : List Opportunity
  rfqs : List RFQ := []
  rfqVersions : List RFQVersion := []
  rfqRecipients : List RFQRecipient := []
  quotes : List Quote := []
  dealRooms : List DealRoom := []
  dealRoomParticipants : List DealRoomParticipant := []
  dealDecisions : List DealDecision := []
  idempotencyKeys : List (IdempotencyKey Expired) := []
  opportunityUpdates : List OpportunityUpdate := []
  trails : Trails := {}
  deriving DecidableEq, Repr

def opportunities : Table Db Opportunity Uuid where
  rows := Db.opportunities
  put l db := { db with opportunities := l }
  key := Opportunity.id

def rfqs : Table Db RFQ Uuid where
  rows := Db.rfqs
  put l db := { db with rfqs := l }
  key := RFQ.id

def rfqVersions : Table Db RFQVersion Uuid where
  rows := Db.rfqVersions
  put l db := { db with rfqVersions := l }
  key := RFQVersion.id

def rfqRecipients : Table Db RFQRecipient Uuid where
  rows := Db.rfqRecipients
  put l db := { db with rfqRecipients := l }
  key := RFQRecipient.id

def quotes : Table Db Quote Uuid where
  rows := Db.quotes
  put l db := { db with quotes := l }
  key := Quote.id

def dealRooms : Table Db DealRoom Uuid where
  rows := Db.dealRooms
  put l db := { db with dealRooms := l }
  key := DealRoom.id

def dealRoomParticipants : Table Db DealRoomParticipant Uuid where
  rows := Db.dealRoomParticipants
  put l db := { db with dealRoomParticipants := l }
  key := DealRoomParticipant.id

def dealDecisions : Table Db DealDecision Uuid where
  rows := Db.dealDecisions
  put l db := { db with dealDecisions := l }
  key := DealDecision.id

def idempotencyKeys : Table Db (IdempotencyKey Expired) Uuid where
  rows := Db.idempotencyKeys
  put l db := { db with idempotencyKeys := l }
  key := IdempotencyKey.id

/-! ### Repositories -/

namespace OpportunityRepository

def findById (db : Db) (id : Uuid) : Option Opportunity := db.opportunities.find? (·.id = id)

def setStatus (status : OpportunityStatus) (o : Opportunity) : Opportunity := { o with status }

@[simp] theorem setStatus_id (status : OpportunityStatus) (o : Opportunity) :
    (setStatus status o).id = o.id := rfl

def updateStatus (id : Uuid) (status : OpportunityStatus) : Tx Db Thrown Opportunity := do
  let db ← get
  let old ← Tx.check (orThrow (findById db id) .recordNotFound)
  modify fun db : Db ↦
    { db with opportunityUpdates := db.opportunityUpdates ++ [⟨id, old.status, status⟩] }
  opportunities.update .recordNotFound id (setStatus status)

end OpportunityRepository

namespace RfqRepository

def findById (db : Db) (id : Uuid) : Option RFQ := db.rfqs.find? (·.id = id)

/-- The statuses with an edge to `EXPIRED`. -/
def expirableStatuses : List RfqStatus := [.sent, .acknowledged, .questions, .quoted]

/-- Overdue and expirable, the longest overdue first; `take: 500`. -/
def listOverdue (db : Db) (now : Instant) : List RFQ :=
  ((db.rfqs.filter fun r ↦ r.dueAt < now ∧ r.status ∈ expirableStatuses).mergeSort
    fun a b ↦ decide (a.dueAt ≤ b.dueAt)).take 500

def setStatus (status : RfqStatus) (r : RFQ) : RFQ := { r with status }

@[simp] theorem setStatus_id (status : RfqStatus) (r : RFQ) : (setStatus status r).id = r.id := rfl

def updateStatus (id : Uuid) (status : RfqStatus) : Tx Db Thrown RFQ :=
  rfqs.update .recordNotFound id (setStatus status)

end RfqRepository

namespace RfqRecipientRepository

def findByRfqAndProviderOrg (db : Db) (rfqId providerOrgId : Uuid) : Option RFQRecipient :=
  db.rfqRecipients.find? fun r ↦ r.rfqId = rfqId ∧ r.providerOrgId = providerOrgId

def create (rfqId id providerOrgId : Uuid) : Tx Db Thrown RFQRecipient := do
  let db ← get
  Tx.check (throwIf (findByRfqAndProviderOrg db rfqId providerOrgId ≠ none) .uniqueViolation)
  rfqRecipients.insert .uniqueViolation { id, rfqId, providerOrgId }

/-- A reason that is given, and not empty, replaces the one there is. -/
def setState (state : RfqRecipientState) (declineReason : Option String) (r : RFQRecipient) :
    RFQRecipient :=
  { r with state, declineReason := (declineReason.filter (· ≠ "")).or r.declineReason }

@[simp] theorem setState_id (state : RfqRecipientState) (declineReason : Option String)
    (r : RFQRecipient) : (setState state declineReason r).id = r.id := rfl

def updateState (id : Uuid) (state : RfqRecipientState) (declineReason : Option String := none) :
    Tx Db Thrown RFQRecipient :=
  rfqRecipients.update .recordNotFound id (setState state declineReason)

end RfqRecipientRepository

namespace QuoteRepository

def findById (db : Db) (id : Uuid) : Option Quote := db.quotes.find? (·.id = id)

/-- By provider, then by version. -/
def listByRfq (db : Db) (rfqId : Uuid) : List Quote :=
  (db.quotes.filter (·.rfqId = rfqId)).mergeSort fun a b ↦
    decide (a.providerOrgId < b.providerOrgId ∨
      a.providerOrgId = b.providerOrgId ∧ a.quoteVersion ≤ b.quoteVersion)

def nextQuoteVersion (db : Db) (rfqRecipientId : Uuid) : ℕ :=
  ((db.quotes.filter (·.rfqRecipientId = rfqRecipientId)).map (·.quoteVersion)).max?.getD 0 + 1

def create (assertJsonSafePlainObject : String → String → Except Thrown Unit) (row : Quote) :
    Tx Db Thrown Quote := do
  Tx.check (assertJsonSafePlainObject row.terms "Quote.terms")
  let db ← get
  Tx.check (throwIf (∃ q ∈ db.quotes, q.rfqRecipientId = row.rfqRecipientId ∧
    q.quoteVersion = row.quoteVersion) .uniqueViolation)
  quotes.insert .uniqueViolation row

def setStatus (status : QuoteStatus) (q : Quote) : Quote := { q with status }

@[simp] theorem setStatus_id (status : QuoteStatus) (q : Quote) : (setStatus status q).id = q.id :=
  rfl

def updateStatus (id : Uuid) (status : QuoteStatus) : Tx Db Thrown Quote :=
  quotes.update .recordNotFound id (setStatus status)

end QuoteRepository

def DealRoomRepository.create (row : DealRoom) : Tx Db Thrown DealRoom := do
  let db ← get
  Tx.check (throwIf (∃ r ∈ db.dealRooms, r.rfqId = row.rfqId ∨
    r.selectedQuoteId = row.selectedQuoteId) .uniqueViolation)
  dealRooms.insert .uniqueViolation row

def DealRoomParticipantRepository.create (row : DealRoomParticipant) :
    Tx Db Thrown DealRoomParticipant := do
  let db ← get
  Tx.check (throwIf (∃ r ∈ db.dealRoomParticipants, r.dealRoomId = row.dealRoomId ∧
    r.organizationId = row.organizationId) .uniqueViolation)
  dealRoomParticipants.insert .uniqueViolation row

end TolPlatform.Rfqs
