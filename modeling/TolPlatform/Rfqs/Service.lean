import TolPlatform.Library.LockedCalls
import TolPlatform.Rfqs.Tables

/-!
# RFQs

The mutations of `apps/api/src/modules/rfqs/service.ts` (`create`, `decline`, `submitQuote`,
`withdrawQuote` and `selectQuote`) and the worker's `rfq-expiry` job, as calls that interleave
statement by statement. All but `create` take the advisory lock of the RFQ's id for their
transaction. What they read again under it differs: `submitQuote` the RFQ's status, `withdrawQuote` and
`selectQuote` the quote, the job the RFQ's status, and `decline` nothing. Everything else that a
transaction uses, the opportunity above all, was read before it.

A job is delivered at any time, so `enqueueRfqExpiry` has no counterpart. The JSON guard on free-form
input is a parameter.
-/

namespace TolPlatform.Rfqs

/-! ### Requests -/

structure CreateRfqRequest where
  opportunityId : Uuid
  providerOrgIds : List Uuid
  dueAt : Instant
  packetType : DisclosurePacketType
  disclosureSnapshot : String
  deriving DecidableEq, Repr

structure DeclineRfqRequest where
  declineReason : String
  deriving DecidableEq, Repr

structure SubmitQuoteRequest where
  currency : String
  validUntil : Instant
  terms : String
  deriving DecidableEq, Repr

structure SelectQuoteRequest where
  quoteId : Uuid
  reason : String
  deriving DecidableEq, Repr

/-- What the service takes from outside. -/
structure Env extends Platform where
  /-- Of a JSON text and the name of its column. -/
  assertJsonSafePlainObject : String → String → Except Thrown Unit

/-- `create`, with the opportunity it has read. -/
structure CreateCall where
  actor : Actor
  context : RequestContext
  input : CreateRfqRequest
  opportunity : Opportunity
  deriving DecidableEq, Repr

/-- An operation on an RFQ, with the two rows that it reads first. -/
structure RfqCall where
  actor : Actor
  context : RequestContext
  rfq : RFQ
  opportunity : Opportunity
  deriving DecidableEq, Repr

structure DeclineCall extends RfqCall where
  input : DeclineRfqRequest
  recipient : RFQRecipient
  deriving DecidableEq, Repr

structure SubmitCall extends RfqCall where
  input : SubmitQuoteRequest
  recipient : RFQRecipient
  deriving DecidableEq, Repr

structure WithdrawCall extends RfqCall where
  quote : Quote
  deriving DecidableEq, Repr

structure SelectCall extends RfqCall where
  input : SelectQuoteRequest
  quote : Quote
  deriving DecidableEq, Repr

/-! ### Before the transactions -/

def loadRfq (db : Db) (rfqId : Uuid) : Except Thrown RFQ :=
  orThrow (RfqRepository.findById db rfqId) (notFound "RFQ not found.")

def loadOpportunity (db : Db) (rfq : RFQ) : Except Thrown Opportunity :=
  orThrow (OpportunityRepository.findById db rfq.opportunityId)
    (internal "RFQ references a missing opportunity.")

/-- The first look-up of `create`. -/
def precheckCreate (db : Db) (actor : Actor) (input : CreateRfqRequest) :
    Except Thrown Opportunity := do
  let opportunity ← orThrow (OpportunityRepository.findById db input.opportunityId)
    (notFound "Opportunity not found.")
  requireAllowed (can actor .rfqCreate ⟨.rfq, some opportunity.ownerOrgId⟩)
  throwIf (opportunity.status ≠ .matchReady ∧ opportunity.status ≠ .invited)
    (badRequest s!"Opportunity must be MATCH_READY or INVITED to receive an RFQ (current status: {opportunity.status}).")
  return opportunity

/-- Each invited organization exists, and none is invited twice. -/
def requireProviders (db : Db) (providerOrgIds : List Uuid) : Except Thrown Unit :=
  throwIf ((db.organizations.filter (· ∈ providerOrgIds)).length ≠ providerOrgIds.length)
    (badRequest "One or more invited provider organizations do not exist.")

/-- The recipient row that makes the actor's organization a participant. -/
def recipientOf (db : Db) (call : RfqCall) : Option RFQRecipient :=
  call.actor.organizationId.bind
    (RfqRecipientRepository.findByRfqAndProviderOrg db call.rfq.id)

def requireOnRfq (call : RfqCall) (action : Action) (isParticipant : Bool := false) :
    Except Thrown Unit :=
  requireAllowed (can call.actor action ⟨.rfq, some call.opportunity.ownerOrgId⟩ { isParticipant })

/-- A recipient of the RFQ that can still move to the given state. -/
def precheckRecipient (action : Action) (target : RfqRecipientState) (db : Db) (call : RfqCall) :
    Except Thrown RFQRecipient := do
  requireOnRfq call action (recipientOf db call).isSome
  let recipient ← orThrow (recipientOf db call)
    (notFound "You are not an invited recipient of this RFQ.")
  assertValidRfqRecipientTransition recipient.state target
  return recipient

def precheckDecline : Db → RfqCall → Except Thrown RFQRecipient :=
  precheckRecipient .rfqDecline .declined

def precheckSubmit : Db → RfqCall → Except Thrown RFQRecipient :=
  precheckRecipient .rfqSubmitQuote .quoted

def loadQuote (db : Db) (call : RfqCall) (quoteId : Uuid) : Except Thrown Quote :=
  orThrow ((QuoteRepository.findById db quoteId).filter (·.rfqId = call.rfq.id))
    (notFound "Quote not found on this RFQ.")

/-- What `withdrawQuote` checks once it has read its quote. -/
def precheckWithdraw (db : Db) (call : RfqCall) (quote : Quote) : Except Thrown Unit := do
  requireOnRfq call .rfqWithdrawQuote (recipientOf db call).isSome
  throwIf (some quote.providerOrgId ≠ call.actor.organizationId)
    (forbidden "You may only withdraw your own quote.")
  assertValidQuoteTransition quote.status .withdrawn

/-- The quote is read here; the statuses of the RFQ and of the opportunity are those read before. -/
def precheckSelect (db : Db) (call : RfqCall) (quoteId : Uuid) : Except Thrown Quote := do
  requireOnRfq call .rfqSelectQuote
  let quote ← loadQuote db call quoteId
  assertValidQuoteTransition quote.status .selected
  assertValidRfqTransition call.rfq.status .selected
  assertValidOpportunityTransition call.opportunity.status .selected
  return quote

/-! ### Under the lock -/

/-- The status that `submitQuote` goes on with. -/
def reloadRfqStatus (db : Db) (call : RfqCall) : Except Thrown RfqStatus := do
  let freshRfq ← orThrow (RfqRepository.findById db call.rfq.id)
    (internal "RFQ disappeared mid-transaction.")
  throwIf (freshRfq.status = .selected ∨ freshRfq.status = .declined ∨ freshRfq.status = .expired)
    (conflict s!"This RFQ is no longer accepting quotes (status: {freshRfq.status}).")
  return freshRfq.status

/-- `withdrawQuote` and `selectQuote` check their quote again. -/
def revalidateQuote (db : Db) (quoteId : Uuid) (target : QuoteStatus) : Except Thrown Unit := do
  let freshQuote ← orThrow (QuoteRepository.findById db quoteId)
    (internal "Quote disappeared mid-transaction.")
  assertValidQuoteTransition freshQuote.status target

/-- The status that an RFQ would expire from. -/
def expirableStatus (db : Db) (rfqId : Uuid) : Option RfqStatus :=
  ((RfqRepository.findById db rfqId).map (·.status)).filter (· ∈ RfqRepository.expirableStatuses)

/-! ### Transactions -/

def record (f : Trails → Trails) : Tx Db Thrown PUnit :=
  modify fun db : Db ↦ { db with trails := f db.trails }

/-- What becomes of an opportunity that was at `src` when it was read, before the transaction. -/
def cascade (opportunity : Opportunity) (src dst : OpportunityStatus) : Tx Db Thrown PUnit :=
  if opportunity.status = src then do
    Tx.check (assertValidOpportunityTransition src dst)
    let _ ← OpportunityRepository.updateStatus opportunity.id dst
  else pure ⟨⟩

/-- A unique violation anywhere in the transaction becomes a conflict. -/
def conflictOnDuplicate {α : Type} (message : String) (body : Tx Db Thrown α) : Tx Db Thrown α :=
  fun db ↦ runUniqueConstraintSafe (body db) message

structure RfqDetail where
  rfq : RFQ
  merchantOrgId : Uuid
  version : RFQVersion
  recipients : List RFQRecipient
  deriving DecidableEq, Repr

def createTrails (env : Env) (call : CreateCall) (rfq : RFQ) (t : Trails) : Trails :=
  (t.audit call.actor call.context (some call.opportunity.ownerOrgId) "rfq.created" "rfq" rfq.id
    [("opportunityId", .string call.opportunity.id),
     ("providerOrgIds", .strings call.input.providerOrgIds),
     ("dueAt", .string (env.toISOString rfq.dueAt))]).timeline call.actor call.context "rfq.sent"
    "rfq" rfq.id
    [("opportunityId", .string call.opportunity.id),
     ("recipientOrgIds", .strings call.input.providerOrgIds), ("versionNumber", .number 1)]

/-- A version number is unique in its RFQ, which is new. -/
def createTx (env : Env) (d : Draws) (call : CreateCall) : Tx Db Thrown RfqDetail := do
  let rfq ← rfqs.insert .uniqueViolation
    { id := d.ids 0, opportunityId := call.opportunity.id, status := .sent,
      dueAt := call.input.dueAt }
  Tx.check (env.assertJsonSafePlainObject call.input.disclosureSnapshot
    "RFQVersion.disclosureSnapshot")
  let version ← rfqVersions.insert .uniqueViolation
    { id := d.ids 1, rfqId := rfq.id, versionNumber := 1, packetType := call.input.packetType,
      disclosureSnapshot := call.input.disclosureSnapshot }
  let recipients ← Table.insertEach (RfqRecipientRepository.create rfq.id)
    (fun n ↦ d.ids (n + 2)) call.input.providerOrgIds
  cascade call.opportunity .matchReady .invited
  record (createTrails env call rfq)
  return ⟨rfq, call.opportunity.ownerOrgId, version, recipients⟩

def declineTrails (call : DeclineCall) (t : Trails) : Trails :=
  (t.audit call.actor call.context (some call.opportunity.ownerOrgId) "rfq.declined" "rfq"
    call.rfq.id [("providerOrgId", .string call.recipient.providerOrgId)]).timeline call.actor
    call.context "rfq.declined" "rfq" call.rfq.id
    [("providerOrgId", .string call.recipient.providerOrgId),
     ("declineReason", .string call.input.declineReason)]

def declineTx (call : DeclineCall) : Tx Db Thrown RFQRecipient := do
  let updated ← RfqRecipientRepository.updateState call.recipient.id .declined
    (some call.input.declineReason)
  record (declineTrails call)
  return updated

/-- `actor.organizationId!` is the organization that the recipient was found by. -/
def newQuote (d : Draws) (call : SubmitCall) (quoteVersion : ℕ) : Quote where
  id := d.ids 0
  rfqId := call.rfq.id
  rfqRecipientId := call.recipient.id
  providerOrgId := call.recipient.providerOrgId
  quoteVersion := quoteVersion
  currency := call.input.currency
  validUntil := call.input.validUntil
  terms := call.input.terms

def markRecipientQuoted (recipient : RFQRecipient) : Tx Db Thrown PUnit :=
  if recipient.state ≠ .quoted then do
    let _ ← RfqRecipientRepository.updateState recipient.id .quoted
  else pure ⟨⟩

def markRfqQuoted (rfqId : Uuid) (freshStatus : RfqStatus) : Tx Db Thrown PUnit :=
  if freshStatus ≠ .quoted then do
    Tx.check (assertValidRfqTransition freshStatus .quoted)
    let _ ← RfqRepository.updateStatus rfqId .quoted
  else pure ⟨⟩

def submitTrails (call : SubmitCall) (quote : Quote) (t : Trails) : Trails :=
  let submitted : List (String × JsonValue) :=
    [("quoteId", .string quote.id), ("providerOrgId", .string quote.providerOrgId),
     ("quoteVersion", .number quote.quoteVersion)]
  (t.audit call.actor call.context (some call.opportunity.ownerOrgId) "quote.submitted" "rfq"
    call.rfq.id submitted).timeline call.actor call.context "quote.submitted" "rfq" call.rfq.id
    submitted

def submitQuoteTx (env : Env) (d : Draws) (call : SubmitCall) (freshStatus : RfqStatus)
    (quoteVersion : ℕ) : Tx Db Thrown Quote := do
  let quote ← QuoteRepository.create env.assertJsonSafePlainObject (newQuote d call quoteVersion)
  markRecipientQuoted call.recipient
  markRfqQuoted call.rfq.id freshStatus
  cascade call.opportunity .invited .quoted
  record (submitTrails call quote)
  return quote

def withdrawTrails (call : WithdrawCall) (t : Trails) : Trails :=
  (t.audit call.actor call.context (some call.opportunity.ownerOrgId) "quote.withdrawn" "rfq"
    call.rfq.id [("quoteId", .string call.quote.id)]).timeline call.actor call.context
    "quote.withdrawn" "rfq" call.rfq.id
    [("quoteId", .string call.quote.id), ("providerOrgId", .string call.quote.providerOrgId)]

def withdrawQuoteTx (call : WithdrawCall) : Tx Db Thrown Quote := do
  let updated ← QuoteRepository.updateStatus call.quote.id .withdrawn
  record (withdrawTrails call)
  return updated

def participant (room : DealRoom) (id organizationId : Uuid) (participantRole : ParticipantRole) :
    DealRoomParticipant :=
  { id, dealRoomId := room.id, organizationId, participantRole }

def selectTrails (call : SelectCall) (room : DealRoom) (decision : DealDecision) (t : Trails) :
    Trails :=
  let joined (organizationId : Uuid) (role : ParticipantRole) (t : Trails) : Trails :=
    t.timeline call.actor call.context "deal.participant_added" "deal_room" room.id
      [("organizationId", .string organizationId), ("participantRole", .string (toString role))]
  let audited := t.audit call.actor call.context (some call.opportunity.ownerOrgId)
    "rfq.quote_selected" "rfq" call.rfq.id
    [("selectedQuoteId", .string room.selectedQuoteId), ("dealRoomId", .string room.id)]
  let selected := audited.timeline call.actor call.context "quote.selected" "rfq" call.rfq.id
    [("quoteId", .string room.selectedQuoteId), ("dealRoomId", .string room.id)]
  let opened := selected.timeline call.actor call.context "deal.opened" "deal_room" room.id
    [("opportunityId", .string room.opportunityId), ("rfqId", .string room.rfqId),
     ("selectedQuoteId", .string room.selectedQuoteId),
     ("merchantOrgId", .string room.merchantOrgId), ("providerOrgId", .string room.providerOrgId)]
  (joined room.providerOrgId .provider (joined room.merchantOrgId .merchant opened)).timeline
    call.actor call.context "deal.decision_recorded" "deal_room" room.id
    [("decisionId", .string decision.id), ("decisionType", .string "QUOTE_SELECTED"),
     ("relatedQuoteId", .string room.selectedQuoteId)]

/-- The deal room that a selection opens. -/
def newRoom (d : Draws) (call : SelectCall) (selectedQuote : Quote) : DealRoom where
  id := d.ids 0
  opportunityId := call.opportunity.id
  rfqId := call.rfq.id
  selectedQuoteId := selectedQuote.id
  merchantOrgId := call.opportunity.ownerOrgId
  providerOrgId := selectedQuote.providerOrgId

def selectQuoteTx (d : Draws) (call : SelectCall) (consideredQuoteIds : List Uuid) :
    Tx Db Thrown DealRoom := do
  let selectedQuote ← QuoteRepository.updateStatus call.quote.id .selected
  let _ ← RfqRepository.updateStatus call.rfq.id .selected
  let _ ← OpportunityRepository.updateStatus call.opportunity.id .selected
  let room ← DealRoomRepository.create (newRoom d call selectedQuote)
  let _ ← DealRoomParticipantRepository.create
    (participant room (d.ids 1) room.merchantOrgId .merchant)
  let _ ← DealRoomParticipantRepository.create
    (participant room (d.ids 2) room.providerOrgId .provider)
  let decision ← dealDecisions.insert .uniqueViolation
    { id := d.ids 3, dealRoomId := room.id, reason := call.input.reason,
      relatedQuoteId := room.selectedQuoteId, consideredQuoteIds, actorUserId := call.actor.userId,
      actorOrgId := call.actor.organizationId, actorRole := call.actor.role }
  record (selectTrails call room decision)
  return room

/-! ### The expiry job -/

structure RfqExpiryJobResult where
  scanned : ℕ
  expired : ℕ
  deriving DecidableEq, Repr

/-- A job that is expiring one RFQ, with the RFQs that it has yet to look at. -/
structure ExpiryRun where
  rfqId : Uuid
  dueAt : Instant
  rest : List (Uuid × Instant)
  result : RfqExpiryJobResult
  deriving DecidableEq, Repr

/-- The idempotent handler. -/
def expire (env : Env) (run : ExpiryRun) (fromStatus : RfqStatus) : Tx Db Thrown Expired := do
  Tx.check (assertValidRfqTransition fromStatus .expired)
  let _ ← RfqRepository.updateStatus run.rfqId .expired
  record fun t ↦ t.worker "rfq.expired" "rfq" run.rfqId
    [("from", .string (toString fromStatus)), ("dueAt", .string (env.toISOString run.dueAt))]
  return {}

def expiryInfo (env : Env) (run : ExpiryRun) (fromStatus : RfqStatus) : JobIdempotencyInfo :=
  let dueAtForKey := env.toISOString run.dueAt
  { scope := "worker.rfq-expiry", key := s!"{run.rfqId}:{dueAtForKey}",
    requestPayload :=
      s!"\x7b\"rfqId\":\"{run.rfqId}\",\"dueAt\":\"{dueAtForKey}\",\"fromStatus\":\"{fromStatus}\"\x7d" }

/-- Whether the RFQ counts as expired. -/
def expireOne (env : Env) (d : Draws) (run : ExpiryRun) : Option RfqStatus → Tx Db Thrown Bool
  | none => pure false
  | some fromStatus => do
    let _ ← Jobs.inTransaction (Jobs.withJobIdempotency idempotencyKeys env.sha256 d.now (d.ids 0)
      (expiryInfo env run fromStatus) (expire env run fromStatus))
    return true

/-! ### Calls -/

inductive Request
  | create (input : CreateRfqRequest)
  | decline (rfqId : Uuid) (input : DeclineRfqRequest)
  | submitQuote (rfqId : Uuid) (input : SubmitQuoteRequest)
  | withdrawQuote (rfqId quoteId : Uuid)
  | selectQuote (rfqId : Uuid) (input : SelectQuoteRequest)
  deriving DecidableEq, Repr

/-- A request on an RFQ, without the RFQ's id. -/
inductive RfqRequest
  | decline (input : DeclineRfqRequest)
  | submitQuote (input : SubmitQuoteRequest)
  | withdrawQuote (quoteId : Uuid)
  | selectQuote (input : SelectQuoteRequest)
  deriving DecidableEq, Repr

inductive Response
  | created (detail : RfqDetail)
  | declined (recipient : RFQRecipient)
  | submitted (quote : Quote)
  | withdrew (quote : Quote)
  | selected (room : DealRoom)
  deriving DecidableEq, Repr

/-- How far a call, or a job, has got. -/
inductive Local
  | called (actor : Actor) (context : RequestContext) (request : Request)
  /-- `create`: the opportunity is read; the providers exist. -/
  | createRead (call : CreateCall)
  | createReady (call : CreateCall)
  /-- On an RFQ: the RFQ is read; its opportunity is read. -/
  | rfqRead (actor : Actor) (context : RequestContext) (rfq : RFQ) (request : RfqRequest)
  | opportunityRead (call : RfqCall) (request : RfqRequest)
  /-- `decline`: the checks passed; the lock is taken. -/
  | declineReady (call : DeclineCall)
  | declineLocked (call : DeclineCall)
  /-- `submitQuote`: the checks passed; the lock is taken; the status is read again; the version is
  drawn. -/
  | submitReady (call : SubmitCall)
  | submitLocked (call : SubmitCall)
  | submitFresh (call : SubmitCall) (freshStatus : RfqStatus)
  | submitNumbered (call : SubmitCall) (freshStatus : RfqStatus) (quoteVersion : ℕ)
  /-- `withdrawQuote`: the quote is read; the checks passed; the lock is taken; the quote is checked
  again. -/
  | withdrawRead (call : WithdrawCall)
  | withdrawReady (call : WithdrawCall)
  | withdrawLocked (call : WithdrawCall)
  | withdrawFresh (call : WithdrawCall)
  /-- `selectQuote`: the quote is read and the checks passed; the quotes to compare are read; the lock
  is taken; the quote is checked again. -/
  | selectRead (call : SelectCall)
  | selectReady (call : SelectCall) (consideredQuoteIds : List Uuid)
  | selectLocked (call : SelectCall) (consideredQuoteIds : List Uuid)
  | selectFresh (call : SelectCall) (consideredQuoteIds : List Uuid)
  /-- The job: delivered, for one RFQ or as the sweep; on its way to the next RFQ; the lock is taken;
  the status is read. -/
  | delivered (rfqId : Option Uuid)
  | expiring (run : ExpiryRun)
  | expiryLocked (run : ExpiryRun)
  | expiryFresh (run : ExpiryRun) (fromStatus : Option RfqStatus)
  | returned (response : Response)
  | finished (result : RfqExpiryJobResult)
  | threw (thrown : Thrown)
  | crashed
  deriving DecidableEq, Repr

/-- The next RFQ of a job, or its end. -/
def proceed (result : RfqExpiryJobResult) : List (Uuid × Instant) → Local
  | [] => .finished result
  | (rfqId, dueAt) :: rest => .expiring ⟨rfqId, dueAt, rest, result⟩

/-- What a delivery looks up, outside any transaction. -/
def findDue (db : Db) (now : Instant) : Option Uuid → Local
  | some rfqId =>
    match RfqRepository.findById db rfqId with
    | none => .finished ⟨0, 0⟩
    | some rfq =>
      if now < rfq.dueAt then .finished ⟨1, 0⟩ else proceed ⟨1, 0⟩ [(rfqId, rfq.dueAt)]
  | none =>
    let overdue := RfqRepository.listOverdue db now
    proceed ⟨overdue.length, 0⟩ (overdue.map fun rfq ↦ (rfq.id, rfq.dueAt))

/-- Once an RFQ has been dealt with. -/
def afterOne (run : ExpiryRun) (expired : Bool) : Local :=
  proceed { run.result with expired := run.result.expired + if expired then 1 else 0 } run.rest

/-- What a call does first. -/
def enter (db : Db) (actor : Actor) (context : RequestContext) : Request → Except Thrown Local
  | .create input => do
    let opportunity ← precheckCreate db actor input
    return .createRead ⟨actor, context, input, opportunity⟩
  | .decline rfqId input => do
    let rfq ← loadRfq db rfqId
    return .rfqRead actor context rfq (.decline input)
  | .submitQuote rfqId input => do
    let rfq ← loadRfq db rfqId
    return .rfqRead actor context rfq (.submitQuote input)
  | .withdrawQuote rfqId quoteId => do
    let rfq ← loadRfq db rfqId
    return .rfqRead actor context rfq (.withdrawQuote quoteId)
  | .selectQuote rfqId input => do
    let rfq ← loadRfq db rfqId
    return .rfqRead actor context rfq (.selectQuote input)

/-- What an operation on an RFQ reads third. -/
def check (db : Db) (call : RfqCall) : RfqRequest → Except Thrown Local
  | .decline input => do
    let recipient ← precheckDecline db call
    return .declineReady ⟨call, input, recipient⟩
  | .submitQuote input => do
    let recipient ← precheckSubmit db call
    return .submitReady ⟨call, input, recipient⟩
  | .withdrawQuote quoteId => do
    let quote ← loadQuote db call quoteId
    return .withdrawRead ⟨call, quote⟩
  | .selectQuote input => do
    let quote ← precheckSelect db call input.quoteId
    return .selectRead ⟨call, input, quote⟩

def calls (env : Env) : CallSystem Db Thrown Int Draws Local where
  next d
    | .called actor context request => .query fun db ↦ enter db actor context request
    | .createRead call => .query fun db ↦ do
      requireProviders db call.input.providerOrgIds
      return .createReady call
    | .createReady call =>
      .commit ((fun detail ↦ .returned (.created detail)) <$> createTx env d call)
    | .rfqRead actor context rfq request => .query fun db ↦ do
      let opportunity ← loadOpportunity db rfq
      return .opportunityRead ⟨actor, context, rfq, opportunity⟩ request
    | .opportunityRead call request => .query fun db ↦ check db call request
    | .declineReady call => .lock (env.hashtext call.rfq.id) (.declineLocked call)
    | .declineLocked call =>
      .commit ((fun recipient ↦ .returned (.declined recipient)) <$> declineTx call)
    | .submitReady call => .lock (env.hashtext call.rfq.id) (.submitLocked call)
    | .submitLocked call => .query fun db ↦ do
      let freshStatus ← reloadRfqStatus db call.toRfqCall
      return .submitFresh call freshStatus
    | .submitFresh call freshStatus => .query fun db ↦
      .ok (.submitNumbered call freshStatus
        (QuoteRepository.nextQuoteVersion db call.recipient.id))
    | .submitNumbered call freshStatus quoteVersion =>
      .commit ((fun quote ↦ .returned (.submitted quote)) <$> conflictOnDuplicate
        "A quote submission for this RFQ is already being processed — retry once it completes."
        (submitQuoteTx env d call freshStatus quoteVersion))
    | .withdrawRead call => .query fun db ↦ do
      precheckWithdraw db call.toRfqCall call.quote
      return .withdrawReady call
    | .withdrawReady call => .lock (env.hashtext call.rfq.id) (.withdrawLocked call)
    | .withdrawLocked call => .query fun db ↦ do
      revalidateQuote db call.quote.id .withdrawn
      return .withdrawFresh call
    | .withdrawFresh call =>
      .commit ((fun quote ↦ .returned (.withdrew quote)) <$> withdrawQuoteTx call)
    | .selectRead call => .query fun db ↦
      .ok (.selectReady call ((QuoteRepository.listByRfq db call.rfq.id).map (·.id)))
    | .selectReady call considered => .lock (env.hashtext call.rfq.id) (.selectLocked call considered)
    | .selectLocked call considered => .query fun db ↦ do
      revalidateQuote db call.quote.id .selected
      return .selectFresh call considered
    | .selectFresh call considered =>
      .commit ((fun room ↦ .returned (.selected room)) <$> conflictOnDuplicate
        "This RFQ's quote selection is already being processed — retry once it completes."
        (selectQuoteTx d call considered))
    | .delivered rfqId => .query fun db ↦ .ok (findDue db d.now rfqId)
    | .expiring run => .lock (env.hashtext run.rfqId) (.expiryLocked run)
    | .expiryLocked run => .query fun db ↦ .ok (.expiryFresh run (expirableStatus db run.rfqId))
    | .expiryFresh run fromStatus => .commit (afterOne run <$> expireOne env d run fromStatus)
    | .returned _ | .finished _ | .threw _ | .crashed => .stop
  ended
    | .returned _ | .finished _ | .threw _ | .crashed => true
    | _ => false
  failed := .threw
  crashed := .crashed

end TolPlatform.Rfqs
