import Mathlib.Data.Prod.Lex
import Mathlib.Data.String.Basic
import TolPlatform.Library.Sorting
import TolPlatform.Rfqs.Service

/-!
# What an RFQ shows

`getById` of `apps/api/src/modules/rfqs/service.ts`, and the quotes that its route answers with: those that
`filterQuotesForViewer` of `mapper.ts` leaves. What it selects does not depend on the rest
(`QuoteRepository.filter_listByRfq`).
-/

namespace TolPlatform.Rfqs

/-- `CROSS_ORG_RFQ_ROLES`. -/
def crossOrgRfqRoles : List PersonaRole :=
  [.platformOwner, .marketplaceOperator, .complianceReviewer, .auditorReadonly]

def RfqVersionRepository.findByRfqAndVersion (db : Db) (rfqId : Uuid) (versionNumber : ℕ) :
    Option RFQVersion :=
  db.rfqVersions.find? fun v ↦ v.rfqId = rfqId ∧ v.versionNumber = versionNumber

def RfqRecipientRepository.listByRfq (db : Db) (rfqId : Uuid) : List RFQRecipient :=
  db.rfqRecipients.filter (·.rfqId = rfqId)

structure RfqRead where
  rfq : RFQ
  merchantOrgId : Uuid
  version : Option RFQVersion
  recipients : List RFQRecipient
  quotes : List Quote
  deriving DecidableEq, Repr

/-- The actor may read the RFQ of this opportunity. -/
def mayRead (db : Db) (actor : Actor) (id : Uuid) (opportunity : Opportunity) : AuthDecision :=
  can actor .rfqRead ⟨.rfq, some opportunity.ownerOrgId⟩
    { isParticipant :=
        (actor.organizationId.bind (RfqRecipientRepository.findByRfqAndProviderOrg db id)).isSome }

def getById (db : Db) (actor : Actor) (id : Uuid) : Except Thrown RfqRead := do
  let rfq ← loadRfq db id
  let opportunity ← loadOpportunity db rfq
  requireAllowed (mayRead db actor id opportunity)
  return ⟨rfq, opportunity.ownerOrgId,
    RfqVersionRepository.findByRfqAndVersion db id rfq.currentVersionNumber,
    RfqRecipientRepository.listByRfq db id, QuoteRepository.listByRfq db id⟩

/-- The RFQ's owner and the roles with cross-organization authority see everything. -/
def filterQuotesForViewer (actor : Actor) (merchantOrgId : Uuid) (quotes : List Quote) : List Quote :=
  if actor.organizationId = some merchantOrgId ∨ actor.role.any (· ∈ crossOrgRfqRoles) then quotes
  else quotes.filter (some ·.providerOrgId = actor.organizationId)

/-- The quotes that `GET /rfqs/:id` answers with. -/
def visibleQuotes (db : Db) (actor : Actor) (id : Uuid) : Except Thrown (List Quote) := do
  let detail ← getById db actor id
  return filterQuotesForViewer actor detail.merchantOrgId detail.quotes

/-! ### The order of the quotes -/

theorem QuoteRepository.listByRfq_eq (db : Db) (rfqId : Uuid) : listByRfq db rfqId =
    List.sortOn (fun q : Quote ↦ toLex (q.providerOrgId, q.quoteVersion))
      (db.quotes.filter (·.rfqId = rfqId)) := by
  refine List.mergeSort_eq_sortOn (fun a b ↦ ?_) _
  rw [decide_eq_true_eq, Prod.Lex.toLex_le_toLex]

/-- Selecting among the quotes of an RFQ is selecting among all of them. -/
theorem QuoteRepository.filter_listByRfq (db : Db) (rfqId : Uuid) (p : Quote → Bool) :
    (listByRfq db rfqId).filter p =
      List.sortOn (fun q : Quote ↦ toLex (q.providerOrgId, q.quoteVersion))
        (db.quotes.filter fun q ↦ q.rfqId = rfqId ∧ p q) := by
  rw [listByRfq_eq, List.filter_sortOn, List.filter_filter]
  refine congrArg _ (List.filter_congr fun q _ ↦ ?_)
  rw [Bool.and_comm]
  simp

end TolPlatform.Rfqs
