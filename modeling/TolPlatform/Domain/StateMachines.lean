import Mathlib.Data.PNat.Defs
import TolPlatform.Library.Evolution
import TolPlatform.Shared.Errors

/-!
# The status tables of the market

`packages/domain/src/{opportunity,rfq,lockbox,claim,passport,deal}-states.ts`. Each machine is an
enumeration, its transition table and an assertion that throws on anything that is not an edge of it. The
assertions are one definition, `assertValidTransition`; only the RFQ's own differs, as its table has an edge
from `QUOTED` to itself. The runtime guards against strings outside an enumeration have no
counterpart: an inductive type excludes them.
-/

namespace TolPlatform

/-! ### Asserting a transition -/

section

variable {S : Type} [DecidableEq S] [ToString S]

def invalidTransition (entity : String) (src dst : S) : Thrown :=
  .domainTransition s!"invalid {entity} transition: {src} -> {dst}"

/-- Throws on an illegal edge, and on a transition to the same state. -/
def assertValidTransition (entity : String) (transitions : S → List S) (src dst : S) :
    Except Thrown Unit :=
  throwIf (src = dst ∨ dst ∉ transitions src) (invalidTransition entity src dst)

theorem assertValidTransition_eq_ok_iff {entity : String} {transitions : S → List S} {src dst : S}
    {u : Unit} : assertValidTransition entity transitions src dst = .ok u ↔
      src ≠ dst ∧ dst ∈ transitions src := by
  rw [assertValidTransition, throwIf_eq_ok_iff, not_or, not_not]

end

/-! ### Opportunity -/

inductive OpportunityStatus
  | draft | readinessBlocked | matchReady | invited | quoted | selected | activating | live | closed
  deriving DecidableEq, Repr

instance : ToString OpportunityStatus where
  toString
    | .draft => "DRAFT"
    | .readinessBlocked => "READINESS_BLOCKED"
    | .matchReady => "MATCH_READY"
    | .invited => "INVITED"
    | .quoted => "QUOTED"
    | .selected => "SELECTED"
    | .activating => "ACTIVATING"
    | .live => "LIVE"
    | .closed => "CLOSED"

/-- `OPPORTUNITY_TRANSITIONS`. -/
def opportunityTransitions : OpportunityStatus → List OpportunityStatus
  | .draft => [.readinessBlocked, .matchReady]
  | .readinessBlocked => [.draft, .matchReady]
  | .matchReady => [.readinessBlocked, .invited]
  | .invited => [.matchReady, .quoted]
  | .quoted => [.invited, .selected]
  | .selected => [.activating, .quoted]
  | .activating => [.live, .selected]
  | .live => [.closed]
  | .closed => []

def assertValidOpportunityTransition (src dst : OpportunityStatus) : Except Thrown Unit :=
  assertValidTransition "Opportunity" opportunityTransitions src dst

/-! ### RFQ -/

inductive RfqStatus
  | draft | sent | acknowledged | questions | quoted | expired | declined | selected
  deriving DecidableEq, Repr

instance : ToString RfqStatus where
  toString
    | .draft => "DRAFT"
    | .sent => "SENT"
    | .acknowledged => "ACKNOWLEDGED"
    | .questions => "QUESTIONS"
    | .quoted => "QUOTED"
    | .expired => "EXPIRED"
    | .declined => "DECLINED"
    | .selected => "SELECTED"

/-- `RFQ_TRANSITIONS`. -/
def rfqTransitions : RfqStatus → List RfqStatus
  | .draft => [.sent]
  | .sent => [.acknowledged, .questions, .quoted, .expired, .declined]
  | .acknowledged => [.questions, .quoted, .expired, .declined]
  | .questions => [.quoted, .expired, .declined]
  | .quoted => [.selected, .quoted, .expired, .declined]
  | .expired => []
  | .declined => []
  | .selected => []

/-- Re-entering `QUOTED` is not rejected: a second provider may quote after the first. -/
def assertValidRfqTransition (src dst : RfqStatus) : Except Thrown Unit :=
  throwIf (dst ∉ rfqTransitions src) (invalidTransition "RFQ" src dst)

inductive RfqRecipientState
  | invited | acknowledged | declined | quoted | expired
  deriving DecidableEq, Repr

instance : ToString RfqRecipientState where
  toString
    | .invited => "INVITED"
    | .acknowledged => "ACKNOWLEDGED"
    | .declined => "DECLINED"
    | .quoted => "QUOTED"
    | .expired => "EXPIRED"

/-- `RFQ_RECIPIENT_TRANSITIONS`. -/
def rfqRecipientTransitions : RfqRecipientState → List RfqRecipientState
  | .invited => [.acknowledged, .declined, .quoted, .expired]
  | .acknowledged => [.declined, .quoted, .expired]
  | .declined => []
  | .quoted => [.declined, .expired]
  | .expired => []

def assertValidRfqRecipientTransition (src dst : RfqRecipientState) : Except Thrown Unit :=
  assertValidTransition "RFQRecipient" rfqRecipientTransitions src dst

inductive QuoteStatus
  | submitted | selected | rejected | expired | withdrawn
  deriving DecidableEq, Repr

instance : ToString QuoteStatus where
  toString
    | .submitted => "SUBMITTED"
    | .selected => "SELECTED"
    | .rejected => "REJECTED"
    | .expired => "EXPIRED"
    | .withdrawn => "WITHDRAWN"

/-- `QUOTE_TRANSITIONS`. -/
def quoteTransitions : QuoteStatus → List QuoteStatus
  | .submitted => [.selected, .rejected, .expired, .withdrawn]
  | .selected => []
  | .rejected => []
  | .expired => []
  | .withdrawn => []

def assertValidQuoteTransition (src dst : QuoteStatus) : Except Thrown Unit :=
  assertValidTransition "Quote" quoteTransitions src dst

/-! ### Lockbox -/

inductive LockboxStatus
  | draft | sealed | committed | frozen | opened | matchEligible | withdrawn | disputed
  deriving DecidableEq, Repr

instance : ToString LockboxStatus where
  toString
    | .draft => "DRAFT"
    | .sealed => "SEALED"
    | .committed => "COMMITTED"
    | .frozen => "FROZEN"
    | .opened => "OPENED"
    | .matchEligible => "MATCH_ELIGIBLE"
    | .withdrawn => "WITHDRAWN"
    | .disputed => "DISPUTED"

/-- `LOCKBOX_TRANSITIONS`. -/
def lockboxTransitions : LockboxStatus → List LockboxStatus
  | .draft => [.sealed]
  | .sealed => [.committed, .withdrawn]
  | .committed => [.frozen, .withdrawn, .disputed]
  | .frozen => [.opened, .disputed]
  | .opened => [.matchEligible, .disputed]
  | .matchEligible => [.withdrawn, .disputed]
  | .disputed => [.frozen, .withdrawn]
  | .withdrawn => []

def assertValidLockboxTransition (src dst : LockboxStatus) : Except Thrown Unit :=
  assertValidTransition "Lockbox" lockboxTransitions src dst

/-- `LOCKBOX_RELEASE_CASCADE`. -/
def lockboxReleaseCascade : List LockboxStatus := [.sealed, .committed, .frozen, .opened]

/-- `for (let i = startIdx; …) assertValidLockboxTransition(CASCADE[i], CASCADE[i + 1])`. -/
def assertHops : List LockboxStatus → Except Thrown Unit
  | src :: dst :: rest => do
    assertValidLockboxTransition src dst
    assertHops (dst :: rest)
  | _ => .ok ()

/-- The release cascade from where the box stands to `OPENED`. -/
def assertValidLockboxReleaseCascade (currentStatus : LockboxStatus) : Except Thrown Unit :=
  if currentStatus = .opened then
    .error (.domainTransition s!"invalid Lockbox transition: {currentStatus} -> OPENED (already released — nothing to do)")
  else if currentStatus ∉ lockboxReleaseCascade then
    .error (.domainTransition s!"invalid Lockbox transition: {currentStatus} -> OPENED (via release cascade)")
  else assertHops (lockboxReleaseCascade.drop (lockboxReleaseCascade.idxOf currentStatus))

/-- States a box can be withdrawn from. -/
def canWithdrawFrom (status : LockboxStatus) : Bool := .withdrawn ∈ lockboxTransitions status

/-! ### Claim -/

inductive ClaimStatus
  | filed | scored | verified | partial_ | disputed | rejected | expired | withdrawn
  deriving DecidableEq, Repr

instance : ToString ClaimStatus where
  toString
    | .filed => "FILED"
    | .scored => "SCORED"
    | .verified => "VERIFIED"
    | .partial_ => "PARTIAL"
    | .disputed => "DISPUTED"
    | .rejected => "REJECTED"
    | .expired => "EXPIRED"
    | .withdrawn => "WITHDRAWN"

/-- `CLAIM_TRANSITIONS`. -/
def claimTransitions : ClaimStatus → List ClaimStatus
  | .filed => [.scored, .withdrawn]
  | .scored => [.verified, .partial_, .rejected, .disputed, .expired, .withdrawn]
  | .verified => [.disputed]
  | .partial_ => [.disputed]
  | .disputed => [.verified, .partial_, .rejected]
  | .rejected => []
  | .expired => []
  | .withdrawn => []

def assertValidClaimTransition (src dst : ClaimStatus) : Except Thrown Unit :=
  assertValidTransition "Claim" claimTransitions src dst

inductive ClaimDisputeStatus
  | open_ | decided
  deriving DecidableEq, Repr

instance : ToString ClaimDisputeStatus where
  toString
    | .open_ => "OPEN"
    | .decided => "DECIDED"

/-- `CLAIM_DISPUTE_TRANSITIONS`. -/
def claimDisputeTransitions : ClaimDisputeStatus → List ClaimDisputeStatus
  | .open_ => [.decided]
  | .decided => []

def assertValidClaimDisputeTransition (src dst : ClaimDisputeStatus) : Except Thrown Unit :=
  assertValidTransition "ClaimDispute" claimDisputeTransitions src dst

inductive ClaimDisputeResolution
  | upheldOriginal | partialAttribution | rejectedOriginal
  deriving DecidableEq, Repr

/-- What a reviewer can decide: never `DISPUTED`. -/
inductive ClaimDecisionOutcome
  | verified | partial_ | rejected
  deriving DecidableEq, Repr

/-- The claim status an outcome puts the claim into. -/
def ClaimDecisionOutcome.toStatus : ClaimDecisionOutcome → ClaimStatus
  | .verified => .verified
  | .partial_ => .partial_
  | .rejected => .rejected

theorem ClaimDecisionOutcome.toStatus_ne_disputed (outcome : ClaimDecisionOutcome) :
    outcome.toStatus ≠ .disputed := by
  cases outcome <;> decide

/-! ### Passport -/

inductive PassportStatus
  | draft | incomplete | ready | verified | stale | suspended
  deriving DecidableEq, Repr

instance : ToString PassportStatus where
  toString
    | .draft => "DRAFT"
    | .incomplete => "INCOMPLETE"
    | .ready => "READY"
    | .verified => "VERIFIED"
    | .stale => "STALE"
    | .suspended => "SUSPENDED"

/-- `PASSPORT_TRANSITIONS`. -/
def passportTransitions : PassportStatus → List PassportStatus
  | .draft => [.incomplete, .ready, .suspended]
  | .incomplete => [.ready, .suspended]
  | .ready => [.incomplete, .verified, .stale, .suspended]
  | .verified => [.incomplete, .ready, .stale, .suspended]
  | .stale => [.incomplete, .ready, .verified, .suspended]
  | .suspended => [.incomplete]

def assertValidPassportTransition (src dst : PassportStatus) : Except Thrown Unit :=
  assertValidTransition "Passport" passportTransitions src dst

/-- The guard against a `maxAgeDays` that is not positive has no counterpart: `ℕ+` excludes it. -/
def isPassportReadinessStale (status : PassportStatus) (lastComputedAt : Option Instant)
    (now : Instant) (maxAgeDays : ℕ+) : Bool :=
  if status ≠ .ready ∧ status ≠ .verified then false
  else match lastComputedAt with
    | none => false
    | some computedAt =>
      let ageMs := now - computedAt
      maxAgeDays * 24 * 60 * 60 * 1000 < ageMs

def targetStatusAfterRecompute (current : PassportStatus) (hasFacts blocked : Bool) :
    PassportStatus :=
  if current = .suspended then current
  else if blocked then
    if current = .draft ∧ !hasFacts then .draft else .incomplete
  else if current = .verified then .verified
  else .ready

/-- A recompute never goes against the transition table. -/
theorem targetStatusAfterRecompute_edge (current : PassportStatus) (hasFacts blocked : Bool) :
    targetStatusAfterRecompute current hasFacts blocked = current ∨
      targetStatusAfterRecompute current hasFacts blocked ∈ passportTransitions current := by
  cases current <;> cases hasFacts <;> cases blocked <;> decide

/-- A recompute leaves no passport `STALE`. -/
theorem targetStatusAfterRecompute_ne_stale (current : PassportStatus) (hasFacts blocked : Bool) :
    targetStatusAfterRecompute current hasFacts blocked ≠ .stale := by
  cases current <;> cases hasFacts <;> cases blocked <;> decide

/-- What is computed no earlier than now is not stale now. -/
theorem isPassportReadinessStale_of_le {status : PassportStatus} {computedAt now : Instant}
    {maxAgeDays : ℕ+} (h : now ≤ computedAt) :
    isPassportReadinessStale status (some computedAt) now maxAgeDays = false := by
  unfold isPassportReadinessStale
  split
  · rfl
  · have hpos := maxAgeDays.pos
    rw [decide_eq_false_iff_not, not_lt]
    have hwindow : (0 : ℤ) ≤ maxAgeDays * 24 * 60 * 60 * 1000 := by omega
    exact Int.le_trans (Int.sub_nonpos_of_le h) hwindow

/-! ### Deal room -/

inductive DealRoomStatus
  | open | conditions | approved | declined | activation | live | archived
  deriving DecidableEq, Repr

instance : ToString DealRoomStatus where
  toString
    | .open => "OPEN"
    | .conditions => "CONDITIONS"
    | .approved => "APPROVED"
    | .declined => "DECLINED"
    | .activation => "ACTIVATION"
    | .live => "LIVE"
    | .archived => "ARCHIVED"

/-- `DEAL_ROOM_TRANSITIONS`. -/
def dealRoomTransitions : DealRoomStatus → List DealRoomStatus
  | .open => [.conditions, .approved, .declined]
  | .conditions => [.approved, .declined]
  | .approved => [.activation, .declined]
  | .declined => []
  | .activation => [.live, .declined]
  | .live => [.archived]
  | .archived => []

def assertValidDealRoomTransition (src dst : DealRoomStatus) : Except Thrown Unit :=
  assertValidTransition "DealRoom" dealRoomTransitions src dst

inductive DealConditionState
  | pending | satisfied | waived | rejected
  deriving DecidableEq, Repr

instance : ToString DealConditionState where
  toString
    | .pending => "PENDING"
    | .satisfied => "SATISFIED"
    | .waived => "WAIVED"
    | .rejected => "REJECTED"

/-- `DEAL_CONDITION_TRANSITIONS`. -/
def dealConditionTransitions : DealConditionState → List DealConditionState
  | .pending => [.satisfied, .waived, .rejected]
  | .satisfied => []
  | .waived => []
  | .rejected => [.pending]

def assertValidDealConditionTransition (src dst : DealConditionState) : Except Thrown Unit :=
  assertValidTransition "DealCondition" dealConditionTransitions src dst

inductive DealDecisionType
  | quoteSelected | approval | decline | exception
  deriving DecidableEq, Repr

instance : ToString DealDecisionType where
  toString
    | .quoteSelected => "QUOTE_SELECTED"
    | .approval => "APPROVAL"
    | .decline => "DECLINE"
    | .exception => "EXCEPTION"

end TolPlatform
