import Mathlib.Tactic.Common
import TolPlatform.Authz.Matrix

/-!
# `can`

`packages/authz/src/can.ts`: the single authorization decision, deny by default. `can` has no
database: whether the actor is a participant of this resource instance, or the resource is the
actor's own record, is what the caller looked up and passes in.

* `can_allowed_grant`: whatever is allowed is granted to the actor's role by the matrix.
* `can_commissionAccrual_allowed`: the ledger has no same-organization way in.
-/

namespace TolPlatform

/-! ### What is decided about -/

structure Actor where
  userId : String
  organizationId : Option String
  role : Option PersonaRole
  membershipId : Option String
  deriving DecidableEq, Repr

inductive ResourceType
  | organization | membership | person | auditEvent | opportunity | capacityProfile | rfq
  | dealRoom | lockbox | claim | passport | matchResult | commissionSchedule | revenueEvent
  | commissionAccrual
  deriving DecidableEq, Repr

instance : ToString ResourceType where
  toString
    | .organization => "organization"
    | .membership => "membership"
    | .person => "person"
    | .auditEvent => "audit_event"
    | .opportunity => "opportunity"
    | .capacityProfile => "capacity_profile"
    | .rfq => "rfq"
    | .dealRoom => "deal_room"
    | .lockbox => "lockbox"
    | .claim => "claim"
    | .passport => "passport"
    | .matchResult => "match_result"
    | .commissionSchedule => "commission_schedule"
    | .revenueEvent => "revenue_event"
    | .commissionAccrual => "commission_accrual"

/-- `privacyClass` and `id` are not read by `can`. -/
structure Resource where
  type : ResourceType
  ownerOrgId : Option String

structure AuthContext where
  /-- The resource is the actor's own record. -/
  isSelf : Bool := false
  /-- The actor's organization is named on this resource instance. -/
  isParticipant : Bool := false

structure AuthDecision where
  allowed : Bool
  reason : String
  deriving DecidableEq, Repr

/-- `ACTION_RESOURCE_TYPE`. -/
def actionResourceType : Action → ResourceType
  | .organizationRead | .organizationList | .organizationUpdate => .organization
  | .membershipRead | .membershipList | .membershipCreate | .membershipUpdateRole
  | .membershipUpdateStatus => .membership
  | .personRead | .personUpdate => .person
  | .auditRead => .auditEvent
  | .opportunityCreate | .opportunityRead | .opportunityList | .opportunityUpdate
  | .opportunityBrowseMarket => .opportunity
  | .capacityCreate | .capacityRead | .capacityList | .capacityBrowseMarket => .capacityProfile
  | .rfqCreate | .rfqRead | .rfqList | .rfqDecline | .rfqSubmitQuote | .rfqWithdrawQuote
  | .rfqSelectQuote => .rfq
  | .dealRead | .dealList | .dealPostCondition | .dealResolveCondition | .dealRecordDecision
  => .dealRoom
  | .lockboxSeal | .lockboxReadReceipt | .lockboxWithdraw | .lockboxRelease => .lockbox
  | .claimCreate | .claimRead | .claimList | .claimDispute | .claimDecide => .claim
  | .passportCreate | .passportRead | .passportList | .passportUpdate | .passportVerify
  => .passport
  | .matchingEvaluate | .matchRead | .matchList => .matchResult
  | .scheduleRead | .scheduleList | .scheduleManage => .commissionSchedule
  | .economicsRead | .economicsList | .economicsRecord => .revenueEvent
  | .ledgerRead | .ledgerList | .ledgerRecordPayment | .ledgerAdjust => .commissionAccrual

/-! ### The decision -/

def deny (reason : String) : AuthDecision := ⟨false, reason⟩

def allow (reason : String) : AuthDecision := ⟨true, reason⟩

/-- What is left once the matrix grants the action to the role: cross-org authority, participant
standing, or one's own organization. -/
def canGranted (role : PersonaRole) (organizationId : String) (action : Action)
    (resource : Resource) (context : AuthContext) : AuthDecision :=
  let grant := authorityMatrix role
  if action = .personUpdate ∧ context.isSelf = false ∧ grant.managesOtherPeopleInOwnOrg = false then
    deny s!"role \"{role}\" may only update its own person record (context.isSelf was false)"
  else if action ∈ grant.crossOrgActions then
    allow s!"role \"{role}\" has cross-org authority for \"{action}\""
  else if context.isParticipant = true ∧ action ∈ grant.participantActions then
    allow s!"role \"{role}\" has verified participant authority for \"{action}\" on this specific resource"
  else if resource.type = .commissionAccrual then
    deny s!"\"{action}\" on a commission_accrual requires cross-org authority or verified participant (recipient) standing — there is no ordinary same-org owner path for the traceable ledger"
  else match resource.ownerOrgId with
    | none =>
      deny s!"\"{action}\" requires same-org scope but resource has no ownerOrgId to compare against"
    | some ownerOrgId =>
      if ownerOrgId ≠ organizationId then
        deny s!"tenant isolation: actor's org ({organizationId}) does not match resource's org ({ownerOrgId}), and role \"{role}\" has no cross-org grant for \"{action}\""
      else allow s!"role \"{role}\" is granted \"{action}\" within its own organization"

/-- The missing-matrix-entry branch of the source has no counterpart: the matrix is a function. -/
def can (actor : Actor) (action : Action) (resource : Resource) (context : AuthContext := {}) :
    AuthDecision :=
  let expectedType := actionResourceType action
  if resource.type ≠ expectedType then
    deny s!"action \"{action}\" applies to resource type \"{expectedType}\", got \"{resource.type}\""
  else match actor.role, actor.organizationId with
    | some role, some organizationId =>
      if action ∉ (authorityMatrix role).allowedActions then
        deny s!"role \"{role}\" is not granted \"{action}\" (deny-by-default: unlisted combination)"
      else canGranted role organizationId action resource context
    | _, _ =>
      deny "actor has no active organization membership — no action is grantable without one"

/-! ### What an allowed decision means -/

variable {actor : Actor} {action : Action} {resource : Resource} {context : AuthContext}

/-- **Deny by default**: an allowed action is one the matrix grants to the actor's role, decided by
`canGranted` for the actor's own organization. -/
theorem can_allowed_grant (h : (can actor action resource context).allowed = true) :
    ∃ role organizationId, actor.role = some role ∧ actor.organizationId = some organizationId ∧
      action ∈ (authorityMatrix role).allowedActions ∧
      (canGranted role organizationId action resource context).allowed = true := by
  have htype : resource.type = actionResourceType action := by
    by_contra hne
    simp [can, hne, deny] at h
  rcases hr : actor.role with - | role
  · simp [can, htype, hr, deny] at h
  rcases ho : actor.organizationId with - | organizationId
  · simp [can, htype, hr, ho, deny] at h
  have hgrant : action ∈ (authorityMatrix role).allowedActions := by
    by_contra hnot
    simp [can, htype, hr, ho, hnot, deny] at h
  refine ⟨role, organizationId, rfl, rfl, hgrant, ?_⟩
  simpa [can, htype, hr, ho, hgrant] using h

/-- **No same-organization way to the ledger**: on a commission accrual only cross-org authority or
verified participant standing allows anything. -/
theorem can_commissionAccrual_allowed (htype : resource.type = .commissionAccrual)
    (h : (can actor action resource context).allowed = true) :
    ∃ role, actor.role = some role ∧ (action ∈ (authorityMatrix role).crossOrgActions ∨
      (context.isParticipant = true ∧ action ∈ (authorityMatrix role).participantActions)) := by
  obtain ⟨role, organizationId, hrole, -, -, hgranted⟩ := can_allowed_grant h
  refine ⟨role, hrole, ?_⟩
  by_contra hnone
  obtain ⟨hcross, hpart⟩ := not_or.1 hnone
  -- past the cross-org and participant branches the ledger's own denial is all that is left
  have hdenied : (canGranted role organizationId action resource context).allowed = false := by
    simp only [canGranted, if_neg hcross, if_neg hpart, if_pos htype, deny]
    split_ifs <;> rfl
  rw [hdenied] at hgranted
  cases hgranted

end TolPlatform
