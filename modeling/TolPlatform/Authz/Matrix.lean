import Mathlib.Init

/-!
# The authority matrix

`packages/authz/src/actions.ts`, `roles.ts` and `matrix.ts`: the action vocabulary, the ten persona
roles and what each role is granted. `RoleGrant` carries the three structural rules that the source
checks when the module loads, so a matrix entry that breaks one of them does not elaborate.
-/

namespace TolPlatform

/-! ### Vocabulary -/

/-- `ACTIONS`. -/
inductive Action
  | organizationRead | organizationList | organizationUpdate
  | membershipRead | membershipList | membershipCreate | membershipUpdateRole
  | membershipUpdateStatus
  | personRead | personUpdate
  | auditRead
  | opportunityCreate | opportunityRead | opportunityList | opportunityUpdate
  | capacityCreate | capacityRead | capacityList
  | rfqCreate | rfqRead | rfqList | rfqDecline | rfqSubmitQuote | rfqWithdrawQuote
  | rfqSelectQuote
  | dealRead | dealList | dealPostCondition | dealResolveCondition | dealRecordDecision
  | lockboxSeal | lockboxReadReceipt | lockboxWithdraw | lockboxRelease
  | claimCreate | claimRead | claimList | claimDispute | claimDecide
  | passportCreate | passportRead | passportList | passportUpdate | passportVerify
  | opportunityBrowseMarket
  | capacityBrowseMarket
  | matchingEvaluate
  | matchRead | matchList
  | scheduleRead | scheduleList | scheduleManage
  | economicsRead | economicsList | economicsRecord
  | ledgerRead | ledgerList | ledgerRecordPayment | ledgerAdjust
  deriving DecidableEq, Repr

instance : ToString Action where
  toString
    | .organizationRead => "organization.read"
    | .organizationList => "organization.list"
    | .organizationUpdate => "organization.update"
    | .membershipRead => "membership.read"
    | .membershipList => "membership.list"
    | .membershipCreate => "membership.create"
    | .membershipUpdateRole => "membership.update_role"
    | .membershipUpdateStatus => "membership.update_status"
    | .personRead => "person.read"
    | .personUpdate => "person.update"
    | .auditRead => "audit.read"
    | .opportunityCreate => "opportunity.create"
    | .opportunityRead => "opportunity.read"
    | .opportunityList => "opportunity.list"
    | .opportunityUpdate => "opportunity.update"
    | .capacityCreate => "capacity.create"
    | .capacityRead => "capacity.read"
    | .capacityList => "capacity.list"
    | .rfqCreate => "rfq.create"
    | .rfqRead => "rfq.read"
    | .rfqList => "rfq.list"
    | .rfqDecline => "rfq.decline"
    | .rfqSubmitQuote => "rfq.submit_quote"
    | .rfqWithdrawQuote => "rfq.withdraw_quote"
    | .rfqSelectQuote => "rfq.select_quote"
    | .dealRead => "deal.read"
    | .dealList => "deal.list"
    | .dealPostCondition => "deal.post_condition"
    | .dealResolveCondition => "deal.resolve_condition"
    | .dealRecordDecision => "deal.record_decision"
    | .lockboxSeal => "lockbox.seal"
    | .lockboxReadReceipt => "lockbox.read_receipt"
    | .lockboxWithdraw => "lockbox.withdraw"
    | .lockboxRelease => "lockbox.release"
    | .claimCreate => "claim.create"
    | .claimRead => "claim.read"
    | .claimList => "claim.list"
    | .claimDispute => "claim.dispute"
    | .claimDecide => "claim.decide"
    | .passportCreate => "passport.create"
    | .passportRead => "passport.read"
    | .passportList => "passport.list"
    | .passportUpdate => "passport.update"
    | .passportVerify => "passport.verify"
    | .opportunityBrowseMarket => "opportunity.browse_market"
    | .capacityBrowseMarket => "capacity.browse_market"
    | .matchingEvaluate => "matching.evaluate"
    | .matchRead => "match.read"
    | .matchList => "match.list"
    | .scheduleRead => "schedule.read"
    | .scheduleList => "schedule.list"
    | .scheduleManage => "schedule.manage"
    | .economicsRead => "economics.read"
    | .economicsList => "economics.list"
    | .economicsRecord => "economics.record"
    | .ledgerRead => "ledger.read"
    | .ledgerList => "ledger.list"
    | .ledgerRecordPayment => "ledger.record_payment"
    | .ledgerAdjust => "ledger.adjust"

/-- `PERSONA_ROLES`. -/
inductive PersonaRole
  | platformOwner | marketplaceOperator | partnershipLead | underwritingAnalyst
  | complianceReviewer | financeOperator | contributorAgent | merchantPspUser
  | acquirerProviderUser | auditorReadonly
  deriving DecidableEq, Repr

instance : ToString PersonaRole where
  toString
    | .platformOwner => "PLATFORM_OWNER"
    | .marketplaceOperator => "MARKETPLACE_OPERATOR"
    | .partnershipLead => "PARTNERSHIP_LEAD"
    | .underwritingAnalyst => "UNDERWRITING_ANALYST"
    | .complianceReviewer => "COMPLIANCE_REVIEWER"
    | .financeOperator => "FINANCE_OPERATOR"
    | .contributorAgent => "CONTRIBUTOR_AGENT"
    | .merchantPspUser => "MERCHANT_PSP_USER"
    | .acquirerProviderUser => "ACQUIRER_PROVIDER_USER"
    | .auditorReadonly => "AUDITOR_READONLY"

/-! ### Grants -/

/-- What one role may do. A cross-org or participant action is an allowed action, and no action is
both: they are exclusive ways in. -/
structure RoleGrant where
  allowedActions : List Action
  /-- Granted on every organization's resources. -/
  crossOrgActions : List Action
  /-- Granted on a resource instance the actor's organization is named on. -/
  participantActions : List Action
  managesOtherPeopleInOwnOrg : Bool
  crossOrg_allowed : ∀ a ∈ crossOrgActions, a ∈ allowedActions := by decide
  participant_allowed : ∀ a ∈ participantActions, a ∈ allowedActions := by decide
  crossOrg_not_participant : ∀ a ∈ participantActions, a ∉ crossOrgActions := by decide

/-- `AUTHORITY_MATRIX`. -/
def authorityMatrix : PersonaRole → RoleGrant
  | .platformOwner =>
    { allowedActions :=
        [.organizationRead, .organizationList, .organizationUpdate, .membershipRead,
         .membershipList, .membershipCreate, .membershipUpdateRole, .membershipUpdateStatus,
         .personRead, .personUpdate, .auditRead, .opportunityCreate, .opportunityUpdate,
         .opportunityRead, .opportunityList, .capacityCreate, .capacityRead, .capacityList,
         .rfqCreate, .rfqRead, .rfqList, .rfqDecline, .rfqSubmitQuote, .rfqWithdrawQuote,
         .rfqSelectQuote, .dealRead, .dealList, .dealPostCondition, .dealResolveCondition,
         .dealRecordDecision, .lockboxSeal, .lockboxReadReceipt, .lockboxWithdraw,
         .lockboxRelease, .claimCreate, .claimRead, .claimList, .claimDispute, .claimDecide,
         .passportCreate, .passportRead, .passportList, .passportUpdate, .passportVerify,
         .opportunityBrowseMarket, .capacityBrowseMarket, .matchingEvaluate, .matchRead,
         .matchList, .scheduleRead, .scheduleList, .scheduleManage, .economicsRead,
         .economicsList, .economicsRecord, .ledgerRead, .ledgerList, .ledgerRecordPayment,
         .ledgerAdjust]
      crossOrgActions :=
        [.organizationRead, .organizationList, .organizationUpdate, .membershipRead,
         .membershipList, .membershipCreate, .membershipUpdateRole, .membershipUpdateStatus,
         .personRead, .personUpdate, .auditRead, .opportunityCreate, .opportunityUpdate,
         .opportunityRead, .opportunityList, .capacityCreate, .capacityRead, .capacityList,
         .rfqCreate, .rfqRead, .rfqList, .rfqDecline, .rfqSubmitQuote, .rfqWithdrawQuote,
         .rfqSelectQuote, .dealRead, .dealList, .dealPostCondition, .dealResolveCondition,
         .dealRecordDecision, .lockboxSeal, .lockboxReadReceipt, .lockboxRelease, .claimRead,
         .claimList, .claimDecide, .passportRead, .passportList, .passportVerify,
         .opportunityBrowseMarket, .capacityBrowseMarket, .matchingEvaluate, .matchRead,
         .matchList, .scheduleRead, .scheduleList, .scheduleManage, .economicsRead,
         .economicsList, .economicsRecord, .ledgerRead, .ledgerList, .ledgerRecordPayment,
         .ledgerAdjust]
      participantActions := []
      managesOtherPeopleInOwnOrg := true }
  | .marketplaceOperator =>
    { allowedActions :=
        [.organizationRead, .organizationList, .membershipRead, .membershipList,
         .membershipCreate, .membershipUpdateStatus, .personRead, .auditRead, .opportunityRead,
         .opportunityList, .capacityRead, .capacityList, .rfqCreate, .rfqRead, .rfqList,
         .dealRead, .dealList, .dealPostCondition, .dealResolveCondition, .dealRecordDecision,
         .lockboxReadReceipt, .lockboxRelease, .claimRead, .claimList, .claimDecide,
         .passportRead, .passportList, .passportVerify, .opportunityBrowseMarket,
         .capacityBrowseMarket, .matchingEvaluate, .matchRead, .matchList]
      crossOrgActions :=
        [.organizationRead, .organizationList, .membershipRead, .membershipList,
         .membershipCreate, .membershipUpdateStatus, .personRead, .auditRead, .opportunityRead,
         .opportunityList, .capacityRead, .capacityList, .rfqCreate, .rfqRead, .rfqList,
         .dealRead, .dealList, .dealPostCondition, .dealResolveCondition, .dealRecordDecision,
         .lockboxReadReceipt, .lockboxRelease, .claimRead, .claimList, .claimDecide,
         .passportRead, .passportList, .passportVerify, .opportunityBrowseMarket,
         .capacityBrowseMarket, .matchingEvaluate, .matchRead, .matchList]
      participantActions := []
      managesOtherPeopleInOwnOrg := false }
  | .partnershipLead =>
    { allowedActions :=
        [.organizationRead, .membershipRead, .membershipList, .personRead, .personUpdate,
         .capacityCreate, .capacityRead, .capacityList, .claimRead, .claimList, .claimDecide,
         .passportRead, .passportList, .opportunityBrowseMarket, .capacityBrowseMarket,
         .matchRead, .matchList]
      crossOrgActions :=
        [.capacityCreate, .capacityRead, .capacityList, .claimRead, .claimList, .claimDecide,
         .passportRead, .passportList, .opportunityBrowseMarket, .capacityBrowseMarket,
         .matchRead, .matchList]
      participantActions := []
      managesOtherPeopleInOwnOrg := true }
  | .underwritingAnalyst =>
    { allowedActions :=
        [.organizationRead, .personRead, .opportunityRead, .opportunityList, .claimRead,
         .claimList, .passportRead, .passportList, .opportunityBrowseMarket,
         .capacityBrowseMarket, .matchRead, .matchList]
      crossOrgActions :=
        [.opportunityRead, .opportunityList, .claimRead, .claimList, .passportRead, .passportList,
         .opportunityBrowseMarket, .capacityBrowseMarket, .matchRead, .matchList]
      participantActions := []
      managesOtherPeopleInOwnOrg := false }
  | .complianceReviewer =>
    { allowedActions :=
        [.organizationRead, .organizationList, .membershipRead, .membershipList, .personRead,
         .auditRead, .opportunityRead, .opportunityList, .capacityRead, .capacityList, .rfqRead,
         .rfqList, .dealRead, .dealList, .lockboxReadReceipt, .claimRead, .claimList,
         .claimDecide, .passportRead, .passportList, .passportVerify, .opportunityBrowseMarket,
         .capacityBrowseMarket, .matchRead, .matchList]
      crossOrgActions :=
        [.organizationRead, .organizationList, .membershipRead, .membershipList, .personRead,
         .auditRead, .opportunityRead, .opportunityList, .capacityRead, .capacityList, .rfqRead,
         .rfqList, .dealRead, .dealList, .lockboxReadReceipt, .claimRead, .claimList,
         .claimDecide, .passportRead, .passportList, .passportVerify, .opportunityBrowseMarket,
         .capacityBrowseMarket, .matchRead, .matchList]
      participantActions := []
      managesOtherPeopleInOwnOrg := false }
  | .financeOperator =>
    { allowedActions :=
        [.organizationRead, .membershipRead, .membershipList, .claimRead, .claimList,
         .opportunityBrowseMarket, .capacityBrowseMarket, .scheduleRead, .scheduleList,
         .economicsRead, .economicsList, .economicsRecord, .ledgerRead, .ledgerList,
         .ledgerRecordPayment, .ledgerAdjust]
      crossOrgActions :=
        [.claimRead, .claimList, .opportunityBrowseMarket, .capacityBrowseMarket, .scheduleRead,
         .scheduleList, .economicsRead, .economicsList, .economicsRecord, .ledgerRead,
         .ledgerList, .ledgerRecordPayment, .ledgerAdjust]
      participantActions := []
      managesOtherPeopleInOwnOrg := false }
  | .contributorAgent =>
    { allowedActions :=
        [.organizationRead, .personRead, .personUpdate, .opportunityCreate, .opportunityUpdate,
         .opportunityRead, .opportunityList, .lockboxSeal, .lockboxReadReceipt, .lockboxWithdraw,
         .claimCreate, .claimRead, .claimList, .claimDispute, .passportCreate, .passportRead,
         .passportUpdate, .opportunityBrowseMarket, .capacityBrowseMarket, .ledgerRead,
         .ledgerList]
      crossOrgActions := [.opportunityBrowseMarket, .capacityBrowseMarket]
      participantActions := [.claimDispute, .ledgerRead, .ledgerList]
      managesOtherPeopleInOwnOrg := false }
  | .merchantPspUser =>
    { allowedActions :=
        [.organizationRead, .organizationUpdate, .membershipRead, .membershipList, .personRead,
         .personUpdate, .opportunityCreate, .opportunityUpdate, .opportunityRead,
         .opportunityList, .rfqRead, .rfqList, .rfqSelectQuote, .dealRead, .dealList,
         .dealPostCondition, .dealResolveCondition, .dealRecordDecision, .lockboxSeal,
         .lockboxReadReceipt, .lockboxWithdraw, .claimCreate, .claimRead, .claimList,
         .claimDispute, .passportCreate, .passportRead, .passportUpdate, .opportunityBrowseMarket,
         .capacityBrowseMarket, .matchRead, .matchList, .ledgerRead, .ledgerList]
      crossOrgActions := [.opportunityBrowseMarket, .capacityBrowseMarket]
      participantActions := [.claimDispute, .ledgerRead, .ledgerList]
      managesOtherPeopleInOwnOrg := false }
  | .acquirerProviderUser =>
    { allowedActions :=
        [.organizationRead, .organizationUpdate, .membershipRead, .membershipList, .personRead,
         .personUpdate, .capacityCreate, .capacityRead, .capacityList, .rfqRead, .rfqList,
         .rfqDecline, .rfqSubmitQuote, .rfqWithdrawQuote, .dealRead, .dealList,
         .dealPostCondition, .dealResolveCondition, .dealRecordDecision, .lockboxSeal,
         .lockboxReadReceipt, .lockboxWithdraw, .claimCreate, .claimRead, .claimList,
         .claimDispute, .passportCreate, .passportRead, .passportUpdate, .opportunityBrowseMarket,
         .capacityBrowseMarket, .matchRead, .matchList, .ledgerRead, .ledgerList]
      crossOrgActions := [.opportunityBrowseMarket, .capacityBrowseMarket]
      participantActions :=
        [.rfqRead, .rfqList, .rfqDecline, .rfqSubmitQuote, .rfqWithdrawQuote, .dealRead,
         .dealList, .dealPostCondition, .dealResolveCondition, .dealRecordDecision, .claimDispute,
         .matchRead, .matchList, .ledgerRead, .ledgerList]
      managesOtherPeopleInOwnOrg := false }
  | .auditorReadonly =>
    { allowedActions :=
        [.organizationRead, .organizationList, .membershipRead, .membershipList, .personRead,
         .auditRead, .opportunityRead, .opportunityList, .capacityRead, .capacityList, .rfqRead,
         .rfqList, .dealRead, .dealList, .lockboxReadReceipt, .claimRead, .claimList,
         .passportRead, .passportList, .opportunityBrowseMarket, .capacityBrowseMarket,
         .matchRead, .matchList, .scheduleRead, .scheduleList, .economicsRead, .economicsList,
         .ledgerRead, .ledgerList]
      crossOrgActions :=
        [.organizationRead, .organizationList, .membershipRead, .membershipList, .personRead,
         .auditRead, .opportunityRead, .opportunityList, .capacityRead, .capacityList, .rfqRead,
         .rfqList, .dealRead, .dealList, .lockboxReadReceipt, .claimRead, .claimList,
         .passportRead, .passportList, .opportunityBrowseMarket, .capacityBrowseMarket,
         .matchRead, .matchList, .scheduleRead, .scheduleList, .economicsRead, .economicsList,
         .ledgerRead, .ledgerList]
      participantActions := []
      managesOtherPeopleInOwnOrg := false }

end TolPlatform
