import TolPlatform.Library.LockedCalls
import TolPlatform.Library.Sorting
import TolPlatform.Library.Table
import TolPlatform.Shared.Support

/-!
# Memberships

`apps/api/src/modules/memberships/service.ts` with the two repositories it writes through,
`packages/db/src/repositories/{membership,session}.repository.ts`, and the calls of its three
mutations as they interleave: the auth hook's look-up of the actor's membership, the reads before the
transaction, and the transaction. There is no lock.

Left out: the base-audit columns of a membership that nothing here reads back (`version`,
`createdByUserId`, `updatedByUserId`, …), and `beforeValue` and `reason` of the audit rows.
-/

namespace TolPlatform.Memberships

/-! ### Tables -/

inductive MembershipStatus
  | invited | active | suspended | revoked
  deriving DecidableEq, Repr

instance : ToString MembershipStatus where
  toString
    | .invited => "INVITED"
    | .active => "ACTIVE"
    | .suspended => "SUSPENDED"
    | .revoked => "REVOKED"

structure OrganizationMembership where
  id : Uuid
  organizationId : Uuid
  userId : Uuid
  role : PersonaRole
  status : MembershipStatus
  invitationSource : Option String
  effectiveFrom : Instant
  effectiveTo : Option Instant := none
  retiredAt : Option Instant := none
  deriving DecidableEq, Repr

/-- The columns of `@@unique([organizationId, userId, role])`. -/
def OrganizationMembership.tuple (m : OrganizationMembership) : Uuid × Uuid × PersonaRole :=
  (m.organizationId, m.userId, m.role)

structure Session where
  id : Uuid
  userId : Uuid
  tokenHash : String
  activeMembershipId : Option Uuid
  expiresAt : Instant
  revokedAt : Option Instant := none
  deriving DecidableEq, Repr

structure Db where
  organizations : List Uuid
  organizationMemberships : List OrganizationMembership
  sessions : List Session := []
  trails : Trails := {}
  deriving DecidableEq, Repr

def organizationMemberships : Table Db OrganizationMembership Uuid where
  rows := Db.organizationMemberships
  put l db := { db with organizationMemberships := l }
  key := OrganizationMembership.id

/-! ### Repositories -/

namespace MembershipRepository

def findById (db : Db) (id : Uuid) : Option OrganizationMembership :=
  db.organizationMemberships.find? (·.id = id)

def findByUserOrgRole (db : Db) (userId organizationId : Uuid) (role : PersonaRole) :
    Option OrganizationMembership :=
  db.organizationMemberships.find? (·.tuple = (organizationId, userId, role))

def listByUser (db : Db) (userId : Uuid) : List OrganizationMembership :=
  List.sortOn (fun m : OrganizationMembership ↦ m.effectiveFrom)
    (db.organizationMemberships.filter fun m ↦
      m.userId = userId ∧ (m.status = .active ∨ m.status = .invited))

/-- The latest of the memberships in effect. -/
def findActiveByUserAndOrg (now : Instant) (db : Db) (userId organizationId : Uuid) :
    Option OrganizationMembership :=
  (List.sortOn (fun m : OrganizationMembership ↦ OrderDual.toDual m.effectiveFrom)
    (db.organizationMemberships.filter fun m ↦
      m.userId = userId ∧ m.organizationId = organizationId ∧ m.status = .active ∧
        ∀ effectiveTo ∈ m.effectiveTo, now < effectiveTo)).head?

/-- An insertion, refused by either unique constraint. -/
def create (d : Draws) (organizationId userId : Uuid) (role : PersonaRole)
    (status : MembershipStatus) (invitationSource : Option String) :
    Tx Db Thrown OrganizationMembership := do
  let row : OrganizationMembership :=
    { id := d.ids 0, organizationId, userId, role, status, invitationSource, effectiveFrom := d.now }
  let db ← get
  Tx.check (throwIf (row.tuple ∈ db.organizationMemberships.map (·.tuple)) .uniqueViolation)
  organizationMemberships.insert .uniqueViolation row

/-- `REVOKED` closes the row out; every other status clears the close-out. -/
def setStatus (now : Instant) (status : MembershipStatus) (m : OrganizationMembership) :
    OrganizationMembership :=
  let closedAt := if status = .revoked then some now else none
  { m with status, effectiveTo := closedAt, retiredAt := closedAt }

def updateStatus (d : Draws) (id : Uuid) (status : MembershipStatus) :
    Tx Db Thrown OrganizationMembership :=
  organizationMemberships.update .recordNotFound id (setStatus d.now status)

/-- A revoked row taken back into use. -/
def reinstate (now : Instant) (status : MembershipStatus) (invitationSource : Option String)
    (m : OrganizationMembership) : OrganizationMembership :=
  { m with status, invitationSource, effectiveFrom := now, effectiveTo := none, retiredAt := none }

def reactivate (d : Draws) (id : Uuid) (status : MembershipStatus)
    (invitationSource : Option String) : Tx Db Thrown OrganizationMembership :=
  organizationMemberships.update .recordNotFound id (reinstate d.now status invitationSource)

end MembershipRepository

namespace SessionRepository

def findByTokenHash (db : Db) (tokenHash : String) : Option Session :=
  db.sessions.find? (·.tokenHash = tokenHash)

def revokeAllForUser (d : Draws) (userId : Uuid) : Tx Db Thrown PUnit :=
  modify fun db : Db ↦ { db with sessions := db.sessions.map fun s ↦
    if s.userId = userId ∧ s.revokedAt = none then { s with revokedAt := some d.now } else s }

end SessionRepository

/-! ### Transactions -/

structure CreateMembershipRequest where
  userId : Uuid
  role : PersonaRole
  invitationSource : Option String := none
  deriving DecidableEq, Repr

def auditMembership (actor : Actor) (context : RequestContext) (organizationId : Uuid)
    (action : String) (resourceId : Uuid) (afterValue : List (String × JsonValue)) :
    Tx Db Thrown PUnit :=
  modify fun db : Db ↦ { db with
    trails := db.trails.audit actor context (some organizationId) action "membership" resourceId
      afterValue }

/-- The invited row and the audit action: a revoked row is taken back, any other row of the tuple is a
conflict, and without one a row is inserted. -/
def invite (d : Draws) (organizationId : Uuid) (input : CreateMembershipRequest) :
    Tx Db Thrown (OrganizationMembership × String) := do
  let db ← get
  match MembershipRepository.findByUserOrgRole db input.userId organizationId input.role with
  | some existing =>
    if existing.status = .revoked then
      let membership ← MembershipRepository.reactivate d existing.id .invited input.invitationSource
      return (membership, "membership.reactivated")
    else
      throw (conflict s!"A membership already exists for this user/role in this organization (status: {existing.status}).")
  | none =>
    let membership ← MembershipRepository.create d organizationId input.userId input.role .invited
      input.invitationSource
    return (membership, "membership.created")

def createBody (d : Draws) (actor : Actor) (organizationId : Uuid) (input : CreateMembershipRequest)
    (context : RequestContext) : Tx Db Thrown OrganizationMembership := do
  let invited ← invite d organizationId input
  auditMembership actor context organizationId invited.2 invited.1.id
    [("role", .string (toString invited.1.role)), ("status", .string (toString invited.1.status)),
     ("userId", .string invited.1.userId)]
  return invited.1

def createTx (d : Draws) (actor : Actor) (organizationId : Uuid) (input : CreateMembershipRequest)
    (context : RequestContext) : Tx Db Thrown OrganizationMembership := fun db ↦
  runUniqueConstraintSafe (createBody d actor organizationId input context db)
    "A membership already exists for this user/role in this organization (created concurrently)."

/-- `if (status !== "ACTIVE") await sessionRepository.revokeAllForUser(…)`. -/
def endSessions (d : Draws) (userId : Uuid) (status : MembershipStatus) : Tx Db Thrown PUnit :=
  if status ≠ .active then SessionRepository.revokeAllForUser d userId else pure ⟨⟩

def updateStatusTx (d : Draws) (actor : Actor) (existing : OrganizationMembership)
    (status : MembershipStatus) (context : RequestContext) : Tx Db Thrown OrganizationMembership := do
  let updated ← MembershipRepository.updateStatus d existing.id status
  endSessions d existing.userId status
  auditMembership actor context existing.organizationId "membership.status_changed" existing.id
    [("status", .string (toString updated.status))]
  return updated

/-- The row at the new role: a revoked one taken back, else a new one. -/
def grantRole (d : Draws) (existing : OrganizationMembership) (newRole : PersonaRole) :
    Tx Db Thrown OrganizationMembership := do
  let source := s!"role-change-from:{existing.id}"
  let db ← get
  match MembershipRepository.findByUserOrgRole db existing.userId existing.organizationId newRole with
  | some prior =>
    if prior.status = .revoked then
      MembershipRepository.reactivate d prior.id .active (some source)
    else
      MembershipRepository.create d existing.organizationId existing.userId newRole .active
        (some source)
  | none =>
    MembershipRepository.create d existing.organizationId existing.userId newRole .active
      (some source)

def updateRoleBody (d : Draws) (actor : Actor) (existing : OrganizationMembership)
    (newRole : PersonaRole) (context : RequestContext) : Tx Db Thrown OrganizationMembership := do
  let _ ← MembershipRepository.updateStatus d existing.id .revoked
  SessionRepository.revokeAllForUser d existing.userId
  let next ← grantRole d existing newRole
  auditMembership actor context existing.organizationId "membership.role_changed" next.id
    [("role", .string (toString next.role)), ("membershipId", .string next.id)]
  return next

def updateRoleTx (d : Draws) (actor : Actor) (existing : OrganizationMembership)
    (newRole : PersonaRole) (context : RequestContext) : Tx Db Thrown OrganizationMembership :=
  fun db ↦ runUniqueConstraintSafe (updateRoleBody d actor existing newRole context db)
    s!"A membership already exists at role \"{newRole}\" for this user in this organization (created concurrently)."

/-! ### Calls -/

inductive Request
  | create (organizationId : Uuid) (input : CreateMembershipRequest)
  | updateStatus (membershipId : Uuid) (status : MembershipStatus)
  | updateRole (membershipId : Uuid) (newRole : PersonaRole)
  deriving DecidableEq, Repr

/-- A request, and the membership its user's session has selected. -/
structure Call where
  userId : Uuid
  activeMembershipId : Option Uuid
  request : Request
  context : RequestContext
  deriving DecidableEq, Repr

/-- The membership that a session's selection stands for: an `ACTIVE` one, of the session's own user. -/
def activeMembership (db : Db) (call : Call) : Option OrganizationMembership :=
  (call.activeMembershipId.bind (MembershipRepository.findById db)).filter fun m ↦
    m.userId = call.userId ∧ m.status = .active

/-- The actor that the auth hook builds. -/
def actorOf (db : Db) (call : Call) : Actor :=
  match activeMembership db call with
  | some m => ⟨call.userId, some m.organizationId, some m.role, some m.id⟩
  | none => ⟨call.userId, none, none, none⟩

/-- How far a request has got. -/
inductive Local
  | called (call : Call)
  /-- The auth hook has run. -/
  | admitted (actor : Actor) (request : Request) (context : RequestContext)
  | createChecked (actor : Actor) (organizationId : Uuid) (input : CreateMembershipRequest)
      (context : RequestContext)
  | statusChecked (actor : Actor) (existing : OrganizationMembership) (status : MembershipStatus)
      (context : RequestContext)
  | roleChecked (actor : Actor) (existing : OrganizationMembership) (newRole : PersonaRole)
      (context : RequestContext)
  | returned (membership : OrganizationMembership)
  | threw (thrown : Thrown)
  | crashed
  deriving DecidableEq, Repr

def loadMembership (db : Db) (membershipId : Uuid) : Except Thrown OrganizationMembership :=
  orThrow (MembershipRepository.findById db membershipId) (notFound "Membership not found.")

/-- The reads and checks before the transaction. -/
def precheck (db : Db) (actor : Actor) (context : RequestContext) : Request → Except Thrown Local
  | .create organizationId input => do
    requireAllowed (can actor .membershipCreate ⟨.membership, some organizationId⟩)
    throwIf (organizationId ∉ db.organizations) (notFound "Organization not found.")
    return .createChecked actor organizationId input context
  | .updateStatus membershipId status => do
    let existing ← loadMembership db membershipId
    requireAllowed (can actor .membershipUpdateStatus ⟨.membership, some existing.organizationId⟩)
    return .statusChecked actor existing status context
  | .updateRole membershipId newRole => do
    let existing ← loadMembership db membershipId
    requireAllowed (can actor .membershipUpdateRole ⟨.membership, some existing.organizationId⟩)
    throwIf (existing.role = newRole) (badRequest "New role is the same as the current role.")
    return .roleChecked actor existing newRole context

/-- The membership calls; their key type is empty, as they take no lock. -/
def calls : CallSystem Db Thrown Empty Draws Local where
  next d
    | .called call => .query fun db ↦ .ok (.admitted (actorOf db call) call.request call.context)
    | .admitted actor request context => .query fun db ↦ precheck db actor context request
    | .createChecked actor organizationId input context =>
      .commit (Local.returned <$> createTx d actor organizationId input context)
    | .statusChecked actor existing status context =>
      .commit (Local.returned <$> updateStatusTx d actor existing status context)
    | .roleChecked actor existing newRole context =>
      .commit (Local.returned <$> updateRoleTx d actor existing newRole context)
    | .returned _ | .threw _ | .crashed => .stop
  ended
    | .returned _ | .threw _ | .crashed => true
    | _ => false
  failed := .threw
  crashed := .crashed

end TolPlatform.Memberships
