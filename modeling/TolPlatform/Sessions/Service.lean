import TolPlatform.Library.Evolution
import TolPlatform.Library.ReadCommitted
import TolPlatform.Memberships.Service
import TolPlatform.Shared.Language

/-!
# Sessions

Login, logout and `switchOrg` (`apps/api/src/modules/auth/service.ts`), the `onRequest` hook of
`apps/api/src/plugins/auth.ts`, and the mutations of memberships, as their statements interleave at READ
COMMITTED. What is not in a transaction commits by itself. The hook reads the session and, by a query of
its own, the membership that the session has selected; a mutation of memberships is one transaction.

Left out: `recordLogin`, `touchLastSeen` and `lastSeenAt`, as nothing here reads them, the classes of the
client that a session keeps, and the second read of the memberships for a response.
-/

namespace TolPlatform.Sessions

open Memberships (MembershipStatus OrganizationMembership Session)
open Memberships.MembershipRepository (findById findByUserOrgRole listByUser findActiveByUserAndOrg
  setStatus reinstate)

/-! ### Tables -/

inductive UserStatus
  | active | suspended | invited
  deriving DecidableEq, Repr

structure User where
  id : Uuid
  email : String
  passwordHash : String
  status : UserStatus
  deriving DecidableEq, Repr

structure Db extends Memberships.Db where
  users : List User
  deriving DecidableEq, Repr

/-- `canonicalEmail`; the request schema admits only ASCII. -/
def canonicalEmail (email : String) : String :=
  String.ofList ((trim email).toList.map Char.toLower)

def UserRepository.findByEmail (db : Db) (email : String) : Option User :=
  db.users.find? (·.email = canonicalEmail email)

/-- The columns of a session that no statement changes. -/
structure SessionKey where
  id : Uuid
  userId : Uuid
  tokenHash : String
  deriving DecidableEq, Repr

def keyOf (s : Session) : SessionKey := ⟨s.id, s.userId, s.tokenHash⟩

/-- What the cryptographic packages supply: the HMAC of a session token, and whether a password has a
hash. -/
structure Primitives where
  hashSessionToken : String → String
  verifyPassword : String → String → Bool

/-! ### Requests -/

inductive Request
  | logout
  | switchOrg (organizationId : Uuid)
  | membership (request : Memberships.Request)
  /-- Any other request that has to be authenticated. -/
  | other
  deriving DecidableEq, Repr

inductive Call
  | login (email password : String) (context : RequestContext)
  /-- A request with the token of its session cookie. -/
  | request (rawToken : String) (request : Request) (context : RequestContext)
  deriving DecidableEq, Repr

/-! ### Statements -/

inductive Change
  /-- An insertion, and what the service throws if it violates a unique constraint. -/
  | insertMembership (row : OrganizationMembership) (taken : Thrown)
  | setStatus (id : Uuid) (status : MembershipStatus) (now : Instant)
  | reinstate (id : Uuid) (status : MembershipStatus) (invitationSource : Option String) (now : Instant)
  | insertSession (row : Session)
  | selectMembership (session : SessionKey) (membershipId : Uuid)
  | revoke (session : SessionKey) (now : Instant)
  /-- The same for a session that was found live. -/
  | revokeLive (session : SessionKey) (now : Instant)
  | audit (write : Trails → Trails)

/-- What a change locks. -/
inductive RowLock
  | membership (id : Uuid)
  | tuple (columns : Uuid × Uuid × PersonaRole)
  | session (id : Uuid)
  | tokenHash (tokenHash : String)
  deriving DecidableEq, Repr

def Change.locks : Change → List RowLock
  | .insertMembership row _ => [.membership row.id, .tuple row.tuple]
  | .setStatus id _ _ | .reinstate id _ _ _ => [.membership id]
  | .insertSession row => [.session row.id, .tokenHash row.tokenHash]
  | .selectMembership session _ | .revoke session _ | .revokeLive session _ => [.session session.id]
  | .audit _ => []

def changes : Changes Db Thrown Change where
  apply db
    | .insertMembership row _ =>
      { db with organizationMemberships := db.organizationMemberships ++ [row] }
    | .setStatus id status now =>
      { db with
        organizationMemberships :=
          Rows.rewrite (·.id) id (setStatus now status) db.organizationMemberships }
    | .reinstate id status source now =>
      { db with
        organizationMemberships :=
          Rows.rewrite (·.id) id (reinstate now status source) db.organizationMemberships }
    | .insertSession row => { db with sessions := db.sessions ++ [row] }
    | .selectMembership session membershipId =>
      { db with
        sessions := Rows.rewrite keyOf session
          (fun s ↦ { s with activeMembershipId := some membershipId }) db.sessions }
    | .revoke session now | .revokeLive session now =>
      { db with
        sessions :=
          Rows.rewrite keyOf session (fun s ↦ { s with revokedAt := some now }) db.sessions }
    | .audit write => { db with trails := write db.trails }
  stands db
    | .revokeLive session _ => db.sessions.any fun s ↦ keyOf s = session ∧ s.revokedAt = none
    | _ => true
  refuses db
    | .insertMembership row taken =>
      if db.organizationMemberships.any fun m ↦ m.id = row.id ∨ m.tuple = row.tuple then some taken
      else none
    | .insertSession row =>
      if db.sessions.any fun s ↦ s.id = row.id ∨ s.tokenHash = row.tokenHash then
        some .uniqueViolation
      else none
    | _ => none
  waitsFor change other := change.locks.any (· ∈ other.locks)

/-! ### How far a call has got -/

inductive Local
  | called (call : Call)
  -- login
  | identified (user : User) (context : RequestContext)
  | resolved (user : User) (membership : Option OrganizationMembership) (context : RequestContext)
  | sessionCreated (user : User) (session : Session) (membership : Option OrganizationMembership)
      (context : RequestContext)
  | loggedIn (session : Session) (membership : Option OrganizationMembership)
  -- the hook
  | lookedUp (session : Option Session) (request : Request) (context : RequestContext)
  | authenticated (session : Session) (actor : Actor) (request : Request) (context : RequestContext)
  -- logout
  | sessionRevoked (userId : Uuid) (context : RequestContext)
  -- switchOrg
  | switching (session : Session) (membership : OrganizationMembership) (context : RequestContext)
  | switched (session : Session) (membership : OrganizationMembership) (context : RequestContext)
  | refetching (session : Session) (membership : OrganizationMembership)
  -- a mutation of memberships
  | checked (l : Memberships.Local)
  | inviting (actor : Actor) (organizationId : Uuid) (input : Memberships.CreateMembershipRequest)
      (context : RequestContext) (revoked : Option OrganizationMembership)
  | invited (actor : Actor) (organizationId : Uuid) (context : RequestContext) (membershipId : Uuid)
      (action : String)
  | createAudited (membership : OrganizationMembership)
  | statusSet (actor : Actor) (existing : OrganizationMembership) (status : MembershipStatus)
      (context : RequestContext)
  | statusEnded (actor : Actor) (existing : OrganizationMembership) (status : MembershipStatus)
      (context : RequestContext)
  | statusAudited (existing updated : OrganizationMembership) (status : MembershipStatus)
  | roleRevoked (actor : Actor) (existing : OrganizationMembership) (newRole : PersonaRole)
      (context : RequestContext)
  | roleEnded (actor : Actor) (existing : OrganizationMembership) (newRole : PersonaRole)
      (context : RequestContext)
  | granting (actor : Actor) (existing : OrganizationMembership) (newRole : PersonaRole)
      (context : RequestContext) (prior : Option OrganizationMembership)
  | granted (actor : Actor) (existing : OrganizationMembership) (context : RequestContext)
      (membershipId : Uuid)
  | roleAudited (existing next : OrganizationMembership)
  /-- The commit of what is pending comes next. -/
  | committing (l : Local)
  | returned (membership : Option OrganizationMembership)
  | threw (thrown : Thrown)
  | crashed
  deriving DecidableEq, Repr

/-! ### The auth service -/

def invalidCredentials : Thrown := unauthorized "Invalid email or password."

/-- `SESSION_TTL_MS`. -/
def sessionTtlMs : Int := 24 * 60 * 60 * 1000

/-- `login` up to where it knows the user. -/
def checkCredentials (P : Primitives) (db : Db) (email password : String) : Except Thrown User := do
  let user ← orThrow (UserRepository.findByEmail db email) invalidCredentials
  throwIf (P.verifyPassword password user.passwordHash = false) invalidCredentials
  throwIf (user.status ≠ .active)
    (unauthorized "This account is not active. Contact your organization administrator.")
  return user

/-- The row that `login` stores; the second draw is the token. -/
def newSession (P : Primitives) (d : Draws) (user : User) (membership : Option OrganizationMembership) :
    Session where
  id := d.ids 0
  userId := user.id
  tokenHash := P.hashSessionToken (d.ids 1)
  activeMembershipId := membership.map (·.id)
  expiresAt := d.now + sessionTtlMs

/-- The user, in what the session stands for. -/
def actorOf (userId : Uuid) (membership : Option OrganizationMembership) : Actor :=
  ⟨userId, membership.map (·.organizationId), membership.map (·.role), membership.map (·.id)⟩

/-- An update that names a session by its id. -/
def updateSession (db : Db) (session : Session) (change : SessionKey → Change) (l : Local) :
    Except Thrown (List Change × Local) := do
  throwIf (session.id ∉ db.sessions.map (·.id)) .recordNotFound
  return ([change (keyOf session)], l)

/-! ### The hook -/

/-- The session, if it is neither revoked nor expired. -/
def accepted (now : Instant) (session : Option Session) : Option Session :=
  session.filter fun s ↦ s.revokedAt = none ∧ now < s.expiresAt

/-- What the session has selected, if that is `ACTIVE`. -/
def activeMembership (db : Db) (session : Session) : Option OrganizationMembership :=
  (session.activeMembershipId.bind (findById db.toDb)).filter (·.status = .active)

/-! ### The transactions of the memberships service -/

/-- `UPDATE … WHERE id`, of the status. -/
def updateStatus (db : Db) (id : Uuid) (status : MembershipStatus) (now : Instant) (l : Local) :
    Except Thrown (List Change × Local) := do
  throwIf (id ∉ db.organizationMemberships.map (·.id)) .recordNotFound
  return ([.setStatus id status now], l)

def revokeAllForUser (db : Db) (userId : Uuid) (now : Instant) : List Change :=
  (db.sessions.filter fun s ↦ s.userId = userId ∧ s.revokedAt = none).map fun s ↦
    .revokeLive (keyOf s) now

/-- The audit row of a mutation, about a membership as the statement before it returned it. -/
def auditMembership (db : Db) (actor : Actor) (context : RequestContext) (organizationId : Uuid)
    (action : String) (membershipId : Uuid)
    (afterValue : OrganizationMembership → List (String × JsonValue))
    (l : OrganizationMembership → Local) : Except Thrown (List Change × Local) := do
  let membership ← orThrow (findById db.toDb membershipId) .recordNotFound
  return ([.audit fun t ↦ t.audit actor context (some organizationId) action "membership" membershipId
    (afterValue membership)], l membership)

def statusAudit (db : Db) (actor : Actor) (existing : OrganizationMembership) (status : MembershipStatus)
    (context : RequestContext) : Except Thrown (List Change × Local) :=
  auditMembership db actor context existing.organizationId "membership.status_changed" existing.id
    (fun updated ↦ [("status", .string (toString updated.status))])
    fun updated ↦ .statusAudited existing updated status

/-- The row that is to be taken back: one that is `REVOKED`. -/
def revokedRow (existing : Option OrganizationMembership) : Option OrganizationMembership :=
  existing.filter (·.status = .revoked)

def membershipRow (d : Draws) (organizationId userId : Uuid) (role : PersonaRole)
    (status : MembershipStatus) (invitationSource : Option String) : OrganizationMembership :=
  { id := d.ids 0, organizationId, userId, role, status, invitationSource, effectiveFrom := d.now }

/-- A row for the tuple, or none, if it can be invited: a row that is not `REVOKED` is a conflict. -/
def invitable (db : Db) (organizationId : Uuid) (input : Memberships.CreateMembershipRequest) :
    Except Thrown (Option OrganizationMembership) :=
  match findByUserOrgRole db.toDb input.userId organizationId input.role with
  | some existing =>
    if existing.status = .revoked then .ok (some existing)
    else .error (conflict s!"A membership already exists for this user/role in this organization (status: {existing.status}).")
  | none => .ok none

/-- The first statement of a transaction. -/
def openTransaction (d : Draws) : Memberships.Local → NextStatement Db Thrown Change Local
  | .createChecked actor organizationId input context => .query fun db ↦ do
    let revoked ← invitable db organizationId input
    return .inviting actor organizationId input context revoked
  | .statusChecked actor existing status context => .write fun db ↦
    updateStatus db existing.id status d.now (.statusSet actor existing status context)
  | .roleChecked actor existing newRole context => .write fun db ↦
    updateStatus db existing.id .revoked d.now (.roleRevoked actor existing newRole context)
  | _ => .stop

/-! ### All calls -/

/-- What an authenticated request does first. -/
def afterHook (d : Draws) (session : Session) (actor : Actor) (context : RequestContext) :
    Request → NextStatement Db Thrown Change Local
  | .logout => .write fun db ↦
    updateSession db session (.revoke · d.now) (.committing (.sessionRevoked session.userId context))
  | .switchOrg organizationId => .query fun db ↦ do
    let membership ← orThrow (findActiveByUserAndOrg d.now db.toDb session.userId organizationId)
      (forbidden "You do not have an active membership in that organization.")
    return .switching session membership context
  | .membership request => .query fun db ↦ .checked <$> Memberships.precheck db.toDb actor context request
  | .other => .query fun _ ↦ .ok (.returned none)

def sessions (P : Primitives) : StatementSystem Db Thrown Change Draws Local where
  changes := changes
  next d
    | .called (.login email password context) => .query fun db ↦ do
      let user ← checkCredentials P db email password
      return .identified user context
    | .identified user context => .query fun db ↦
      .ok (.resolved user ((listByUser db.toDb user.id).find? (·.status = .active)) context)
    | .resolved user membership context => .write fun _ ↦
      let session := newSession P d user membership
      .ok ([.insertSession session], .committing (.sessionCreated user session membership context))
    | .sessionCreated user session membership context => .write fun _ ↦
      .ok ([.audit fun t ↦ t.audit (actorOf user.id membership) context (membership.map (·.organizationId))
        "auth.login" "user" user.id []], .committing (.loggedIn session membership))
    | .called (.request rawToken request context) => .query fun db ↦
      .ok (.lookedUp (Memberships.SessionRepository.findByTokenHash db.toDb (P.hashSessionToken rawToken))
        request context)
    | .lookedUp found request context => .query fun db ↦ do
      let session ← orThrow (accepted d.now found) unauthorized
      return .authenticated session (actorOf session.userId (activeMembership db session)) request context
    | .authenticated session actor request context => afterHook d session actor context request
    | .sessionRevoked userId context => .write fun _ ↦
      .ok ([.audit fun t ↦ t.audit ⟨userId, none, none, none⟩ context none "auth.logout" "user" userId []],
        .committing (.returned none))
    | .switching session membership context => .write fun db ↦
      updateSession db session (.selectMembership · membership.id)
        (.committing (.switched session membership context))
    | .switched session membership context => .write fun _ ↦
      .ok ([.audit fun t ↦ t.audit (actorOf session.userId (some membership)) context
        (some membership.organizationId) "auth.switch_org" "user" session.userId []],
        .committing (.refetching session membership))
    | .refetching session membership => .query fun db ↦ do
      let full ← orThrow ((listByUser db.toDb session.userId).find? (·.id = membership.id))
        (internal "Membership vanished between lookup and refetch — this should be unreachable.")
      return .returned (some full)
    | .checked l => openTransaction d l
    | .inviting actor organizationId input context (some revoked) => .write fun _ ↦
      .ok ([.reinstate revoked.id .invited input.invitationSource d.now],
        .invited actor organizationId context revoked.id "membership.reactivated")
    | .inviting actor organizationId input context none => .write fun _ ↦
      .ok ([.insertMembership
          (membershipRow d organizationId input.userId input.role .invited input.invitationSource)
          (conflict "A membership already exists for this user/role in this organization (created concurrently)." true)],
        .invited actor organizationId context (d.ids 0) "membership.created")
    | .invited actor organizationId context membershipId action => .write fun db ↦
      auditMembership db actor context organizationId action membershipId
        (fun m ↦ [("role", .string (toString m.role)), ("status", .string (toString m.status)),
          ("userId", .string m.userId)])
        .createAudited
    | .createAudited membership => .commit (.returned (some membership))
    | .statusSet actor existing status context => .write fun db ↦
      if status ≠ .active then
        .ok (revokeAllForUser db existing.userId d.now, .statusEnded actor existing status context)
      else statusAudit db actor existing status context
    | .statusEnded actor existing status context => .write fun db ↦
      statusAudit db actor existing status context
    | .statusAudited _ updated _ => .commit (.returned (some updated))
    | .roleRevoked actor existing newRole context => .write fun db ↦
      .ok (revokeAllForUser db existing.userId d.now, .roleEnded actor existing newRole context)
    | .roleEnded actor existing newRole context => .query fun db ↦
      .ok (.granting actor existing newRole context
        (revokedRow (findByUserOrgRole db.toDb existing.userId existing.organizationId newRole)))
    | .granting actor existing _ context (some prior) => .write fun _ ↦
      .ok ([.reinstate prior.id .active (some s!"role-change-from:{existing.id}") d.now],
        .granted actor existing context prior.id)
    | .granting actor existing newRole context none => .write fun _ ↦
      .ok ([.insertMembership
          (membershipRow d existing.organizationId existing.userId newRole .active
            (some s!"role-change-from:{existing.id}"))
          (conflict s!"A membership already exists at role \"{newRole}\" for this user in this organization (created concurrently)." true)],
        .granted actor existing context (d.ids 0))
    | .granted actor existing context membershipId => .write fun db ↦
      auditMembership db actor context existing.organizationId "membership.role_changed" membershipId
        (fun m ↦ [("role", .string (toString m.role)), ("membershipId", .string m.id)])
        fun m ↦ .roleAudited existing m
    | .roleAudited _ next => .commit (.returned (some next))
    | .committing l => .commit l
    | .loggedIn .. | .returned _ | .threw _ | .crashed => .stop
  ended
    | .loggedIn .. | .returned _ | .threw _ | .crashed => true
    | _ => false
  failed := .threw
  crashed := .crashed

abbrev Config (Pid : Type) :=
  PartySystem.Config Pid (StatementSystem.Shared Db Change Local Pid) Local

end TolPlatform.Sessions
