import TolPlatform.Authz.Can
import TolPlatform.Shared.Errors

/-!
# What the services share

The request context, the two guards that wrap every service function, the audit trail and the
timeline (`apps/api/src/shared/{request-context,audit,timeline}.ts` and the tables they write), and
what a transaction and the platform supply from outside.
-/

namespace TolPlatform

structure RequestContext where
  requestId : String
  correlationId : String
  ipClass : String
  userAgentClass : String
  deriving DecidableEq, Repr

/-- What a transaction draws from outside: `newId()` and the clock. -/
structure Draws where
  ids : ℕ → Uuid
  now : Instant

/-- What the platform supplies: the database's `hashtext`, a SHA-256 hex digest and
`Date.prototype.toISOString`. -/
structure Platform where
  hashtext : String → Int
  sha256 : String → String
  toISOString : Instant → String

/-! ### Guards -/

/-- `if (!decision.allowed) throw ProblemError.forbidden(decision.reason);`. -/
def requireAllowed (decision : AuthDecision) : Except Thrown Unit :=
  throwIf (decision.allowed = false) (forbidden decision.reason)

/-- A unique violation inside `fn` surfaces as a clean, retryable conflict. -/
def runUniqueConstraintSafe {α : Type} (r : Except Thrown α) (conflictMessage : String) :
    Except Thrown α :=
  match r with
  | .error .uniqueViolation => .error (conflict conflictMessage true)
  | r => r

theorem runUniqueConstraintSafe_eq_ok_iff {α : Type} {r : Except Thrown α} {message : String}
    {a : α} : runUniqueConstraintSafe r message = .ok a ↔ r = .ok a := by
  unfold runUniqueConstraintSafe
  split
  · simp
  · exact Iff.rfl

/-! ### The audit trail and the timeline -/

/-- The values that the two trails record. -/
inductive JsonValue
  | null
  | string (s : String)
  | number (n : Int)
  | strings (l : List String)
  | bool (b : Bool)
  /-- A number with a fraction. -/
  | decimal (q : Rat)
  deriving DecidableEq, Repr

structure AuditEvent where
  actorUserId : Option Uuid
  actorOrgId : Option Uuid
  actorRole : Option PersonaRole
  subjectOrgId : Option Uuid
  action : String
  resourceType : String
  resourceId : Option Uuid
  afterValue : List (String × JsonValue)
  requestId : Option String
  correlationId : Option String
  ipClass : Option String
  userAgentClass : Option String
  deriving DecidableEq, Repr

structure DomainEvent where
  eventType : String
  aggregateType : String
  aggregateId : String
  payload : List (String × JsonValue)
  actorUserId : Option Uuid
  actorOrgId : Option Uuid
  actorRole : Option PersonaRole
  requestId : Option String
  correlationId : Option String
  deriving DecidableEq, Repr

/-- The two trails of one database. -/
structure Trails where
  auditEvents : List AuditEvent := []
  domainEvents : List DomainEvent := []
  deriving DecidableEq, Repr

namespace Trails

/-- `auditWriter(context).write`. -/
def audit (t : Trails) (actor : Actor) (context : RequestContext) (subjectOrgId : Option Uuid)
    (action resourceType : String) (resourceId : Uuid) (afterValue : List (String × JsonValue)) :
    Trails :=
  { t with auditEvents := t.auditEvents ++
      [{ actorUserId := some actor.userId, actorOrgId := actor.organizationId,
         actorRole := actor.role, subjectOrgId, action, resourceType,
         resourceId := some resourceId, afterValue, requestId := some context.requestId,
         correlationId := some context.correlationId, ipClass := some context.ipClass,
         userAgentClass := some context.userAgentClass }] }

/-- The same about no one row. -/
def auditOfNone (t : Trails) (actor : Actor) (context : RequestContext) (subjectOrgId : Option Uuid)
    (action resourceType : String) (afterValue : List (String × JsonValue)) : Trails :=
  { t with auditEvents := t.auditEvents ++
      [{ actorUserId := some actor.userId, actorOrgId := actor.organizationId,
         actorRole := actor.role, subjectOrgId, action, resourceType,
         resourceId := none, afterValue, requestId := some context.requestId,
         correlationId := some context.correlationId, ipClass := some context.ipClass,
         userAgentClass := some context.userAgentClass }] }

/-- `timelineWriter(context).write`. -/
def timeline (t : Trails) (actor : Actor) (context : RequestContext) (eventType aggregateType : String)
    (aggregateId : Uuid) (payload : List (String × JsonValue)) : Trails :=
  { t with domainEvents := t.domainEvents ++
      [{ eventType, aggregateType, aggregateId, payload, actorUserId := some actor.userId,
         actorOrgId := actor.organizationId, actorRole := actor.role,
         requestId := some context.requestId, correlationId := some context.correlationId }] }

/-- The pair of writes a worker job makes, under no actor and no request. -/
def worker (t : Trails) (eventType resourceType : String) (resourceId : Uuid)
    (afterValue : List (String × JsonValue)) : Trails :=
  { auditEvents := t.auditEvents ++
      [{ actorUserId := none, actorOrgId := none, actorRole := none, subjectOrgId := none,
         action := eventType, resourceType, resourceId := some resourceId, afterValue,
         requestId := none, correlationId := none, ipClass := none, userAgentClass := none }]
    domainEvents := t.domainEvents ++
      [{ eventType, aggregateType := resourceType, aggregateId := resourceId, payload := afterValue,
         actorUserId := none, actorOrgId := none, actorRole := none, requestId := none,
         correlationId := none }] }

end Trails

end TolPlatform
