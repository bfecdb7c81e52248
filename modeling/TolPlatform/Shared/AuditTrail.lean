import TolPlatform.Library.Journals
import TolPlatform.Shared.Support

/-!
# The audit trail

Who did what to what, as the audit events of `apps/api/src/shared/audit.ts` and of the worker's jobs record
it. The values that an event carries besides are left to the services.
-/

namespace TolPlatform

/-- The columns of an audit event that say who did what to what, and in which request. -/
structure AuditEntry where
  actorUserId : Option Uuid
  actorOrgId : Option Uuid
  actorRole : Option PersonaRole
  subjectOrgId : Option Uuid
  action : String
  resourceType : String
  resourceId : Option Uuid
  requestId : Option String
  deriving DecidableEq, Repr

namespace AuditEntry

def ofEvent (e : AuditEvent) : AuditEntry where
  actorUserId := e.actorUserId
  actorOrgId := e.actorOrgId
  actorRole := e.actorRole
  subjectOrgId := e.subjectOrgId
  action := e.action
  resourceType := e.resourceType
  resourceId := e.resourceId
  requestId := e.requestId

/-- The action of a member on a resource of an organization. -/
def byActor (actor : Actor) (context : RequestContext) (subjectOrgId : Uuid)
    (action resourceType : String) (resourceId : Uuid) : AuditEntry where
  actorUserId := some actor.userId
  actorOrgId := actor.organizationId
  actorRole := actor.role
  subjectOrgId := some subjectOrgId
  action := action
  resourceType := resourceType
  resourceId := some resourceId
  requestId := some context.requestId

/-- The action of a job. -/
def byWorker (action resourceType : String) (resourceId : Uuid) : AuditEntry where
  actorUserId := none
  actorOrgId := none
  actorRole := none
  subjectOrgId := none
  action := action
  resourceType := resourceType
  resourceId := some resourceId
  requestId := none

end AuditEntry

namespace Trails

/-- The audit trail. -/
def auditTrail (t : Trails) : List AuditEntry := t.auditEvents.map .ofEvent

variable (t : Trails)

@[simp] theorem auditTrail_audit (actor : Actor) (context : RequestContext) (subjectOrgId : Uuid)
    (action resourceType : String) (resourceId : Uuid) (afterValue : List (String × JsonValue)) :
    (t.audit actor context (some subjectOrgId) action resourceType resourceId afterValue).auditTrail =
      t.auditTrail ++ [.byActor actor context subjectOrgId action resourceType resourceId] :=
  List.map_append

@[simp] theorem auditTrail_timeline (actor : Actor) (context : RequestContext)
    (eventType aggregateType : String) (aggregateId : Uuid) (payload : List (String × JsonValue)) :
    (t.timeline actor context eventType aggregateType aggregateId payload).auditTrail = t.auditTrail :=
  rfl

@[simp] theorem auditTrail_worker (eventType resourceType : String) (resourceId : Uuid)
    (afterValue : List (String × JsonValue)) :
    (t.worker eventType resourceType resourceId afterValue).auditTrail =
      t.auditTrail ++ [.byWorker eventType resourceType resourceId] :=
  List.map_append

end Trails

end TolPlatform
