import CronMonitor.Domain

/-!
# The audit trail

`recordAudit` of `src/services/audit/audit.service.ts`. A row is written once and never changed. The
clock of the insert is left out, and `changes` is the JSON text that is stored.
-/

namespace CronMonitor

structure AuditActor where
  userId : Option Uuid
  label : Option String
  ip : Option String
  userAgent : Option String
deriving DecidableEq, Repr

def AuditActor.user (id : Uuid) : AuditActor := ⟨some id, none, none, none⟩

structure AuditEntry where
  actor : AuditActor
  action : String
  entityType : String
  entityId : Option Uuid
  summary : Option String
  changes : Option String
deriving DecidableEq, Repr

/-- A row of `audit_logs`. -/
structure AuditLog where
  actorUserId : Option Uuid
  actorLabel : String
  action : String
  entityType : String
  entityId : Option Uuid
  summary : Option String
  changes : Option String
  ipAddress : Option String
  userAgent : Option String
deriving DecidableEq, Repr

/-- A user without a label is named by its id, so that deleting the user does not erase who acted. -/
def AuditActor.storedLabel (a : AuditActor) : String :=
  a.label.getD (match a.userId with
    | some id => s!"user:{id}"
    | none => "system:unknown")

def AuditEntry.toLog (e : AuditEntry) : AuditLog where
  actorUserId := e.actor.userId
  actorLabel := e.actor.storedLabel
  action := e.action
  entityType := e.entityType
  entityId := e.entityId
  summary := e.summary
  changes := e.changes
  ipAddress := e.actor.ip
  userAgent := e.actor.userAgent

end CronMonitor
