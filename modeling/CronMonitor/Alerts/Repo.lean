import CronMonitor.Repo.Audit
import CronMonitor.StateMachine

/-!
# Alerts, escalation policies and maintenance windows

The statements of `alerts.repo.ts`, `escalation-policies.repo.ts` and `maintenance-windows.repo.ts`, over the tables of
`CronMonitor.Db` and those that only the alert runner reads. Timestamps that the database orders by may be equal; rows
with equal ones come in the order they were inserted.

`AlertStore.held`, `AlertStore.sent`, `AlertStore.asked` and `AlertStore.told` are observations: the alerts that a
delivery cycle has listed and not marked yet, the alerts handed to a channel, the incidents whose recovery has read whom
to notify, and those whose recovery has committed. No statement reads them.
-/

namespace CronMonitor

def AlertType.label : AlertType → String
  | .apiDown => "API_DOWN"
  | .apiRecovered => "API_RECOVERED"
  | .apiDegraded => "API_DEGRADED"
  | .highLatency => "HIGH_LATENCY"
  | .authenticationFailure => "AUTHENTICATION_FAILURE"
  | .repeatedFailure => "REPEATED_FAILURE"
  | .flappingDetected => "FLAPPING_DETECTED"
  | .escalationTriggered => "ESCALATION_TRIGGERED"
  | .slaBreachWarning => "SLA_BREACH_WARNING"
  | .schedulerHeartbeatMissed => "SCHEDULER_HEARTBEAT_MISSED"
  | .jobExecutionFailure => "JOB_EXECUTION_FAILURE"

namespace Alerts

inductive TierCondition
  | always | isMoneyMoving
deriving DecidableEq, Repr

/-- `escalationTierSchema`. -/
structure EscalationTier where
  delayMinutes : Nat
  channel : AlertChannel
  recipients : List String
  condition : TierCondition
  recipients_ne : recipients ≠ []
deriving DecidableEq

structure EscalationPolicy where
  id : Uuid
  tiers : List EscalationTier
deriving DecidableEq

structure MaintenanceWindow where
  targetId : Option Uuid
  startsAt : Time
  endsAt : Time
  reason : String
deriving DecidableEq, Repr

/-- What the alert runner reads of a row of `monitored_apis`. -/
structure AlertTarget where
  id : Uuid
  name : String
  escalationPolicyId : Option Uuid
deriving DecidableEq, Repr

structure EscalatableIncident where
  incident : Incident
  escalationPolicyId : Uuid
  targetName : String
deriving DecidableEq, Repr

structure AlertStore extends Store where
  targets : List AlertTarget
  policies : List EscalationPolicy
  windows : List MaintenanceWindow
  auditLogs : List AuditLog
  /-- the incidents whose row an open transaction has updated -/
  locked : List Uuid
  held : List Uuid
  sent : List Uuid
  asked : List Uuid
  told : List Uuid

namespace AlertStore

/-- A statement on the tables of `CronMonitor.Db`. -/
def lift {α : Type} (stmt : Stmt α) (st : AlertStore) : α × AlertStore :=
  ((stmt st.toStore).1, { st with toStore := (stmt st.toStore).2 })

/-- A transaction in which no statement fails. -/
def transaction {α : Type} (fn : SqlM α) (st : AlertStore) : AlertStore :=
  { st with toStore := ((withTransaction fn).exec ⟨st.toStore, none, none⟩).2.store }

def elapse (d : Nat) (st : AlertStore) : AlertStore := { st with now := st.now + d }

def mapAlerts (f : Alert → Alert) (st : AlertStore) : AlertStore :=
  { st with db := { st.db with alerts := st.db.alerts.map f } }

/-- The alert of `createAlert`, of a tier when it escalates. -/
def createAlert (i : CreateAlertInput) (escalationTier : Option Nat) (st : AlertStore) : AlertStore :=
  { st with
    nextUuid := st.nextUuid + 1
    db := { st.db with alerts := st.db.alerts ++ [{ Sql.newAlert i st.toStore with escalationTier }] } }

/-- `… WHERE status = 'PENDING' ORDER BY created_at ASC LIMIT $1`. -/
def listPendingAlerts (limit : Nat) (st : AlertStore) : List Alert :=
  ((st.db.alerts.filter (·.status = .pending)).insertionSort fun a b => a.createdAt ≤ b.createdAt).take limit

/-- The row that `markAlert` leaves. -/
def markedRow (status : AlertStatus) (detail : Option String) (now : Time) (a : Alert) : Alert :=
  { a with
    status
    sentAt := if status = .sent then some now else a.sentAt
    errorMessage := detail }

def markAlert (id : Uuid) (status : AlertStatus) (detail : Option String) (st : AlertStore) : AlertStore :=
  st.mapAlerts fun a => if a.id = id then markedRow status detail st.now a else a

/-- `SELECT MAX(escalation_tier) … WHERE incident_id = $1 AND status <> 'FAILED'`, or −1. -/
def highestTierFired (incidentId : Uuid) (st : AlertStore) : Int :=
  ((st.db.alerts.filter fun a => a.incidentId = some incidentId && a.status ≠ .failed).filterMap
    (·.escalationTier)).foldl (fun (m : Int) (k : Nat) => max m k) (-1)

def getIncident (id : Uuid) (st : AlertStore) : Option Incident := st.db.incidents.find? (·.id = id)

def findTargetById (id : Uuid) (st : AlertStore) : Option AlertTarget := st.targets.find? (·.id = id)

def getEscalationPolicy (id : Uuid) (st : AlertStore) : Option EscalationPolicy := st.policies.find? (·.id = id)

/-- The row of the work list for an incident: it is open, and its target has a policy. -/
def escalatable (st : AlertStore) (incident : Incident) : Option EscalatableIncident :=
  if incident.status = .opened then
    (st.findTargetById incident.apiId).bind fun target =>
      target.escalationPolicyId.map fun policyId => ⟨incident, policyId, target.name⟩
  else none

/-- `… ORDER BY i.started_at ASC`. -/
def listOpenIncidentsForEscalation (st : AlertStore) : List EscalatableIncident :=
  (st.db.incidents.filterMap st.escalatable).insertionSort fun a b => a.incident.startedAt ≤ b.incident.startedAt

/-- A window of the target comes before one of all targets. -/
def activeWindowForTarget (apiId : Uuid) (st : AlertStore) : Option MaintenanceWindow :=
  let active := st.windows.filter fun w => w.startsAt ≤ st.now && st.now < w.endsAt
  (active.find? (·.targetId = some apiId)).or (active.find? (·.targetId = none))

def recordAudit (e : AuditEntry) (st : AlertStore) : AlertStore := { st with auditLogs := st.auditLogs ++ [e.toLog] }

end AlertStore

end Alerts

end CronMonitor
