import CronMonitor.Db

/-!
# `incidents.repo.ts` and the tables around it

The statements on `incidents`, `incident_events`, `alerts` and `notification_contacts` that the incident
state machine sends, in the form of `CronMonitor.Repo.Scheduler`.
-/

namespace CronMonitor

structure OpenIncidentInput where
  apiId : Uuid
  incidentType : IncidentType
  severity : Severity
  endpointClassSnapshot : EndpointClass
  isMoneyMovingSnapshot : Bool
  detectedByCheckId : Option Uuid
  failureType : Option CheckFailureType
deriving DecidableEq, Repr

structure IncidentEventInput where
  incidentId : Uuid
  kind : IncidentEventKind
  summary : String
  detail : List (String × String)
  source : String
deriving DecidableEq, Repr

structure CreateAlertInput where
  alertType : AlertType
  channel : AlertChannel
  recipient : String
  incidentId : Option Uuid
  apiId : Option Uuid
deriving DecidableEq, Repr

/-- The incident is not resolved. -/
def Incident.isActive (i : Incident) : Bool := i.status ≠ .resolved

/-- `to_char(…, 'YYYY')`: the civil year of an instant, in UTC. -/
def yearOf (t : Time) : Int :=
  let z := t / 86400000 + 719468
  let era := z / 146097
  let doe := z - era * 146097
  let yoe := (doe - doe / 1460 + doe / 36524 - doe / 146096) / 365
  let doy := doe - (365 * yoe + yoe / 4 - yoe / 100)
  -- The computational year starts in March: the last two months belong to the next civil year.
  if (5 * doy + 2) / 153 < 10 then yoe + era * 400 else yoe + era * 400 + 1

/-- `lpad(…, 6, '0')`, which also cuts a longer text to six characters. -/
def lpad6 (s : String) : String :=
  String.ofList (List.replicate (6 - s.length) '0' ++ s.toList.take 6)

/-- `'INC-' || to_char(now(), 'YYYY') || '-' || lpad(nextval('incident_number_seq')::text, 6, '0')`. -/
def incidentNumberText (now : Time) (n : Nat) : String :=
  "INC-" ++ toString (yearOf now) ++ "-" ++ lpad6 (toString n)

/-- The number of places where neighbouring statuses differ. -/
def countChanges : List HealthStatus → Nat
  | a :: b :: rest => (if b ≠ a then 1 else 0) + countChanges (b :: rest)
  | _ => 0

/-- The rows ordered by `checked_at`, earliest first. -/
def sortByCheckedAt (rows : List HealthCheckResult) : List HealthCheckResult :=
  rows.insertionSort fun a b => a.checkedAt ≤ b.checkedAt

/-- The contacts ordered by channel, then address. -/
def sortContacts (contacts : List NotificationContact) : List NotificationContact :=
  contacts.insertionSort fun a b =>
    a.channel.rank < b.channel.rank ∨ (a.channel.rank = b.channel.rank ∧ a.address ≤ b.address)

namespace Sql

def findActiveIncident (apiId : Uuid) : Stmt (Option Incident) := fun st =>
  (st.db.incidents.find? fun i => i.apiId = apiId && i.isActive, st)

/-- The row that `openIncident` inserts and returns. -/
def newIncident (i : OpenIncidentInput) (st : Store) : Incident where
  id := st.nextUuid
  apiId := i.apiId
  incidentNumber := incidentNumberText st.now st.incidentNumberSeq
  incidentType := i.incidentType
  severity := i.severity
  endpointClassSnapshot := i.endpointClassSnapshot
  isMoneyMovingSnapshot := i.isMoneyMovingSnapshot
  status := .opened
  startedAt := st.now
  detectedByCheckId := i.detectedByCheckId
  resolvedAt := none
  durationSeconds := none
  failureCount := 1
  failureType := i.failureType
  escalationLevelReached := 0
  resolution := none

/-- `INSERT INTO incidents … RETURNING …`; the number is drawn from the sequence. -/
def openIncident (i : OpenIncidentInput) : Stmt Incident := fun st =>
  (newIncident i st,
    { st with
      nextUuid := st.nextUuid + 1
      incidentNumberSeq := st.incidentNumberSeq + 1
      db := { st.db with incidents := st.db.incidents ++ [newIncident i st] } })

/-- `UPDATE incidents SET … WHERE id = $1`. -/
def updateIncident (id : Uuid) (f : Incident → Incident) : Stmt Unit := fun st =>
  ((), { st with db := { st.db with incidents := st.db.incidents.map fun i => if i.id = id then f i else i } })

def incrementFailureCount (id : Uuid) (failureType : Option CheckFailureType) : Stmt Unit :=
  updateIncident id fun i =>
    { i with failureCount := i.failureCount + 1, failureType := failureType <|> i.failureType }

def markIncidentFlapping (id : Uuid) : Stmt Unit :=
  updateIncident id fun i => { i with incidentType := .flapping }

def escalateIncident (id : Uuid) (level : Nat) : Stmt Unit :=
  updateIncident id fun i => { i with escalationLevelReached := max i.escalationLevelReached level }

/-- `UPDATE incidents SET incident_type = 'OUTAGE', severity = $2 WHERE id = $1`. -/
def promoteIncident (id : Uuid) (severity : Severity) : Stmt Unit :=
  updateIncident id fun i => { i with incidentType := .outage, severity }

/-- The row that `resolveIncident` leaves. -/
def resolvedRow (now : Time) (resolution : Option String) (i : Incident) : Incident :=
  { i with
    status := .resolved
    resolvedAt := some now
    -- The cast to `int` rounds the seconds.
    durationSeconds := some ((now - i.startedAt + 500) / 1000)
    resolution := resolution <|> i.resolution }

/-- `UPDATE incidents SET status = 'RESOLVED', … WHERE id = $1 AND status <> 'RESOLVED' RETURNING …`. -/
def resolveIncident (id : Uuid) (resolution : Option String) : Stmt (Option Incident) := fun st =>
  ((st.db.incidents.find? fun i => i.id = id && i.isActive).map (resolvedRow st.now resolution),
    { st with db := { st.db with incidents := st.db.incidents.map fun i =>
      if i.id = id && i.isActive then resolvedRow st.now resolution i else i } })

/-- The row that `acknowledgeIncident` leaves. -/
def acknowledgedRow (i : Incident) : Incident :=
  { i with status := if i.status = .opened then .acknowledged else i.status }

/-- `UPDATE incidents SET status = CASE WHEN status = 'OPEN' THEN 'ACKNOWLEDGED' … WHERE id = $1 AND status <> 'RESOLVED'
RETURNING …`. -/
def acknowledgeIncident (id : Uuid) : Stmt (Option Incident) := fun st =>
  ((st.db.incidents.find? fun i => i.id = id && i.isActive).map acknowledgedRow,
    { st with db := { st.db with incidents := st.db.incidents.map fun i =>
      if i.id = id && i.isActive then acknowledgedRow i else i } })

/-- The transitions among the target's results of the last `windowMinutes`. -/
def countStatusTransitions (apiId : Uuid) (windowMinutes : Nat) : Stmt Nat := fun st =>
  (countChanges ((sortByCheckedAt (st.db.healthCheckResults.filter fun r =>
    r.apiId = apiId && decide (st.now - windowMinutes * 60000 < r.checkedAt))).map (·.status)), st)

def recordIncidentEvent (i : IncidentEventInput) : Stmt Unit := fun st =>
  ((), { st with db := { st.db with
    incidentEvents := st.db.incidentEvents ++ [{
      incidentId := i.incidentId, occurredAt := st.now, kind := i.kind, summary := i.summary
      detail := i.detail, source := i.source }] } })

/-- The row that `createAlert` inserts and returns. -/
def newAlert (i : CreateAlertInput) (st : Store) : Alert where
  id := st.nextUuid
  incidentId := i.incidentId
  apiId := i.apiId
  alertType := i.alertType
  channel := i.channel
  recipient := i.recipient
  status := .pending
  escalationTier := none
  sentAt := none
  errorMessage := none
  createdAt := st.now

def createAlert (i : CreateAlertInput) : Stmt Alert := fun st =>
  (newAlert i st,
    { st with nextUuid := st.nextUuid + 1, db := { st.db with alerts := st.db.alerts ++ [newAlert i st] } })

/-- `SELECT DISTINCT channel, recipient … status = 'SENT' AND alert_type <> 'API_RECOVERED'`. -/
def notifiedTargetsForIncident (incidentId : Uuid) : Stmt (List (AlertChannel × String)) := fun st =>
  (((st.db.alerts.filter fun a =>
    a.incidentId = some incidentId && a.status = .sent && a.alertType ≠ .apiRecovered).map fun a =>
      (a.channel, a.recipient)).dedup, st)

/-- `… WHERE is_active AND incident_alerts ORDER BY channel, address`. -/
def incidentAlertContacts : Stmt (List NotificationContact) := fun st =>
  (sortContacts (st.db.notificationContacts.filter fun c => c.isActive && c.incidentAlerts), st)

end Sql

def findActiveIncident (apiId : Uuid) (runner : SqlRunner) : SqlM (Option Incident) :=
  query runner (Sql.findActiveIncident apiId)

def openIncident (i : OpenIncidentInput) (runner : SqlRunner) : SqlM Incident := query runner (Sql.openIncident i)

def incrementFailureCount (id : Uuid) (failureType : Option CheckFailureType) (runner : SqlRunner) : SqlM Unit :=
  query runner (Sql.incrementFailureCount id failureType)

def markIncidentFlapping (id : Uuid) (runner : SqlRunner) : SqlM Unit :=
  query runner (Sql.markIncidentFlapping id)

def escalateIncident (id : Uuid) (level : Nat) (runner : SqlRunner) : SqlM Unit :=
  query runner (Sql.escalateIncident id level)

def resolveIncident (id : Uuid) (resolution : Option String) (runner : SqlRunner) : SqlM (Option Incident) :=
  query runner (Sql.resolveIncident id resolution)

def countStatusTransitions (apiId : Uuid) (windowMinutes : Nat) (runner : SqlRunner) : SqlM Nat :=
  query runner (Sql.countStatusTransitions apiId windowMinutes)

def recordIncidentEvent (i : IncidentEventInput) (runner : SqlRunner) : SqlM Unit :=
  query runner (Sql.recordIncidentEvent i)

def createAlert (i : CreateAlertInput) (runner : SqlRunner) : SqlM Alert := query runner (Sql.createAlert i)

/-- Takes no client: it reads what is committed. -/
def notifiedTargetsForIncident (incidentId : Uuid) : SqlM (List (AlertChannel × String)) :=
  query .pool (Sql.notifiedTargetsForIncident incidentId)

/-- Takes no client: it reads what is committed. -/
def incidentAlertContacts : SqlM (List NotificationContact) := query .pool Sql.incidentAlertContacts

end CronMonitor
