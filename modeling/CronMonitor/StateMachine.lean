import CronMonitor.Repo.Incidents
import CronMonitor.Repo.Scheduler

/-!
# The incident state machine

`processCheckOutcome` of `state-machine.service.ts` with the alerts and timeline events it writes, and
`queueRecoveryAlerts` of `alert/recovery.ts`. Everything is written through the client it is given; the
two reads that the source sends on the pool stay on the pool.
-/

namespace CronMonitor

/-- The alerts of an incident event: one per default channel, one per incident-alert contact. -/
def recordDefaultAlerts (env : Env) (alertType : AlertType) (apiId incidentId : Uuid) (errorMessage : String)
    (runner : SqlRunner) : SqlM Unit := do
  env.alertDefaultChannels.forM fun channel =>
    recordAlert ⟨alertType, channel, env.alertDefaultRecipient, some incidentId, some apiId, some errorMessage⟩ runner
  let contacts ← incidentAlertContacts
  contacts.forM fun contact =>
    recordAlert ⟨alertType, contact.channel, contact.address, some incidentId, some apiId, some errorMessage⟩ runner

/-- Recovery alerts: to the default channels, the contacts and whoever heard of the incident, each
destination once. -/
def queueRecoveryAlerts (env : Env) (incidentId apiId : Uuid) (runner : SqlRunner) : SqlM Unit := do
  let notified ← notifiedTargetsForIncident incidentId
  let contacts ← incidentAlertContacts
  let defaults := env.alertDefaultChannels.map fun channel => (channel, env.alertDefaultRecipient)
  let dests := defaults ++ contacts.map (fun c => (c.channel, c.address)) ++ notified
  -- `seen` keeps the first occurrence of a destination.
  (dests.reverse.dedup.reverse).forM fun d => do
    let _ ← createAlert ⟨.apiRecovered, d.1, d.2, some incidentId, some apiId⟩ runner

structure CheckContext where
  target : MonitoredApi
  status : HealthStatus
  failureType : Option CheckFailureType
  checkId : Option Uuid
  /-- The recovery counter after this check was recorded. -/
  consecutiveSuccesses : Nat
deriving DecidableEq, Repr

inductive IncidentTransition
  | opened (incident : Incident)
  | failureRecorded (incident : Incident)
  | flappingDetected (incident : Incident)
  | resolved (incident : Incident)
  | noop
deriving DecidableEq, Repr

/-- `DEGRADE`: one level down, with `LOW` at the bottom. -/
def degrade : Severity → Severity
  | .critical => .high
  | .high => .medium
  | .medium => .low
  | .low => .low

/-- Marks the active incident as flapping when the target changed state too often; returns the incident as
it is known afterwards, or `none` below the threshold. -/
def checkFlapping (env : Env) (target : MonitoredApi) (active : Option Incident) (runner : SqlRunner) :
    SqlM (Option Incident) := do
  let transitions ← countStatusTransitions target.id env.flappingWindowMinutes runner
  if transitions < env.flappingThreshold then return none
  match active with
  | some a =>
    if a.incidentType ≠ .flapping then
      markIncidentFlapping a.id runner
      recordIncidentEvent
        ⟨a.id, .flappingDetected,
          "\"" ++ target.name ++ "\" changed state " ++ toString transitions ++ "× in " ++
            toString env.flappingWindowMinutes ++ " min",
          [("transitions", toString transitions), ("windowMinutes", toString env.flappingWindowMinutes)],
          "state_machine"⟩ runner
      recordDefaultAlerts env .flappingDetected target.id a.id
        ("\"" ++ target.name ++ "\" changed state " ++ toString transitions ++ "× in " ++
          toString env.flappingWindowMinutes ++ "m") runner
      return some { a with incidentType := .flapping }
    else return active
  | none => return active

/-- The `!active` branch: opens an incident for a failing check. -/
def openForCheck (env : Env) (ctx : CheckContext) (runner : SqlRunner) : SqlM IncidentTransition := do
  let isDown := ctx.status = .down
  let incident ← openIncident
    { apiId := ctx.target.id
      incidentType := if isDown then .outage else .degradation
      severity := if isDown then ctx.target.severityDefault else degrade ctx.target.severityDefault
      endpointClassSnapshot := ctx.target.endpointClass
      isMoneyMovingSnapshot := ctx.target.isMoneyMoving
      detectedByCheckId := ctx.checkId
      failureType := ctx.failureType } runner
  recordDefaultAlerts env (if isDown then .apiDown else .apiDegraded) ctx.target.id incident.id
    (incident.incidentNumber ++ " opened (" ++ ctx.status.label ++ ", " ++
      (ctx.failureType.map (·.label)).getD "n/a" ++ ")") runner
  let flapped ← checkFlapping env ctx.target (some incident) runner
  match flapped with
  | some f =>
    if f.incidentType = .flapping ∧ incident.incidentType ≠ .flapping then return .flappingDetected f
    else return .opened incident
  | none => return .opened incident

/-- A timeline entry when the failure signature changes. -/
def noteFailureChange (ctx : CheckContext) (active : Incident) (runner : SqlRunner) : SqlM Unit :=
  match ctx.failureType with
  | none => pure ()
  | some f =>
    if active.failureType = some f then pure ()
    else
      recordIncidentEvent
        ⟨active.id, .failureChanged,
          (match active.failureType with
            | none => "Failure classified as " ++ f.label
            | some g => "Failure changed: " ++ g.label ++ " → " ++ f.label),
          [("from", (active.failureType.map (·.label)).getD "null"), ("to", f.label),
            ("checkId", (ctx.checkId.map toString).getD "null")],
          "state_machine"⟩ runner

/-- A `DOWN` check while a `DEGRADATION` incident is open promotes it to a full outage at the target's
real severity. -/
def promoteIfDegraded (ctx : CheckContext) (active : Incident) (runner : SqlRunner) : SqlM Incident := do
  if ctx.status = .down ∧ active.incidentType = .degradation then
    escalateIncident active.id 0 runner
    query runner (Sql.promoteIncident active.id ctx.target.severityDefault)
    recordIncidentEvent
      ⟨active.id, .severityEscalated,
        "Promoted to OUTAGE (" ++ active.severity.label ++ " → " ++ ctx.target.severityDefault.label ++
          ") — a DOWN check while degraded",
        [("from", active.severity.label), ("to", ctx.target.severityDefault.label)], "state_machine"⟩ runner
    return { active with incidentType := .outage, severity := ctx.target.severityDefault }
  else return active

/-- The last branch: a failing check while `active` is open. -/
def recordFailure (env : Env) (ctx : CheckContext) (active : Incident) (runner : SqlRunner) :
    SqlM IncidentTransition := do
  noteFailureChange ctx active runner
  incrementFailureCount active.id ctx.failureType runner
  let active ← promoteIfDegraded ctx active runner
  let flapped ← checkFlapping env ctx.target (some active) runner
  match flapped with
  | some f =>
    if f.incidentType = .flapping ∧ active.incidentType ≠ .flapping then return .flappingDetected f
    else return .failureRecorded f
  | none => return .failureRecorded active

/-- The `UP` branch while `active` is open: resolves it once the recovery streak is complete. -/
def recoverIfStreak (env : Env) (ctx : CheckContext) (active : Incident) (runner : SqlRunner) :
    SqlM IncidentTransition := do
  if env.incidentRecoveryStreak ≤ ctx.consecutiveSuccesses then
    let resolved ← resolveIncident active.id none runner
    match resolved with
    | none => return .noop
    | some r =>
      queueRecoveryAlerts env r.id ctx.target.id runner
      return .resolved r
  else return .noop

/-- `processCheckOutcome` from the incident that it has found. -/
def processFound (env : Env) (ctx : CheckContext) (active : Option Incident) (runner : SqlRunner) :
    SqlM IncidentTransition :=
  match ctx.status, active with
  | .unknown, _ => pure .noop
  | .up, none => pure .noop
  | .up, some a => recoverIfStreak env ctx a runner
  | .down, none | .degraded, none => openForCheck env ctx runner
  | .down, some a | .degraded, some a => recordFailure env ctx a runner

/-- Drives the incident state machine for one recorded check. -/
def processCheckOutcome (env : Env) (ctx : CheckContext) (runner : SqlRunner) : SqlM IncidentTransition := do
  let active ← findActiveIncident ctx.target.id runner
  processFound env ctx active runner

end CronMonitor
