import CronMonitor.Alerts.Repo
import CronMonitor.Lib.Prog
import CronMonitor.Lib.Text

/-!
# Escalation, delivery, recovery and manual resolution

`escalation.service.ts`, `delivery.service.ts`, `recovery.ts`, `alert-runner.ts` and `resolveIncidentManually` as
programs over their statements. The transaction of a check is one command, except where it recovers: then it updates
the incident, which keeps the row locked, reads on the pool whom to notify, and commits. What a channel answers, and the
body of a notification, which quotes latency statistics and the stored root cause, come from outside (`World`).
-/

namespace CronMonitor.Alerts

namespace Channels

structure DeliveryResult where
  ok : Bool
  detail : String
deriving DecidableEq, Repr

end Channels

structure NotificationPayload where
  incidentId : Option Uuid
  apiId : Option Uuid
  escalationTier : Option Nat
deriving DecidableEq, Repr

structure Notification where
  alertType : AlertType
  severity : String
  subject : String
  body : String
  recipient : String
  incidentNumber : Option String
  targetName : Option String
  payload : NotificationPayload
deriving DecidableEq, Repr

inductive AlertCmd
  | listOpenIncidentsForEscalation
  | getEscalationPolicy (id : Uuid)
  | highestTierFired (incidentId : Uuid)
  | createAlert (i : CreateAlertInput) (escalationTier : Option Nat)
  | escalateIncident (id : Uuid) (level : Nat)
  | listPendingAlerts (limit : Nat)
  | getIncident (id : Uuid)
  | findTargetById (id : Uuid)
  | activeWindowForTarget (apiId : Uuid)
  | composeBody (alert : Alert) (incident : Option Incident) (target : Option AlertTarget)
  /-- `channelFor(alert.channel).send(notification)` -/
  | send (alertId : Uuid) (channel : AlertChannel) (n : Notification)
  | markAlert (id : Uuid) (status : AlertStatus) (detail : Option String)
  | findActiveIncident (apiId : Uuid)
  | openForCheck (ctx : CheckContext)
  | recordFailure (ctx : CheckContext) (active : Incident)
  /-- the `UPDATE` that resolves the incident, in an open transaction -/
  | resolveInTransaction (id : Uuid)
  | notifiedTargetsForIncident (incidentId : Uuid)
  | incidentAlertContacts
  /-- the recovery alerts, and the commit -/
  | commitRecovery (incidentId apiId : Uuid) (dests : List (AlertChannel × String))
  | resolveIncident (id : Uuid) (resolution : String)
  | recordAudit (e : AuditEntry)

namespace AlertCmd

abbrev Ans : AlertCmd → Type
  | listOpenIncidentsForEscalation => List EscalatableIncident
  | getEscalationPolicy _ => Option EscalationPolicy
  | highestTierFired _ => Int
  | listPendingAlerts _ => List Alert
  | getIncident _ | findActiveIncident _ | resolveInTransaction _ | resolveIncident _ _ => Option Incident
  | findTargetById _ => Option AlertTarget
  | activeWindowForTarget _ => Option MaintenanceWindow
  | composeBody _ _ _ => String
  | send _ _ _ => Channels.DeliveryResult
  | notifiedTargetsForIncident _ => List (AlertChannel × String)
  | incidentAlertContacts => List NotificationContact
  | createAlert _ _ | escalateIncident _ _ | markAlert _ _ _ | openForCheck _ | recordFailure _ _
  | commitRecovery _ _ _ | recordAudit _ => Unit

end AlertCmd

abbrev AlertProg (α : Type) := Prog AlertCmd AlertCmd.Ans α

/-- What lies outside: the time that passes before a command, and what is answered from there. -/
structure World where
  elapsed : Nat
  outcome : Channels.DeliveryResult
  body : String
deriving DecidableEq, Repr

/-! ### The commands -/

/-- The row is updated: a transaction that updated it must have ended. -/
def AlertCmd.enabled (st : AlertStore) : AlertCmd → Bool
  | escalateIncident id _ | resolveInTransaction id | resolveIncident id _ => id ∉ st.locked
  | recordFailure _ active => active.id ∉ st.locked
  | _ => true

/-- The alerts that a recovery queues, and the commit of its transaction. -/
def commitRecovery (incidentId apiId : Uuid) (dests : List (AlertChannel × String)) (st : AlertStore) : AlertStore :=
  let resolved := (st.lift (Sql.resolveIncident incidentId none)).2
  let queued := dests.foldl (fun st d =>
    st.createAlert ⟨.apiRecovered, d.1, d.2, some incidentId, some apiId⟩ none) resolved
  { queued with locked := queued.locked.erase incidentId, told := incidentId :: queued.told }

def AlertCmd.exec (env : Env) (w : World) : (c : AlertCmd) → AlertStore → c.Ans × AlertStore
  | listOpenIncidentsForEscalation, st => (st.listOpenIncidentsForEscalation, st)
  | getEscalationPolicy id, st => (st.getEscalationPolicy id, st)
  | highestTierFired id, st => (st.highestTierFired id, st)
  | createAlert i tier, st => ((), st.createAlert i tier)
  | escalateIncident id level, st => st.lift (Sql.escalateIncident id level)
  | listPendingAlerts limit, st =>
    (st.listPendingAlerts limit, { st with held := st.held ++ (st.listPendingAlerts limit).map (·.id) })
  | getIncident id, st => (st.getIncident id, st)
  | findTargetById id, st => (st.findTargetById id, st)
  | activeWindowForTarget apiId, st => (st.activeWindowForTarget apiId, st)
  | composeBody _ _ _, st => (w.body, st)
  | send alertId _ _, st => (w.outcome, { st with sent := st.sent ++ [alertId] })
  | markAlert id status detail, st =>
    ((), { st.markAlert id status detail with held := st.held.erase id })
  | findActiveIncident apiId, st => st.lift (Sql.findActiveIncident apiId)
  | openForCheck ctx, st => ((), st.transaction (CronMonitor.openForCheck env ctx .client))
  | recordFailure ctx active, st => ((), st.transaction (CronMonitor.recordFailure env ctx active .client))
  | resolveInTransaction id, st =>
    match st.db.incidents.find? fun i => i.id = id && i.isActive with
    | some i => (some (Sql.resolvedRow st.now none i), { st with locked := id :: st.locked })
    | none => (none, st)
  | notifiedTargetsForIncident id, st =>
    ((Sql.notifiedTargetsForIncident id st.toStore).1, { st with asked := id :: st.asked })
  | incidentAlertContacts, st => st.lift Sql.incidentAlertContacts
  | commitRecovery incidentId apiId dests, st => ((), Alerts.commitRecovery incidentId apiId dests st)
  | resolveIncident id resolution, st => st.lift (Sql.resolveIncident id (some resolution))
  | recordAudit e, st => ((), st.recordAudit e)

/-! ### The functions that send them -/

abbrev issue (c : AlertCmd) : AlertProg c.Ans := Prog.cmd c

abbrev listOpenIncidentsForEscalation : AlertProg (List EscalatableIncident) := issue .listOpenIncidentsForEscalation
abbrev getEscalationPolicy (id : Uuid) : AlertProg (Option EscalationPolicy) := issue (.getEscalationPolicy id)
abbrev highestTierFired (incidentId : Uuid) : AlertProg Int := issue (.highestTierFired incidentId)
abbrev createAlert (i : CreateAlertInput) (escalationTier : Option Nat) : AlertProg Unit :=
  issue (.createAlert i escalationTier)
abbrev escalateIncident (id : Uuid) (level : Nat) : AlertProg Unit := issue (.escalateIncident id level)
abbrev listPendingAlerts (limit : Nat) : AlertProg (List Alert) := issue (.listPendingAlerts limit)
abbrev getIncident (id : Uuid) : AlertProg (Option Incident) := issue (.getIncident id)
abbrev findTargetById (id : Uuid) : AlertProg (Option AlertTarget) := issue (.findTargetById id)
abbrev activeWindowForTarget (apiId : Uuid) : AlertProg (Option MaintenanceWindow) := issue (.activeWindowForTarget apiId)
abbrev composeBody (alert : Alert) (incident : Option Incident) (target : Option AlertTarget) : AlertProg String :=
  issue (.composeBody alert incident target)
abbrev send (alertId : Uuid) (channel : AlertChannel) (n : Notification) : AlertProg Channels.DeliveryResult :=
  issue (.send alertId channel n)
abbrev markAlert (id : Uuid) (status : AlertStatus) (detail : String) : AlertProg Unit :=
  issue (.markAlert id status (some detail))
abbrev findActiveIncident (apiId : Uuid) : AlertProg (Option Incident) := issue (.findActiveIncident apiId)
abbrev resolveInTransaction (id : Uuid) : AlertProg (Option Incident) := issue (.resolveInTransaction id)
abbrev notifiedTargetsForIncident (incidentId : Uuid) : AlertProg (List (AlertChannel × String)) :=
  issue (.notifiedTargetsForIncident incidentId)
abbrev incidentAlertContacts : AlertProg (List NotificationContact) := issue .incidentAlertContacts
abbrev resolveIncident (id : Uuid) (resolution : String) : AlertProg (Option Incident) :=
  issue (.resolveIncident id resolution)

/-! ### Escalation -/

structure EscalationResult where
  incidentsScanned : Nat
  tiersFired : Nat
deriving DecidableEq, Repr

def tierIsDue (startedAt : Time) (delayMinutes : Nat) (now : Time) : Bool := delayMinutes * 60000 ≤ now - startedAt

/-- The policies read in this pass, and how many tiers fired. -/
structure EscalationPass where
  policyCache : List (Uuid × Option EscalationPolicy)
  tiersFired : Nat

/-- The policy is read once in a pass. -/
def EscalationPass.policy (pass : EscalationPass) (id : Uuid) :
    AlertProg (Option EscalationPolicy × EscalationPass) :=
  match pass.policyCache.lookup id with
  | some policy => return (policy, pass)
  | none => do
    let policy ← getEscalationPolicy id
    return (policy, { pass with policyCache := (id, policy) :: pass.policyCache })

/-- The alerts of a tier. -/
def fireTier (incident : Incident) (tier : EscalationTier) (index : Nat) : AlertProg Unit :=
  tier.recipients.forM fun recipient =>
    createAlert ⟨.escalationTriggered, tier.channel, recipient, some incident.id, some incident.apiId⟩ (some index)

/-- One incident of a pass. -/
def escalate (now : Time) (pass : EscalationPass) (work : EscalatableIncident) : AlertProg EscalationPass := do
  let (policy, pass) ← pass.policy work.escalationPolicyId
  match policy with
  | none => return pass
  | some policy =>
    if policy.tiers = [] then return pass
    let lastFired ← highestTierFired work.incident.id
    let nextIndex := (lastFired + 1).toNat
    match policy.tiers[nextIndex]? with
    | none => return pass
    | some tier =>
      if tier.condition = .isMoneyMoving ∧ ¬ work.incident.isMoneyMovingSnapshot then
        escalateIncident work.incident.id nextIndex
        return pass
      if ¬ tierIsDue work.incident.startedAt tier.delayMinutes now then return pass
      fireTier work.incident tier nextIndex
      escalateIncident work.incident.id nextIndex
      return { pass with tiersFired := pass.tiersFired + 1 }

def runEscalationCycle (now : Time) : AlertProg EscalationResult := do
  let work ← listOpenIncidentsForEscalation
  let pass ← work.foldlM (escalate now) ⟨[], 0⟩
  return ⟨work.length, pass.tiersFired⟩

/-! ### Delivery -/

def subjectFor (alert : Alert) (incidentNumber targetName : Option String) : String :=
  let who := (targetName.map fun n => s!"\"{n}\"").getD "a target"
  let suffix := (incidentNumber.map fun n => s!" ({n})").getD ""
  match alert.alertType with
  | .apiDown => s!"{who} is DOWN{suffix}"
  | .apiDegraded => s!"{who} is DEGRADED{suffix}"
  | .apiRecovered => s!"{who} has RECOVERED{suffix}"
  | .flappingDetected => s!"{who} is FLAPPING{suffix}"
  | .escalationTriggered =>
    let tier := (alert.escalationTier.map toString).getD "?"
    s!"Escalation tier {tier} for {incidentNumber.getD who}"
  | .schedulerHeartbeatMissed => "Scheduler missed a run"
  | .jobExecutionFailure => s!"Health check failed to execute for {who}"
  | other => s!"{other.label} — {who}"

def notificationFor (alert : Alert) (incident : Option Incident) (target : Option AlertTarget) (body : String) :
    Notification where
  alertType := alert.alertType
  severity := (incident.map (·.severity.label)).getD (if alert.alertType = .apiRecovered then "INFO" else "HIGH")
  subject := subjectFor alert (incident.map (·.incidentNumber)) (target.map (·.name))
  body := body
  recipient := alert.recipient
  incidentNumber := incident.map (·.incidentNumber)
  targetName := target.map (·.name)
  payload := ⟨alert.incidentId, alert.apiId, alert.escalationTier⟩

structure DeliveryResult where
  delivered : Nat
  suppressed : Nat
  failed : Nat
deriving DecidableEq, Repr

/-- A read of the row a column refers to, if it refers to one. -/
def readBy {β : Type} (id : Option Uuid) (read : Uuid → AlertProg (Option β)) : AlertProg (Option β) :=
  match id with
  | some id => read id
  | none => return none

/-- One alert of a cycle. -/
def deliver (result : DeliveryResult) (alert : Alert) : AlertProg DeliveryResult := do
  let incident ← readBy alert.incidentId getIncident
  let target ← readBy alert.apiId findTargetById
  let window ← readBy (if alert.alertType ≠ .apiRecovered then alert.apiId else none) activeWindowForTarget
  match window with
  | some window =>
    markAlert alert.id .suppressed s!"maintenance window: {window.reason}"
    return { result with suppressed := result.suppressed + 1 }
  | none =>
    let body ← composeBody alert incident target
    let outcome ← send alert.id alert.channel (notificationFor alert incident target body)
    if outcome.ok then
      markAlert alert.id .sent outcome.detail
      return { result with delivered := result.delivered + 1 }
    else
      markAlert alert.id .failed outcome.detail
      return { result with failed := result.failed + 1 }

def runDeliveryCycle : AlertProg DeliveryResult := do
  let pending ← listPendingAlerts 200
  pending.foldlM deliver ⟨0, 0, 0⟩

/-- A cycle of the alert runner; the anomaly scan at its end leaves alerts alone. -/
def cycle (now : Time) : AlertProg Unit := do
  let _ ← runEscalationCycle now
  let _ ← runDeliveryCycle
  return ()

/-! ### Checks and manual resolution -/

/-- The destinations of `queueRecoveryAlerts`, each once. -/
def recoveryDests (env : Env) (contacts : List NotificationContact) (notified : List (AlertChannel × String)) :
    List (AlertChannel × String) :=
  let defaults := env.alertDefaultChannels.map fun channel => (channel, env.alertDefaultRecipient)
  let dests := defaults ++ contacts.map (fun c => (c.channel, c.address)) ++ notified
  dests.reverse.dedup.reverse

/-- The branch of `processCheckOutcome` that recovers. -/
def recover (env : Env) (ctx : CheckContext) (active : Incident) : AlertProg Unit := do
  if env.incidentRecoveryStreak ≤ ctx.consecutiveSuccesses then
    let resolved ← resolveInTransaction active.id
    match resolved with
    | none => return ()
    | some resolved =>
      let notified ← notifiedTargetsForIncident resolved.id
      let contacts ← incidentAlertContacts
      issue (.commitRecovery resolved.id ctx.target.id (recoveryDests env contacts notified))
  else return ()

/-- `processCheckOutcome` in its transaction. -/
def processCheck (env : Env) (ctx : CheckContext) : AlertProg Unit := do
  let active ← findActiveIncident ctx.target.id
  match ctx.status, active with
  | .unknown, _ => return ()
  | .up, none => return ()
  | .up, some active => recover env ctx active
  | .down, none | .degraded, none => issue (.openForCheck ctx)
  | .down, some active | .degraded, some active => issue (.recordFailure ctx active)

inductive IncidentError
  | notFound (message : String)
  | validation (message : String)
deriving DecidableEq, Repr

def resolvedEntry (id : Uuid) (updated : Incident) (resolution : String) (actor : AuditActor) : AuditEntry where
  actor := actor
  action := "incident.resolved"
  entityType := "incident"
  entityId := some id
  summary :=
    let seconds := (updated.durationSeconds.map toString).getD "?"
    some s!"Manually resolved {updated.incidentNumber} after {seconds}s"
  changes := some s!"\x7b\"after\":\x7b\"resolution\":{resolution.quote}\x7d\x7d"

def resolveIncidentManually (id : Uuid) (resolution : String) (actor : AuditActor) :
    AlertProg (Except IncidentError Incident) := do
  if resolution.toList.all Text.isJsSpace then return .error (.validation "A resolution note is required")
  let existing ← getIncident id
  match existing with
  | none => return .error (.notFound s!"Incident {id} not found")
  | some existing =>
    if existing.status = .resolved then return .error (.validation "Incident is already resolved")
    let updated ← resolveIncident id resolution
    match updated with
    | none => return .error (.notFound s!"Incident {id} not found")
    | some updated =>
      issue (.recordAudit (resolvedEntry id updated resolution actor))
      return .ok updated

/-! ### Beside each other -/

/-- What starts a program: the interval timer, the result of a check, a request. -/
inductive AlertRequest
  | cycle (now : Time)
  | check (ctx : CheckContext)
  | resolve (id : Uuid) (resolution : String) (actor : AuditActor)

def AlertRequest.program (env : Env) : AlertRequest → AlertProg Unit
  | cycle now => Alerts.cycle now
  | check ctx => processCheck env ctx
  | resolve id resolution actor => do
    let _ ← resolveIncidentManually id resolution actor
    return ()

def alertSemantics (env : Env) : Concurrent.Semantics AlertStore AlertCmd AlertCmd.Ans AlertRequest World where
  program := AlertRequest.program env
  enabled c st := c.enabled st
  exec w c st := c.exec env w (st.elapse w.elapsed)

abbrev AlertSys := Concurrent AlertStore AlertCmd AlertCmd.Ans

abbrev AlertLabel := Concurrent.Label AlertRequest World

abbrev alertStep (env : Env) : AlertSys → AlertLabel → Option AlertSys := Concurrent.step (alertSemantics env)

end CronMonitor.Alerts
