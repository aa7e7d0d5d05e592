import CronMonitor.Alerts.Service
import CronMonitor.JobRunner
import CronMonitor.LoadTest.Execute
import CronMonitor.Sla.Service

/-!
# A load run beside the monitor

`executeRun` opens a maintenance window for its target before it marks the run RUNNING and deletes it in its `finally`;
`recoverStaleRuns` deletes the windows of the runs it abandons, in a statement of its own. The checks of the target, the
cycles of the alert runner and the SLA queries go on meanwhile, and look at the windows when they come to it.

`IsolationSys` is all of them at once. An execution stands at one of its statements, and one that takes no more steps is
a lost worker. The alert runner takes the steps of `alertStep`, its windows being those of this table.
`duringRun` and `raised` are observations: the results recorded while a run of their target was RUNNING, and the alerts
other than of a recovery that came with them.
-/

namespace CronMonitor.LoadTest
open Alerts (AlertStore AlertSys AlertLabel AlertCmd AlertProg alertStep)

/-- A row of `maintenance_windows`. -/
structure WindowRow where
  id : Uuid
  window : Alerts.MaintenanceWindow
deriving DecidableEq

/-- What `executeRun` is about to do. -/
inductive ExecutionPc
  /-- The gate, the script and the credentials, and then the window. -/
  | preparing
  | marking (windowId : Uuid)
  /-- k6 runs, and the row is kept alive. -/
  | running (windowId : Uuid)
  /-- The `finally` block. -/
  | closing (windowId : Uuid)
  | done
deriving DecidableEq

structure Execution where
  run : LoadRun
  pc : ExecutionPc
deriving DecidableEq

structure IsolationSys where
  store : AlertStore
  /-- The programs of the alert runner. -/
  calls : List (AlertProg Unit)
  windows : List WindowRow
  runs : LoadRuns
  executions : List Execution
  /-- The windows of abandoned runs that are still to be deleted, for each call of `recoverStaleRuns`. -/
  abandoned : List (List Uuid)
  duringRun : List Uuid
  raised : List Uuid

/-- What the surroundings decide for a step of `executeRun`: whether what it does there fails, whether the `catch` block
then fails as well, and how k6 ends if it does. -/
structure ExecutionEvent where
  fails : Bool
  catchFails : Bool
  k6Version : String
  result : Option RunResult

inductive IsolationLabel
  | cycle (now : Time)
  | resolve (id : Uuid) (resolution : String) (actor : AuditActor)
  | advance (i : Nat) (w : Alerts.World)
  /-- The result transaction of a check. -/
  | check (target : MonitoredApi) (slot : Time) (claimId : Uuid) (outcome : HealthCheckOutcome)
  | queue (planId apiId : Uuid) (snapshot : PlanSnapshot) (effectiveClass : Option LoadEnvironmentClass)
      (requestedBy : Option Uuid)
  | claim (workerId : String) (locked : List Uuid)
  | execute (i : Nat) (e : ExecutionEvent)
  | requestAbort (id : Uuid) (reason : String)
  | recoverStale (staleSeconds : Nat)
  | deleteAbandoned
  | elapse (ms : Nat)

namespace IsolationSys

variable (env : Env)

/-- The alert runner, which sees the windows of the table. -/
def alerts (s : IsolationSys) : AlertSys :=
  ⟨{ s.store with windows := s.windows.map (·.window) }, s.calls⟩

def now (s : IsolationSys) : Time := s.store.now

def setAlerts (s : IsolationSys) (a : AlertSys) : IsolationSys := { s with store := a.store, calls := a.calls }

/-! ### Windows -/

def createMaintenanceWindow (s : IsolationSys) (w : Alerts.MaintenanceWindow) : IsolationSys :=
  { s with
    windows := s.windows ++ [⟨s.store.nextUuid, w⟩]
    store := { s.store with nextUuid := s.store.nextUuid + 1 } }

/-- `DELETE FROM maintenance_windows WHERE id = ANY($1)`. -/
def deleteMaintenanceWindows (s : IsolationSys) (ids : List Uuid) : IsolationSys :=
  { s with windows := s.windows.filter (·.id ∉ ids) }

/-- The window of a run: three minutes more than the plan lasts. -/
def runWindow (run : LoadRun) (now : Time) : Alerts.MaintenanceWindow where
  targetId := some run.data.apiId
  startsAt := now
  endsAt := now + (run.data.snapshot.config.durationSeconds + 180) * 1000
  reason := s!"Load test run {run.id}"

/-! ### `executeRun` -/

def finishRun (s : IsolationSys) (id : Uuid) (r : RunResult) : IsolationSys :=
  { s with runs := s.runs.finishRun id r.status r.finishedReason r.summary r.error s.now }

/-- The `catch` block. -/
def runnerError : RunResult := ⟨.failed, "runner error", none, none⟩

/-- An error of its own is only logged: the row stays as it is. -/
def catchRun (s : IsolationSys) (id : Uuid) (e : ExecutionEvent) : IsolationSys :=
  if e.catchFails then s else s.finishRun id runnerError

/-- The next statement of an execution, and where it stands then. -/
def executeNext (s : IsolationSys) (x : Execution) (e : ExecutionEvent) : IsolationSys × ExecutionPc :=
  match x.pc with
  | .preparing =>
    if e.fails then (s.catchRun x.run.id e, .done)
    else
      match e.result with
      -- the safety gate refuses
      | some r => (s.finishRun x.run.id r, .done)
      | none => (s.createMaintenanceWindow (runWindow x.run s.now), .marking s.store.nextUuid)
  | .marking w =>
    if e.fails then (s.catchRun x.run.id e, .closing w)
    else ({ s with runs := LoadRuns.markRunning s.runs x.run.id e.k6Version (some w) s.now }, .running w)
  | .running w =>
    if e.fails then (s.catchRun x.run.id e, .closing w)
    else
      match e.result with
      | none => ({ s with runs := (LoadRuns.heartbeat s.runs x.run.id s.now).1 }, .running w)
      | some r => (s.finishRun x.run.id r, .closing w)
  | .closing w => (if e.fails then s else s.deleteMaintenanceWindows [w], .done)
  | .done => (s, .done)

def claimRun (s : IsolationSys) (workerId : String) (locked : List Uuid) : IsolationSys :=
  let runs := s.runs.claimNextRun workerId locked s.now
  match (s.runs.nextQueued locked).bind fun r => runs.find r.id with
  | none => { s with runs }
  | some run => { s with runs, executions := s.executions ++ [⟨run, .preparing⟩] }

/-! ### Checks -/

/-- A run of the target is RUNNING. -/
def isRunning (s : IsolationSys) (apiId : Uuid) : Bool :=
  s.runs.rows.any fun r => r.status = .running && r.data.apiId = apiId

/-- The identifiers of the rows that are new in `after`. -/
def newIds {α : Type} (id : α → Uuid) (before after : List α) : List Uuid :=
  (after.map id).filter (· ∉ before.map id)

def recordCheck (s : IsolationSys) (target : MonitoredApi) (slot : Time) (claimId : Uuid)
    (outcome : HealthCheckOutcome) : IsolationSys :=
  let store := s.store.transaction (recordAndComplete env target slot claimId outcome)
  let recorded := newIds (·.id) s.store.db.healthCheckResults store.db.healthCheckResults
  let alerts := newIds (·.id) s.store.db.alerts (store.db.alerts.filter (·.alertType ≠ .apiRecovered))
  if s.isRunning target.id then
    { s with store, duringRun := s.duringRun ++ recorded, raised := s.raised ++ alerts }
  else { s with store }

/-! ### All of them -/

def step (s : IsolationSys) : IsolationLabel → Option IsolationSys
  | .cycle t => (alertStep env s.alerts (.start (.cycle t))).map s.setAlerts
  | .resolve id resolution actor => (alertStep env s.alerts (.start (.resolve id resolution actor))).map s.setAlerts
  | .advance i w => (alertStep env s.alerts (.advance i w)).map s.setAlerts
  | .check target slot claimId outcome => some (s.recordCheck env target slot claimId outcome)
  | .queue planId apiId snapshot effectiveClass requestedBy =>
    some { s with
      runs := s.runs.createRun s.store.nextUuid planId apiId snapshot effectiveClass requestedBy s.now
      store := { s.store with nextUuid := s.store.nextUuid + 1 } }
  | .claim workerId locked => some (s.claimRun workerId locked)
  | .execute i e => s.executions[i]?.map fun x =>
      { (s.executeNext x e).1 with executions := s.executions.set i { x with pc := (s.executeNext x e).2 } }
  | .requestAbort id reason => some { s with runs := LoadRuns.requestAbort s.runs id reason s.now }
  | .recoverStale staleSeconds =>
    let stale := s.runs.rows.filter (RunTable.isStale staleSeconds s.now)
    some { s with
      runs := (s.runs.recoverStaleRuns staleSeconds s.now).1
      abandoned := s.abandoned ++ [stale.filterMap (·.data.maintenanceWindowId)] }
  | .deleteAbandoned =>
    match s.abandoned with
    | [] => none
    | ids :: rest => some { s.deleteMaintenanceWindows ids with abandoned := rest }
  | .elapse ms => some { s with store := s.store.elapse ms }

/-! ### What isolation means -/

/-- What `computeSla` reads: the results that satisfy `p`, and the windows there are now. -/
def slaSource (s : IsolationSys) (p : HealthCheckResult → Bool) : Sla.Source where
  apis := []
  checks := (s.store.db.healthCheckResults.filter p).map fun r => ⟨r.apiId, r.checkedAt, r.status⟩
  windows := s.windows.map fun row => ⟨row.window.targetId, row.window.startsAt, row.window.endsAt⟩

/-- Every report computed now has the uptime and the verdict it would have without the checks recorded while a run was
RUNNING. -/
def SlaIgnoresRuns (s : IsolationSys) : Prop :=
  ∀ (apiId : Uuid) (start stop : Time) (slaTargetPercent : ℚ),
    let all := (Sla.computeSla (s.slaSource fun _ => true) apiId start stop slaTargetPercent).figures
    let without := (Sla.computeSla (s.slaSource (·.id ∉ s.duringRun)) apiId start stop slaTargetPercent).figures
    all.uptimePercent = without.uptimePercent ∧ all.slaMet = without.slaMet

/-- No alert that such a check raised was handed to a channel, and none is SENT. -/
def NoneSent (s : IsolationSys) : Prop :=
  ∀ id ∈ s.raised, id ∉ s.store.sent ∧ ∀ a ∈ s.store.db.alerts, a.id = id → a.status ≠ .sent

structure Isolated (s : IsolationSys) : Prop where
  sla : s.SlaIgnoresRuns
  alerts : s.NoneSent

end IsolationSys

end CronMonitor.LoadTest
