import CronMonitor.Digest.Service
import CronMonitor.Lib.Newest
import CronMonitor.Lib.Runs
import CronMonitor.Targets.Repo

/-!
# Health check runs

`rollUpRun` of `health-check-run.service.ts` with the statements of `health-check-runs.repo.ts`. A roll-up is told
statement by statement (`RollUp`), since checks are committed and targets edited between two of them, and another
roll-up may be under way. Of `monitored_apis` and `health_check_results` the columns are kept that it reads or writes.
-/

namespace CronMonitor.HealthRuns
open History
open Targets (Environment)
open Digest (SystemHealthLevel)

structure MonitoredApi where
  id : Uuid
  isMoneyMoving : Bool
  endpointClass : EndpointClass
  environment : Environment
deriving DecidableEq

structure HealthCheckResult where
  id : Uuid
  apiId : Uuid
  status : HealthStatus
  checkedAt : Time
  responseTimeMs : Option Nat
  hcRunId : Option Uuid
deriving DecidableEq

/-- `HC-date-time-number` by its parts: the end of the window and the number drawn from the sequence. -/
structure HcId where
  windowEnd : Time
  number : Nat
deriving DecidableEq

structure HealthCheckRun where
  id : Uuid
  hcId : HcId
  windowStart : Time
  windowEnd : Time
  environment : Option Environment
  servicesTested : Nat
  healthy : Nat
  degraded : Nat
  failed : Nat
  unknown : Nat
  checksTotal : Nat
  overallStatus : SystemHealthLevel
  durationMs : Option Nat
deriving DecidableEq

structure WindowRow where
  apiId : Uuid
  status : HealthStatus
  isMoneyMoving : Bool
  endpointClass : EndpointClass
  environment : Environment
deriving DecidableEq

structure Store where
  apis : List MonitoredApi
  checks : List HealthCheckResult
  runs : List HealthCheckRun
  nextUuid : Uuid
  sequence : Nat
deriving DecidableEq

/-- `checked_at >= $1 AND checked_at < $2`. -/
def inWindow (start stop : Time) (c : HealthCheckResult) : Bool := start ≤ c.checkedAt && c.checkedAt < stop

namespace Store

/-- `INSERT … ON CONFLICT (id) DO UPDATE`, for a target that is created or edited. -/
def saveApi (st : Store) (a : MonitoredApi) : Store :=
  if st.apis.any (·.id = a.id) then { st with apis := st.apis.map fun b => if b.id = a.id then a else b }
  else { st with apis := st.apis ++ [a] }

def insertHealthCheckResult (st : Store) (apiId : Uuid) (status : HealthStatus) (checkedAt : Time)
    (responseTimeMs : Option Nat) : Store :=
  { st with
    checks := st.checks ++ [⟨st.nextUuid, apiId, status, checkedAt, responseTimeMs, none⟩]
    nextUuid := st.nextUuid + 1 }

/-- `ORDER BY window_end DESC LIMIT 1`. -/
def latestRunWindowEnd (st : Store) : Option Time := (newest HealthCheckRun.windowEnd st.runs).map (·.windowEnd)

/-- `SELECT DISTINCT ON (r.api_id) … ORDER BY r.api_id, r.checked_at DESC`: the newest check of every target. -/
def windowServices (st : Store) (start stop : Time) : List WindowRow :=
  st.apis.filterMap fun a =>
    (newest HealthCheckResult.checkedAt (st.checks.filter fun c => c.apiId = a.id && inWindow start stop c)).map fun c =>
      ⟨a.id, c.status, a.isMoneyMoving, a.endpointClass, a.environment⟩

/-- `count(*)` and `sum(response_time_ms)`, null where there is no value. -/
def windowTotals (st : Store) (start stop : Time) : Nat × Option Nat :=
  let checks := st.checks.filter (inWindow start stop)
  let times := checks.filterMap (·.responseTimeMs)
  (checks.length, if times.isEmpty then none else some times.sum)

def insertRun (st : Store) (run : HealthCheckRun) : Store :=
  { st with runs := st.runs ++ [run], nextUuid := st.nextUuid + 1 }

def backfillRunLinks (st : Store) (runId : Uuid) (start stop : Time) : Store :=
  { st with
    checks := st.checks.map fun c =>
      if c.hcRunId.isNone && inWindow start stop c then { c with hcRunId := some runId } else c }

end Store

/-- What `rollUp` reads of a service. -/
def WindowRow.level (s : WindowRow) : Digest.TargetStatusRow where
  name := ""
  endpointClass := s.endpointClass
  environment := ""
  isMoneyMoving := s.isMoneyMoving
  isActive := true
  status := some s.status
  lastActualRunAt := none
  lastResponseMs := none
  uptime24h := none
  openIncidentId := none

/-- The environment of all services, null where they are of several. -/
def environmentOf (services : List WindowRow) : Option Environment :=
  match (services.map (·.environment)).dedup with
  | [e] => some e
  | _ => none

def runOf (id : Uuid) (hcId : HcId) (start now : Time) (services : List WindowRow) (totals : Nat × Option Nat) :
    HealthCheckRun where
  id := id
  hcId := hcId
  windowStart := start
  windowEnd := now
  environment := environmentOf services
  servicesTested := services.length
  healthy := services.countP (·.status = .up)
  degraded := services.countP (·.status = .degraded)
  failed := services.countP (·.status = .down)
  unknown := services.countP (·.status = .unknown)
  checksTotal := totals.1
  overallStatus := Digest.rollUp (services.map (·.level))
  durationMs := totals.2

/-- The start of the window: the last run's end, or one interval back, but no more than six intervals back. -/
def windowStart (intervalMs : Nat) (lastEnd : Option Time) (now : Time) : Time :=
  max (lastEnd.getD (now - intervalMs)) (now - 6 * intervalMs)

/-- A call of `rollUpRun` under way, by the statement that it issues next. -/
inductive RollUp
  | latestRunWindowEnd (now : Time)
  | services (start now : Time)
  | totals (start now : Time) (latest : List WindowRow)
  | nextHcId (start now : Time) (latest : List WindowRow) (sums : Nat × Option Nat)
  | insertRun (start now : Time) (latest : List WindowRow) (sums : Nat × Option Nat) (hcId : HcId)
  | backfillRunLinks (runId : Uuid) (start now : Time)
deriving DecidableEq

/-- The next statement, and the call after it unless it has returned. -/
def RollUp.next (intervalMs : Nat) : RollUp → Store → Store × Option RollUp
  | .latestRunWindowEnd now, st =>
    let start := windowStart intervalMs st.latestRunWindowEnd now
    (st, if start ≥ now then none else some (.services start now))
  | .services start now, st =>
    let latest := st.windowServices start now
    (st, if latest = [] then none else some (.totals start now latest))
  | .totals start now latest, st => (st, some (.nextHcId start now latest (st.windowTotals start now)))
  | .nextHcId start now latest sums, st =>
    ({ st with sequence := st.sequence + 1 }, some (.insertRun start now latest sums ⟨now, st.sequence % 1000000⟩))
  | .insertRun start now latest sums hcId, st =>
    (st.insertRun (runOf st.nextUuid hcId start now latest sums), some (.backfillRunLinks st.nextUuid start now))
  | .backfillRunLinks runId start now, st => (st.backfillRunLinks runId start now, none)

/-- The tables and the roll-ups under way. -/
structure Sys where
  store : Store
  rollUps : List RollUp
deriving DecidableEq

inductive Label
  | saveApi (a : MonitoredApi)
  | commitCheck (apiId : Uuid) (status : HealthStatus) (checkedAt : Time) (responseTimeMs : Option Nat)
  | rollUpRun (now : Time)
  | advance (i : Nat)
deriving DecidableEq

/-- A check is committed for a target that exists, whatever time it was made at. -/
def step (intervalMs : Nat) (s : Sys) : Label → Option Sys
  | .saveApi a => some { s with store := s.store.saveApi a }
  | .commitCheck apiId status checkedAt responseTimeMs =>
    if s.store.apis.any (·.id = apiId) then
      some { s with store := s.store.insertHealthCheckResult apiId status checkedAt responseTimeMs }
    else none
  | .rollUpRun now => some { s with rollUps := s.rollUps ++ [.latestRunWindowEnd now] }
  | .advance i =>
    (s.rollUps[i]?).map fun p =>
      ⟨(p.next intervalMs s.store).1,
        match (p.next intervalMs s.store).2 with
        | some p' => s.rollUps.set i p'
        | none => s.rollUps.eraseIdx i⟩

end CronMonitor.HealthRuns
