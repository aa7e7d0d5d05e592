import CronMonitor.Domain
import CronMonitor.Lib.Calendar
import CronMonitor.Lib.Double
import CronMonitor.Lib.Newest
import CronMonitor.Lib.Runs

/-!
# SLA reports

`computeSla` and `runSlaReports` of `sla.service.ts`, with the statements of `sla-reports.repo.ts` and the default page
of `listTargets`. What the code computes in doubles is rounded here where it is there; `slaTargetPercent` is the decimal
of the column, and the code has the double nearest to it. A report row is refused where `uptime_percent` would be null or another row
of the target has the same period; the call then throws, and the rows written so far stay. Row ids and `generated_at`
are left out.
-/

namespace CronMonitor.Sla
open History Calendar

structure MonitoredApi where
  id : Uuid
  createdAt : Time
  slaTargetPercent : ℚ
deriving DecidableEq

structure HealthCheckResult where
  apiId : Uuid
  checkedAt : Time
  status : HealthStatus
deriving DecidableEq

/-- `targetId` is null for a global window. -/
structure MaintenanceWindow where
  targetId : Option Uuid
  startsAt : Time
  endsAt : Time
deriving DecidableEq

structure SlaFigures where
  slaTargetPercent : ℚ
  slaMet : Bool
  uptimePercent : Option ℚ
  downtimeSeconds : Int
  excludedSeconds : Int
  totalChecks : Nat
  failedChecks : Nat
deriving DecidableEq

structure SlaResult where
  apiId : Uuid
  periodStart : Time
  periodEnd : Time
  figures : SlaFigures
deriving DecidableEq

inductive PeriodKind
  | rolling30d | calendarMonth
deriving DecidableEq, Repr

structure SlaReport extends SlaResult where
  periodKind : PeriodKind
deriving DecidableEq

/-- The tables that a report is computed from. -/
structure Source where
  apis : List MonitoredApi
  checks : List HealthCheckResult
  windows : List MaintenanceWindow
deriving DecidableEq

structure Store extends Source where
  reports : List SlaReport
deriving DecidableEq

/-! ### `computeSla` -/

def MaintenanceWindow.covers (w : MaintenanceWindow) (c : HealthCheckResult) : Bool :=
  (w.targetId = some c.apiId || w.targetId = none) && w.startsAt ≤ c.checkedAt && w.endsAt > c.checkedAt

/-- The status of every check of the period, and whether it lies in a maintenance window. -/
def Source.slaRows (src : Source) (apiId : Uuid) (start stop : Time) : List (HealthStatus × Bool) :=
  (src.checks.filter fun c => c.apiId = apiId && start ≤ c.checkedAt && c.checkedAt < stop).map fun c =>
    (c.status, src.windows.any (·.covers c))

/-- `Math.round`. -/
def round (x : ℚ) : Int := ⌊x + 1 / 2⌋

/-- A share of the checks as seconds of the period. -/
def shareSeconds (count total : Nat) (start stop : Time) : Int :=
  let periodSeconds := round (Double.round ((stop - start : Int) / 1000))
  if 0 < total then round (Double.round (Double.round (count / total) * periodSeconds)) else 0

example : shareSeconds 1 3 0 86400000 = 28800 := by decide +kernel

-- half a second is lost in the quotient
example : shareSeconds 1 98 0 2678389000 = 27330 := by decide +kernel

def isDown (r : HealthStatus × Bool) : Bool := r.1 = .down

def isExcluded (r : HealthStatus × Bool) : Bool := r.2 && r.1 = .down

def figuresOf (rows : List (HealthStatus × Bool)) (start stop : Time) (slaTargetPercent : ℚ) : SlaFigures :=
  let totalAll := rows.length
  let downAll := rows.countP isDown
  let totalSla := rows.countP fun r => !r.2
  let upSla := rows.countP fun r => !r.2 && (r.1 = .up || r.1 = .degraded)
  let downMaint := rows.countP isExcluded
  let uptimePercent : Option ℚ := 
    if 0 < totalSla then some (Double.round (Double.round (upSla / totalSla) * 100)) else none
  { slaTargetPercent := slaTargetPercent
    slaMet := uptimePercent.all (· ≥ Double.round slaTargetPercent)
    uptimePercent := uptimePercent
    downtimeSeconds := shareSeconds downAll totalAll start stop
    excludedSeconds := shareSeconds downMaint totalAll start stop
    totalChecks := totalAll
    failedChecks := downAll }

def computeSla (src : Source) (apiId : Uuid) (periodStart periodEnd : Time) (slaTargetPercent : ℚ) : SlaResult :=
  ⟨apiId, periodStart, periodEnd, figuresOf (src.slaRows apiId periodStart periodEnd) periodStart periodEnd slaTargetPercent⟩

/-! ### The rows -/

/-- A double in a column of four decimals: the column rounds the text of the number. -/
def numeric4 (x : ℚ) : ℚ := (⌊Double.shortest x * 10000 + 1 / 2⌋ : ℚ) / 10000

example : numeric4 (Double.round (6666665 / 10 ^ 5)) = 666667 / 10 ^ 4 := by decide +kernel

/-- The figures as the columns hold them. -/
def SlaFigures.stored (f : SlaFigures) : SlaFigures := { f with uptimePercent := f.uptimePercent.map numeric4 }

def samePeriod (a b : SlaResult) : Bool :=
  a.apiId = b.apiId && a.periodStart = b.periodStart && a.periodEnd = b.periodEnd

def isRollingOf (apiId : Uuid) (r : SlaReport) : Bool := r.periodKind = .rolling30d && r.apiId = apiId

def SlaResult.row (x : SlaResult) (kind : PeriodKind) : SlaReport :=
  ⟨⟨x.apiId, x.periodStart, x.periodEnd, x.figures.stored⟩, kind⟩

def Store.upsertRollingReport (st : Store) (input : SlaResult) : Option Store :=
  let row := input.row .rolling30d
  if input.figures.uptimePercent.isNone then none
  else if st.reports.any fun r => !isRollingOf input.apiId r && samePeriod r.toSlaResult input then none
  else if st.reports.any (isRollingOf input.apiId) then
    some { st with reports := st.reports.map fun r => if isRollingOf input.apiId r then row else r }
  else some { st with reports := st.reports ++ [row] }

def Store.upsertCalendarMonthReport (st : Store) (input : SlaResult) : Option Store :=
  if input.figures.uptimePercent.isNone then none
  else if st.reports.any fun r => samePeriod r.toSlaResult input then
    some { st with
      reports := st.reports.map fun r =>
        if samePeriod r.toSlaResult input then { r with figures := input.figures.stored } else r }
  else some { st with reports := st.reports ++ [input.row .calendarMonth] }

/-! ### `runSlaReports` -/

/-- `ORDER BY created_at DESC LIMIT … OFFSET …` with the defaults of `listTargets`. -/
def Source.listTargets (src : Source) (limit offset : Option Nat) : List MonitoredApi :=
  ((byNewest MonitoredApi.createdAt src.apis).drop (offset.getD 0)).take (min (limit.getD 100) 500)

/-- Both reports of one target, and whether the call goes on. -/
def Store.reportTarget (st : Store) (now : Time) (t : MonitoredApi) : Store × Bool :=
  let rollingStart := now - 30 * 24 * 60 * 60 * 1000
  let rolling := computeSla st.toSource t.id rollingStart now t.slaTargetPercent
  match st.upsertRollingReport rolling with
  | none => (st, false)
  | some st' =>
    let monthTo := if now < monthEnd now then now else monthEnd now
    let monthly := computeSla st'.toSource t.id (monthStart now) monthTo t.slaTargetPercent
    match st'.upsertCalendarMonthReport { monthly with periodStart := monthStart now, periodEnd := monthEnd now } with
    | none => (st', false)
    | some st'' => (st'', true)

def Store.reportTargets (now : Time) : List MonitoredApi → Store → Store
  | [], st => st
  | t :: ts, st =>
    match st.reportTarget now t with
    | (st', true) => Store.reportTargets now ts st'
    | (st', false) => st'

def Store.runSlaReports (st : Store) (now : Time) : Store := Store.reportTargets now (st.listTargets none none) st

end CronMonitor.Sla
