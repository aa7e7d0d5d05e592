import CronMonitor.CronPattern
import CronMonitor.Scheduler

/-!
# `missed-run-detector.ts`

`detectMissedRuns` is one loop without a guard: what a target throws ends it, and the runs found so far are
lost with it. `lookAt` is what the loop computes about one target before it writes anything. The trigger of
`target_schedule_state` sets `updated_at` on every write, and the detector is the only reader of that column
and of `created_at`, so they stand beside the rows here.

A `Fault` says which statements about a target throw. `detects_others_iff`: with one faulty target, the
detector serves the others as without it exactly when it has nothing to write about the faulty one.
-/

namespace CronMonitor

open Eff

/-- A target with the column that only the detector reads. -/
structure RegisteredApi extends MonitoredApi where
  createdAt : Time
deriving DecidableEq, Repr

structure MissedRun where
  targetId : Uuid
  name : String
  expectedRunAt : Time
  lastActualRunAt : Option Time
  lateBySeconds : Int
deriving DecidableEq, Repr

/-- The database as the detector sees it. -/
structure Detection where
  store : Store
  /-- `target_schedule_state.updated_at`. -/
  updatedAt : Uuid → Time

inductive DetectError
  /-- Thrown by cron-parser. -/
  | cron
  | statement (message : String)
deriving DecidableEq, Repr

/-- A target whose statements throw. -/
structure Fault where
  target : Uuid
  failure : TickAwait → Option String

/-- What the statement `a` about `id` throws. -/
def Fault.failureOf (φ : Fault) (id : Uuid) (a : TickAwait) : Option String :=
  if id = φ.target then φ.failure a else none

/-- One of the statements about `id` throws. -/
def Fault.fails (φ : Fault) (id : Uuid) : Bool :=
  (φ.failureOf id .bumpMissedRunCount).isSome || (φ.failureOf id .recordAlert).isSome

namespace CronParser

/-- The expression parses, and its iterator goes on without end. -/
def Sound (P : CronParser) (expression : String) : Prop :=
  ∀ t, (P.next expression t).isSome ∧ (P.prev expression t).isSome

/-- The expression does not parse. -/
def Broken (P : CronParser) (expression : String) : Prop :=
  ∀ t, P.next expression t = none ∧ P.prev expression t = none

theorem Parses.sound {P : CronParser} {expression : String} {slots : Set Time} (h : P.Parses expression slots) :
    P.Sound expression := fun t =>
  ⟨Option.isSome_iff_exists.2 ((h.next t).imp fun _ hu => hu.1), Option.isSome_iff_exists.2 ((h.prev t).imp fun _ hv => hv.1)⟩

theorem Iterated.sound {P : CronParser} {expression : String} {slots : Set Time} (h : P.Iterated expression slots) :
    P.Sound expression := fun t =>
  ⟨Option.isSome_iff_exists.2 ((h.next t).imp fun _ hu => hu.1), Option.isSome_iff_exists.2 ((h.prev t).imp fun _ hv => hv.1)⟩

theorem Sound.intervalSeconds {P : CronParser} {expression : String} (h : P.Sound expression) (t : Time) :
    (P.intervalSeconds expression t).isSome := by
  obtain ⟨a, ha⟩ := Option.isSome_iff_exists.1 (h t).1
  obtain ⟨b, hb⟩ := Option.isSome_iff_exists.1 (h a).1
  simp [CronParser.intervalSeconds, ha, hb]

end CronParser

/-- No target but `φ.target` is faulty, and that one has an expression that does not parse or a statement that
throws. -/
structure Fault.Only (P : CronParser) (φ : Fault) (targets : List MonitoredApi) : Prop where
  others : ∀ t ∈ targets, t.id ≠ φ.target → P.Sound t.frequencyCron
  own : ∀ t ∈ targets, t.id = φ.target →
    P.Broken t.frequencyCron ∨ (P.Sound t.frequencyCron ∧ φ.fails t.id = true)

section Detector

variable (P : CronParser) (φ : Fault) (now : Time)

def TOLERANCE_MULTIPLE : Int := 2

/-- `getScheduleState`: the row and its `updated_at`. -/
def getScheduleState (targetId : Uuid) (d : Detection) : Option (TargetScheduleState × Time) :=
  (d.store.db.scheduleStates.find? (·.targetId = targetId)).map fun r => (r, d.updatedAt targetId)

/-- The run of `target` that was missed, if one was. -/
def missedRun (target : RegisteredApi) (interval : Int) (expected : Time)
    (state : Option (TargetScheduleState × Time)) : Option MissedRun :=
  let toleranceMs := interval * 1000 * TOLERANCE_MULTIPLE
  let lastActual := state.bind (·.1.lastActualRunAt)
  -- A target without a run is missed only once it has been registered longer than the tolerance.
  let reference := lastActual.getD ((state.map (·.2)).getD target.createdAt)
  let lateByMs := now - reference
  if toleranceMs < lateByMs ∧ lastActual.getD 0 < expected then
    some {
      targetId := target.id
      name := target.name
      expectedRunAt := expected
      lastActualRunAt := lastActual
      lateBySeconds := (lateByMs + 500) / 1000 }
  else none

/-- The loop body up to its first write: `none` when cron-parser throws, else the interval and the run that
was missed. -/
def lookAt (d : Detection) (target : RegisteredApi) : Option (Int × Option MissedRun) := do
  let interval ← P.intervalSeconds target.frequencyCron now
  let expected ← P.previousSlot target.frequencyCron now
  return (interval, missedRun now target interval expected (getScheduleState target.id d))

def missedRunAlert (target : MonitoredApi) (interval : Int) (record : MissedRun) : AlertInput where
  alertType := .schedulerHeartbeatMissed
  channel := .webhook
  recipient := "ops"
  incidentId := none
  apiId := some target.id
  errorMessage := some s!"No check for \"{target.name}\" in {record.lateBySeconds}s (interval {interval}s)"

/-- A statement on the pool, which throws the `failure`. -/
def statement {α : Type} (failure : Option String) (m : SqlM α) : Eff DetectError Detection α := fun d =>
  match d.store.onPool (failure.map (0, ·)) m with
  | (.ok a, st) => (.ok a, { d with store := st })
  | (.error message, st) => (.error (.statement message), { d with store := st })

/-- The trigger `target_schedule_state_set_updated_at`, and the default of the column. -/
def touch (targetId : Uuid) : Eff DetectError Detection Unit := fun d =>
  (.ok (), { d with updatedAt := Function.update d.updatedAt targetId d.store.now })

def writeMissedRun (target : MonitoredApi) (interval : Int) (record : MissedRun) : Eff DetectError Detection Unit := do
  statement (φ.failureOf target.id .bumpMissedRunCount) (bumpMissedRunCount target.id 1)
  touch target.id
  statement (φ.failureOf target.id .recordAlert) (recordAlert (missedRunAlert target interval record) .pool)

/-- `missed` are the runs pushed so far. -/
def detectFrom (missed : List MissedRun) : List RegisteredApi → Eff DetectError Detection (List MissedRun)
  | [] => return missed
  | target :: rest => do
    match lookAt P now (← get) target with
    | none => throw .cron
    | some (_, none) => detectFrom missed rest
    | some (interval, some record) =>
      writeMissedRun φ target.toMonitoredApi interval record
      detectFrom (missed ++ [record]) rest

def detectMissedRuns (targets : List RegisteredApi) : Eff DetectError Detection (List MissedRun) :=
  detectFrom P φ now [] targets

/-- What is recorded about a target: its row, when that was written, and its alerts. -/
def Detection.recorded (d : Detection) (id : Uuid) : Option (TargetScheduleState × Time) × List Alert :=
  (getScheduleState id d, (d.store.db.alerts.filter (·.apiId = some id)).map fun a => { a with id := 0 })

/-- The detector returns, and what it returns and records about the others is what it returns and records
without the faulty target. -/
def DetectsOthers (d : Detection) (targets : List RegisteredApi) : Prop :=
  ∃ missed missed' d' d'',
    exec (detectMissedRuns P φ now targets) d = (.ok missed, d') ∧
    exec (detectMissedRuns P φ now (targets.filter (·.id ≠ φ.target))) d = (.ok missed', d'') ∧
    missed.filter (·.targetId ≠ φ.target) = missed' ∧
    ∀ id, id ≠ φ.target → d'.recorded id = d''.recorded id

/-- There is nothing to write about the faulty target: its expression parses, and no run of it was missed. -/
def DetectSpared (d : Detection) (targets : List RegisteredApi) : Prop :=
  ∀ t ∈ targets, t.id = φ.target → ∃ interval, lookAt P now d t = some (interval, none)

end Detector

end CronMonitor
