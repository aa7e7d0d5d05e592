import CronMonitor.Cron
import CronMonitor.LoadTest.Runs

/-!
# Scheduled suites

`tickSchedules` of `schedule.service.ts` with `lockDue` and `recordFire` of its repository. A tick is one transaction:
it locks the due rows that no other tick holds, and what it records shows when it commits. The runs it queues are
inserted on a connection of their own and stay whatever becomes of the transaction. Ticks of any number of workers
interleave with each other and with every other statement on the run tables. `fired` are the slots that a run was
queued for, `passedOver` those of the rows that a tick gave up because of something else than the row itself.
-/

namespace CronMonitor.LoadTest

inductive ScheduleOutcome
  | queued | refused | skippedBusy | error
deriving DecidableEq, Repr

structure LoadSchedule where
  id : Uuid
  apiId : Uuid
  suite : SuiteKind
  cron : String
  enabled : Bool
  nextRunAt : Time
  lastRunAt : Option Time
  lastRunId : Option Uuid
  lastOutcome : Option ScheduleOutcome
  lastMessage : Option String
deriving DecidableEq

/-- What `recordFire` writes. -/
structure Fire where
  id : Uuid
  nextRunAt : Time
  at_ : Time
  runId : Option Uuid
  outcome : ScheduleOutcome
  message : Option String
deriving DecidableEq

/-- A slot of a schedule. -/
abbrev Slot := Uuid × Time

def LoadSchedule.slot (s : LoadSchedule) : Slot := (s.id, s.nextRunAt)

def recordFire (schedules : List LoadSchedule) (f : Fire) : List LoadSchedule :=
  schedules.map fun s =>
    if s.id = f.id then
      { s with
        nextRunAt := f.nextRunAt
        lastRunAt := some f.at_
        lastRunId := f.runId.or s.lastRunId
        lastOutcome := some f.outcome
        lastMessage := f.message }
    else s

/-- A call of `tickSchedules` whose transaction is open. `current` is the row whose `recordFire` is next, `queued` the
slots it queued runs for. -/
structure Tick where
  now : Time
  rows : List LoadSchedule
  rest : List LoadSchedule
  current : Option Fire
  recorded : List Fire
  queued : List Slot
deriving DecidableEq

/-- How `getCorrectnessRun` and `queueCorrectnessRun` end, in the order of their statements. -/
inductive Attempt
  | lookupFails (message : String)
  | notFound
  | refused
  | fails (message : String)
  | queued (effectiveClass : Option LoadEnvironmentClass)
  /-- The run is inserted, and then the audit entry fails. -/
  | auditFails (effectiveClass : Option LoadEnvironmentClass) (message : String)
deriving DecidableEq, Repr

structure ScheduleSys where
  store : RunStore
  schedules : List LoadSchedule
  ticks : List Tick
  fired : List Slot
  committed : List Tick
  passedOver : List Slot
  /-- A statement of a transaction has failed. -/
  failed : Bool

namespace ScheduleSys

variable (P : CronParser) (w : ScheduleSys)

def init (store : RunStore) (schedules : List LoadSchedule) : ScheduleSys :=
  ⟨store, schedules, [], [], [], [], false⟩

def locked : List Uuid := w.ticks.flatMap fun t => t.rows.map (·.id)

/-- The enabled rows that are due, by `next_run_at`, `LIMIT 20` and `SKIP LOCKED`. -/
def lockDue (now : Time) : List LoadSchedule :=
  ((w.schedules.filter fun s => s.enabled && s.nextRunAt ≤ now && s.id ∉ w.locked).insertionSort fun s s' =>
    s.nextRunAt ≤ s'.nextRunAt).take 20

def begin (now : Time) : ScheduleSys :=
  { w with ticks := w.ticks ++ [⟨now, w.lockDue now, w.lockDue now, none, [], []⟩] }

def suiteLabel : SuiteKind → String
  | .correctness => "correctness"
  | .security => "security"

/-- The run that a schedule queued last has not finished. -/
def busy (s : LoadSchedule) : Bool :=
  ((s.lastRunId.bind w.store.suites.find).map fun run => !run.status.isFinal).getD false

/-- `err.message.slice(0, 500)`. -/
def cut (message : String) : String := String.ofList (message.toList.take 500)

/-- The loop body up to `recordFire`: what is to be recorded, and the class of the run if one is inserted. -/
def outcomeOf (s : LoadSchedule) (a : Attempt) : (ScheduleOutcome × Option String) × Option (Option LoadEnvironmentClass) :=
  match s.lastRunId, a with
  | some _, .lookupFails message => ((.error, some (cut message)), none)
  | _, a =>
    if w.busy s then ((.skippedBusy, some "The previous scheduled run had not finished."), none)
    else
      match a with
      | .lookupFails message | .fails message => ((.error, some (cut message)), none)
      | .notFound => ((.error, some "Target not found"), none)
      | .refused => ((.refused, some s!"{suiteLabel s.suite} run refused by the load-test safety gate"), none)
      | .queued cls => ((.queued, none), some cls)
      | .auditFails cls message => ((.error, some (cut message)), some cls)

/-- `ROLLBACK`, for a failure at the row `culprit` if it is one's. -/
def rollBack (k : Nat) (t : Tick) (culprit : Option Uuid) : ScheduleSys :=
  { w with
    ticks := w.ticks.eraseIdx k
    passedOver := w.passedOver ++ (t.rows.filter fun s => some s.id ≠ culprit).map (·.slot) }

def setTick (k : Nat) (t : Tick) : ScheduleSys := { w with ticks := w.ticks.set k t }

/-- The `k`-th tick comes to its next row. `nextSlot` throws where the expression has none. -/
def attempt (k : Nat) (t : Tick) (s : LoadSchedule) (rest : List LoadSchedule) (a : Attempt) : ScheduleSys :=
  match P.next s.cron t.now with
  | none => w.rollBack k t (some s.id)
  | some next =>
    let fire (runId : Option Uuid) (d : ScheduleOutcome × Option String) : Fire := ⟨s.id, next, t.now, runId, d.1, d.2⟩
    match w.outcomeOf s a with
    | (d, none) => w.setTick k { t with rest := rest, current := some (fire none d) }
    | (d, some cls) =>
      { w.setTick k
          { t with
            rest := rest
            current := some (fire (if d.1 = .queued then some w.store.nextUuid else none) d)
            queued := t.queued ++ [s.slot] } with
        store := w.store.exec (.createCorrectnessRun s.apiId [] cls none (some s.suite))
        fired := w.fired ++ [s.slot] }

inductive Label
  | tick (now : Time)
  | attempt (k : Nat) (a : Attempt)
  /-- `recordFire`, or its failure. -/
  | record (k : Nat) (ok : Bool)
  | commit (k : Nat) (ok : Bool)
  /-- Any other client of the run tables. -/
  | statement (l : Nat × RunStore.Statement)

/-- One statement of a tick or of another client. One statement of a transaction may fail. -/
def step (w : ScheduleSys) : Label → Option ScheduleSys
  | .tick now => some (w.begin now)
  | .attempt k a =>
    match w.ticks[k]? with
    | none => none
    | some t =>
      match t.current, t.rest with
      | none, s :: rest => some (w.attempt P k t s rest a)
      | _, _ => none
  | .record k ok =>
    match w.ticks[k]? with
    | none => none
    | some t =>
      match t.current with
      | none => none
      | some f =>
        if ok then some (w.setTick k { t with current := none, recorded := t.recorded ++ [f] })
        else if w.failed then none
        else some { w.rollBack k t (some f.id) with failed := true }
  | .commit k ok =>
    match w.ticks[k]? with
    | none => none
    | some t =>
      match t.current, t.rest with
      | none, [] =>
        if ok then
          some { w with
            schedules := t.recorded.foldl recordFire w.schedules
            ticks := w.ticks.eraseIdx k
            committed := w.committed ++ [t] }
        else if w.failed then none
        else some { w.rollBack k t none with failed := true }
      | _, _ => none
  | .statement l => (w.store.step l).map fun store => { w with store }

end ScheduleSys

end CronMonitor.LoadTest
