import CronMonitor.Cron
import CronMonitor.JobRunner
import CronMonitor.Lib.Runs

/-!
# `scheduler.service.ts`

The entries are a JavaScript `Map`, which is iterated in insertion order while others change it: an entry
carries the place at which it was inserted, and `tick` goes on with the entries inserted after the one it
visited last. A `tick` gives up control at two awaits only, the bump of the missed count and the alert that
follows it; `suspended` is what its frame holds there. It keeps the entry it is at, the target that entry
had and the clock it read, whatever `reload` does to the map meanwhile.

`calls` are the calls of `run` in order and `running` those whose promise is still open. The interval timers
are left out: `tick`, `reload` and the end of a check may come at any time.
-/

namespace CronMonitor

structure Entry where
  /-- The place in the insertion order of the map. -/
  stamp : Nat
  target : MonitoredApi
  lastFiredSlot : Option Time
deriving DecidableEq, Repr

/-- A call of `run`. -/
structure Firing where
  target : MonitoredApi
  slot : Time
deriving DecidableEq, Repr

inductive TickAwait
  | bumpMissedRunCount | recordAlert
deriving DecidableEq, Repr

/-- The frame of a `tick` that waits for a statement. -/
structure Suspended where
  now : Time
  stamp : Nat
  target : MonitoredApi
  due : Time
  skipped : Nat
  await : TickAwait
deriving DecidableEq, Repr

structure Scheduler where
  maxConcurrent : Nat
  clock : Time
  entries : List Entry
  nextStamp : Nat
  inFlight : Finset Uuid
  running : List Firing
  calls : List Firing
  /-- `ticking`, with the frame. -/
  suspended : Option Suspended
  store : Store

/-- What `loadTargets` returns: rows of a table whose primary key is the id. -/
structure ActiveTargets where
  rows : List MonitoredApi
  nodup : (rows.map (·.id)).Nodup

def ActiveTargets.everyMinute : ActiveTargets := ⟨[makeMonitoredApi], by decide⟩

/-- The alert `tick` records for skipped slots. -/
def skippedSlotsAlert (target : MonitoredApi) (skipped : Nat) : AlertInput where
  alertType := .schedulerHeartbeatMissed
  channel := .webhook
  recipient := "ops"
  incidentId := none
  apiId := some target.id
  errorMessage := some s!"Scheduler skipped {skipped} slot(s) for \"{target.name}\""

def Entry.id (e : Entry) : Uuid := e.target.id

namespace Scheduler

/-- `new Scheduler({ maxConcurrent })`. -/
def init (maxConcurrent : Nat) (clock : Time) (store : Store) : Scheduler where
  maxConcurrent
  clock
  entries := []
  nextStamp := 0
  inFlight := ∅
  running := []
  calls := []
  suspended := none
  store

def ids (s : Scheduler) : List Uuid := s.entries.map (·.id)

/-- Sets `lastFiredSlot` on the entry inserted at `stamp`; an entry removed meanwhile is out of reach. -/
def setLastFired (s : Scheduler) (stamp : Nat) (due : Time) : Scheduler :=
  { s with entries := s.entries.map fun e => if e.stamp = stamp then { e with lastFiredSlot := some due } else e }

def fire (s : Scheduler) (target : MonitoredApi) (slot : Time) : Scheduler :=
  { s with
    inFlight := insert target.id s.inFlight
    running := s.running ++ [⟨target, slot⟩]
    calls := s.calls ++ [⟨target, slot⟩] }

/-- The end of the loop body: never overlap a target, stay below the limit, fire. -/
def fireOrDefer (s : Scheduler) (stamp : Nat) (target : MonitoredApi) (due : Time) : Scheduler :=
  if target.id ∈ s.inFlight then s
  else if s.maxConcurrent ≤ s.inFlight.card then s
  else (s.setLastFired stamp due).fire target due

section Tick

variable (P : CronParser)

def safePreviousSlot (target : MonitoredApi) (now : Time) : Option Time :=
  P.previousSlot target.frequencyCron now

/-- `for (const entry of this.entries.values())` over the entries that are left, until the first await. The
loop changes the entry it visits and no other, so the entries left are those of the map. -/
def scan (now : Time) : List Entry → Scheduler → Scheduler
  | [], s => s
  | e :: rest, s =>
    match safePreviousSlot P e.target now with
    | none => scan now rest s
    | some due =>
      match e.lastFiredSlot with
      | none => scan now rest (s.fireOrDefer e.stamp e.target due)
      | some last =>
        if due ≤ last then scan now rest s
        else
          match P.slotsBetween e.target.frequencyCron last (due - 1) CronParser.slotsLimit with
          -- thrown out of the loop
          | none => s
          | some [] => scan now rest (s.fireOrDefer e.stamp e.target due)
          | some (slot :: slots) =>
            { s with suspended := some {
                now, stamp := e.stamp, target := e.target, due, skipped := (slot :: slots).length
                await := .bumpMissedRunCount } }

def tick (s : Scheduler) : Scheduler :=
  if s.suspended.isSome then s else scan P s.clock s.entries s

/-- The entries inserted after `stamp`. -/
def entriesAfter (s : Scheduler) (stamp : Nat) : List Entry := s.entries.filter (stamp < ·.stamp)

/-- The statement that `tick` waits for returns, or throws the `failure`. -/
def resume (s : Scheduler) (failure : Option String) : Option Scheduler :=
  match s.suspended with
  | none => none
  | some p =>
    match p.await with
    | .bumpMissedRunCount =>
      match s.store.onPool (failure.map (0, ·)) (bumpMissedRunCount p.target.id p.skipped) with
      | (.ok _, st) => some { s with store := st, suspended := some { p with await := .recordAlert } }
      | (.error _, st) => some { s with store := st, suspended := none }
    | .recordAlert =>
      match s.store.onPool (failure.map (0, ·)) (recordAlert (skippedSlotsAlert p.target p.skipped) .pool) with
      | (.ok _, st) =>
        some (scan P p.now (s.entriesAfter p.stamp)
          ({ s with store := st, suspended := none }.fireOrDefer p.stamp p.target p.due))
      | (.error _, st) => some { s with store := st, suspended := none }

/-! ### `reload` -/

/-- One target of the loaded ones: a tracked entry takes the new target, a new one is anchored to the
current slot. -/
def track (now : Time) (s : Scheduler) (target : MonitoredApi) : Scheduler :=
  if target.id ∈ s.ids then
    { s with entries := s.entries.map fun e => if e.id = target.id then { e with target } else e }
  else
    { s with
      nextStamp := s.nextStamp + 1
      entries := s.entries ++ [⟨s.nextStamp, target, safePreviousSlot P target now⟩] }

/-- Deletes the entries whose target was not loaded. -/
def untrack (s : Scheduler) (seen : List Uuid) : Scheduler :=
  { s with entries := s.entries.filter (·.id ∈ seen) }

/-- The part of `reload` after its one await. -/
def reload (s : Scheduler) (targets : List MonitoredApi) : Scheduler :=
  (targets.foldl (track P s.clock) s).untrack (targets.map (·.id))

inductive Label
  | tick
  | resume (failure : Option String)
  | reload (targets : ActiveTargets)
  /-- The promise of the `i`-th running check settles. -/
  | settle (i : Nat)
  | elapse (ms : Nat)

/-- `.finally(() => this.inFlight.delete(target.id))`. -/
def settle (s : Scheduler) (i : Nat) : Option Scheduler :=
  s.running[i]?.map fun f => { s with running := s.running.eraseIdx i, inFlight := s.inFlight.erase f.target.id }

def step (s : Scheduler) : Label → Option Scheduler
  | .tick => some (s.tick P)
  | .resume failure => s.resume P failure
  | .reload targets => some (s.reload P targets.rows)
  | .settle i => s.settle i
  | .elapse ms =>
    some { s with clock := s.clock + ms, store := { s.store with now := s.store.now + ms } }

end Tick

end Scheduler

end CronMonitor
