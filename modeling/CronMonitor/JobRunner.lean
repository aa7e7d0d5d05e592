import CronMonitor.StateMachine
import CronMonitor.Lib.Runs

/-!
# The job runner

`runScheduledCheck` of `job-runner.service.ts`, twice. `runClaimed` is its inner `try … catch`, from a won
claim to the result, as one computation over a session. `Sys` is a system of any number of calls of
`runScheduledCheck`, each at a point between two of its awaits (`Pc`); `step` lets one call take its next
step, starts a call, crashes one, or lets time pass. Both use the same statements and the same result
transaction, which is one step of `Sys`: it commits as a whole or not at all. `CronMonitor.OpenChecks` has it in
steps.
-/

namespace CronMonitor

open Eff

/-- Deterministic idempotency key for a (target, slot) pair: `slot` in whole seconds. -/
def jobRunId (targetId : Uuid) (slot : Time) : JobRunId := ⟨targetId, slot / 1000⟩

def lockKey (targetId : Uuid) (slot : Time) : LockKey := ⟨targetId, slot / 1000⟩

inductive SkipReason
  | alreadyDone | lockContended
deriving DecidableEq, Repr

inductive RunResult
  | executed (outcome : HealthCheckOutcome)
  | skipped (reason : SkipReason)
  | deadLettered (error : String)
deriving DecidableEq, Repr

def RunResult.isSkipped : RunResult → Bool
  | .skipped _ => true
  | .executed _ | .deadLettered _ => false

/-- `newRequestId()`, drawn from the same stream as the identifiers. -/
def newRequestId : SqlM Nat := fun s =>
  (.ok s.store.nextUuid, { s with store := { s.store with nextUuid := s.store.nextUuid + 1 } })

/-- The trace of a check whose result row is new, when one was captured. -/
def recordTrace (target : MonitoredApi) (runId : JobRunId) (checkId : Option Uuid) (outcome : HealthCheckOutcome) :
    SqlM Unit :=
  match checkId, outcome.trace with
  | some id, some trace => do
    let requestId ← newRequestId
    insertTrace id target.id runId requestId outcome trace .client
  | _, _ => pure ()

/-- The result transaction up to the state machine `machine`: the result row, its trace, the schedule counters
and the incident change. -/
def recordBy (machine : CheckContext → SqlM IncidentTransition) (target : MonitoredApi) (slot : Time)
    (outcome : HealthCheckOutcome) : SqlM IncidentTransition := do
  let runId := jobRunId target.id slot
  let checkId ← insertHealthCheckResult target.id runId outcome .client
  recordTrace target runId checkId outcome
  let counters ← recordRunOutcome target.id slot outcome.status .client
  machine ⟨target, outcome.status, outcome.failureType, checkId, counters.1⟩

def recordCheck (env : Env) (target : MonitoredApi) (slot : Time) (outcome : HealthCheckOutcome) :
    SqlM IncidentTransition :=
  recordBy (processCheckOutcome env · .client) target slot outcome

/-- The run is completed with its result. -/
def completing (claimId : Uuid) (recorded : SqlM IncidentTransition) : SqlM IncidentTransition := do
  let transition ← recorded
  completeJobRun claimId .success .client
  return transition

/-- The body that `runScheduledCheck` hands to `withTransaction`. -/
def recordAndComplete (env : Env) (target : MonitoredApi) (slot : Time) (claimId : Uuid)
    (outcome : HealthCheckOutcome) : SqlM IncidentTransition :=
  completing claimId (recordCheck env target slot outcome)

/-- The same body, when its `findActiveIncident` has returned `active`. -/
def recordFound (env : Env) (active : Option Incident) (target : MonitoredApi) (slot : Time) (claimId : Uuid)
    (outcome : HealthCheckOutcome) : SqlM IncidentTransition :=
  completing claimId (recordBy (processFound env · active .client) target slot outcome)

/-- `incidentEventExists`. -/
def incidentEventExists (incidentId : Uuid) (kind : IncidentEventKind) : SqlM Bool :=
  query .pool fun st => (st.db.incidentEvents.any fun e => e.incidentId = incidentId && e.kind = kind, st)

/-- The incident whose root cause is analysed again after the transition. -/
def IncidentTransition.analysed : IncidentTransition → Option Uuid
  | .opened i | .failureRecorded i | .flappingDetected i => some i.id
  | .resolved _ | .noop => none

inductive FailureCategory
  | connectivity | authentication | application | database | dependency | performance | configuration | none
deriving DecidableEq, Repr

def FailureCategory.label : FailureCategory → String
  | .connectivity => "CONNECTIVITY"
  | .authentication => "AUTHENTICATION"
  | .application => "APPLICATION"
  | .database => "DATABASE"
  | .dependency => "DEPENDENCY"
  | .performance => "PERFORMANCE"
  | .configuration => "CONFIGURATION"
  | .none => "NONE"

/-- `ratio` has two decimals: it is in hundredths. -/
structure LatencyDelta where
  baselineMs : Nat
  recentMs : Nat
  ratio : Nat
deriving DecidableEq, Repr

/-- What `refreshRcaFor` reads of an analysis; `confidence` is in hundredths too. -/
structure RootCauseAnalysis where
  category : FailureCategory
  subtype : String
  probableCause : String
  confidence : Nat
  latency : Option LatencyDelta
deriving DecidableEq, Repr

/-- A number of hundredths as a template prints it. -/
def hundredthsText (n : Nat) : String :=
  toString (n / 100) ++
    if n % 100 = 0 then "" else if n % 10 = 0 then "." ++ toString (n % 100 / 10)
    else if n % 100 < 10 then ".0" ++ toString (n % 100) else "." ++ toString (n % 100)

/-- The timeline entries that an analysis calls for. -/
def rcaEvents (incidentId : Uuid) (rca : RootCauseAnalysis) : List IncidentEventInput :=
  [⟨incidentId, .rcaComputed, "RCA: " ++ rca.category.label ++ " — " ++ rca.probableCause,
    [("category", rca.category.label), ("confidence", hundredthsText rca.confidence)], "rca"⟩] ++
  (if rca.category = .database then
    [⟨incidentId, .databaseError, "Database dependency implicated — " ++ rca.subtype, [("subtype", rca.subtype)], "rca"⟩]
  else []) ++
  (if rca.category = .dependency then
    [⟨incidentId, .dependencyError, "Downstream dependency implicated — " ++ rca.subtype, [("subtype", rca.subtype)],
      "rca"⟩]
  else []) ++
  (rca.latency.filter (200 ≤ ·.ratio)).toList.map fun l =>
    ⟨incidentId, .latencyElevated,
      "Latency " ++ toString l.baselineMs ++ "ms → " ++ toString l.recentMs ++ "ms (" ++ hundredthsText l.ratio ++
        "× baseline)",
      [("baselineMs", toString l.baselineMs), ("recentMs", toString l.recentMs), ("ratio", hundredthsText l.ratio)], "rca"⟩

/-- `refreshRcaFor`: best effort, on the pool, every error swallowed. `rca` is the root-cause analysis: the
timeline entries it calls for, each of which is written unless the incident has one of its kind. -/
def refreshRcaFor (rca : Uuid → Except String (List IncidentEventInput)) (transition : IncidentTransition) :
    SqlM Unit :=
  match transition.analysed with
  | none => pure ()
  | some incidentId =>
    tryCatch
      (match rca incidentId with
        | .error e => throw e
        | .ok entries => entries.forM fun e => do
          if !(← incidentEventExists incidentId e.kind) then recordIncidentEvent e .pool)
      fun _ => pure ()

/-- The alert of a dead-lettered run. -/
def deadLetterAlert (target : MonitoredApi) (message : String) : AlertInput where
  alertType := .jobExecutionFailure
  channel := .webhook
  recipient := "ops"
  incidentId := none
  apiId := some target.id
  errorMessage := some message

/-- The `try` block after a won claim; `execution` is what the `execute` callback settles with. -/
def executeAndRecord (env : Env) (rca : Uuid → Except String (List IncidentEventInput)) (target : MonitoredApi)
    (slot : Time) (claimId : Uuid) (execution : Except String HealthCheckOutcome) : SqlM RunResult :=
  match execution with
  | .error e => throw e
  | .ok outcome => do
    let transition ← withTransaction (recordAndComplete env target slot claimId outcome)
    refreshRcaFor rca transition
    return .executed outcome

/-- The `catch` block: the monitor itself failed to run the check. -/
def deadLetter (target : MonitoredApi) (claimId : Uuid) (message : String) : SqlM RunResult := do
  completeJobRun claimId .deadLettered .pool
  recordAlert (deadLetterAlert target message) .pool
  return .deadLettered message

/-- `runScheduledCheck` from the won claim `claimId` to its result. -/
def runClaimed (env : Env) (rca : Uuid → Except String (List IncidentEventInput)) (target : MonitoredApi)
    (slot : Time) (claimId : Uuid) (execution : Except String HealthCheckOutcome) : SqlM RunResult :=
  tryCatch (executeAndRecord env rca target slot claimId execution) (deadLetter target claimId)

/-! ### Many calls at once -/

/-- Where a call of `runScheduledCheck` stands: the statement it is about to send. -/
inductive Pc
  /-- Before `jobRunExists`. -/
  | entry
  /-- Before `acquireLock`. -/
  | locking
  /-- Before `recordSkippedRun`: the lock was held by another. -/
  | skipping
  /-- Before `claimJobRun`. -/
  | claiming
  /-- Before `execute` is called. -/
  | claimed (claimId : Uuid)
  | executing (claimId : Uuid)
  /-- Before the result transaction. -/
  | recording (claimId : Uuid) (outcome : HealthCheckOutcome)
  /-- Before `refreshRcaFor`. -/
  | refreshing (outcome : HealthCheckOutcome) (transition : IncidentTransition)
  /-- Before `completeJobRun … 'DEAD_LETTERED'`. -/
  | deadLettering (claimId : Uuid) (message : String)
  /-- Before the alert of a dead-lettered run. -/
  | alerting (message : String)
  /-- Before `releaseLock`, with the result or the error on its way out. -/
  | releasing (result : Except String RunResult)
  | returned (result : Except String RunResult)
  | crashed

/-- One call of `runScheduledCheck`. -/
structure Call where
  target : MonitoredApi
  slot : Time
  workerId : String
  pc : Pc

namespace Call

/-- The (target, slot) pair the call is for. -/
def key (c : Call) : Uuid × Time := (c.target.id, c.slot)

def input (c : Call) : JobRunInput where
  targetId := c.target.id
  scheduledSlot := c.slot
  jobRunId := jobRunId c.target.id c.slot
  workerId := c.workerId

/-- Hold the lock a little longer than the worst-case check duration. -/
def ttlMs (env : Env) (c : Call) : Nat :=
  max env.schedulerLockTtlMs (c.target.timeoutMs * (c.target.retry.count + 1) + 5000)

/-- The call has neither returned nor crashed. -/
def isLive (c : Call) : Bool :=
  match c.pc with
  | .returned _ | .crashed => false
  | _ => true

end Call

/-- What the surroundings decide for one step: the statement of it that fails, and what `execute` settles
with when this is the step in which it does. -/
structure Event where
  failAt : Option (Nat × String)
  execution : Except String HealthCheckOutcome

/-- Runs `m` on the pool, outside any transaction. -/
def Store.onPool {α : Type} (st : Store) (failAt : Option (Nat × String)) (m : SqlM α) :
    Except String α × Store :=
  ((exec m ⟨st, none, failAt⟩).1, (exec m ⟨st, none, failAt⟩).2.store)

section System

variable (env : Env) (rca : Uuid → Except String (List IncidentEventInput))

/-- The next step of `runScheduledCheck`; its result transaction is one. -/
def Call.advance (ev : Event) (st : Store) (c : Call) : Store × Pc :=
  match c.pc with
  | .entry =>
    match st.onPool ev.failAt (jobRunExists c.input.jobRunId) with
    | (.ok true, st) => (st, .returned (.ok (.skipped .alreadyDone)))
    | (.ok false, st) => (st, .locking)
    | (.error e, st) => (st, .returned (.error e))
  | .locking =>
    match st.onPool ev.failAt (acquireLock (lockKey c.target.id c.slot) c.workerId (c.ttlMs env)) with
    | (.ok true, st) => (st, .claiming)
    | (.ok false, st) => (st, .skipping)
    | (.error e, st) => (st, .returned (.error e))
  | .skipping =>
    match st.onPool ev.failAt (recordSkippedRun c.input .skippedLockContended) with
    | (.ok _, st) => (st, .returned (.ok (.skipped .lockContended)))
    | (.error e, st) => (st, .returned (.error e))
  | .claiming =>
    match st.onPool ev.failAt (claimJobRun c.input .pool) with
    | (.ok (some id), st) => (st, .claimed id)
    | (.ok none, st) => (st, .releasing (.ok (.skipped .alreadyDone)))
    | (.error e, st) => (st, .releasing (.error e))
  | .claimed id => (st, .executing id)
  | .executing id =>
    match ev.execution with
    | .ok outcome => (st, .recording id outcome)
    | .error e => (st, .deadLettering id e)
  | .recording id outcome =>
    match st.onPool ev.failAt (withTransaction (recordAndComplete env c.target c.slot id outcome)) with
    | (.ok transition, st) => (st, .refreshing outcome transition)
    | (.error e, st) => (st, .deadLettering id e)
  | .refreshing outcome transition =>
    match st.onPool ev.failAt (refreshRcaFor rca transition) with
    | (_, st) => (st, .releasing (.ok (.executed outcome)))
  | .deadLettering id message =>
    match st.onPool ev.failAt (completeJobRun id .deadLettered .pool) with
    | (.ok _, st) => (st, .alerting message)
    | (.error e, st) => (st, .releasing (.error e))
  | .alerting message =>
    match st.onPool ev.failAt (recordAlert (deadLetterAlert c.target message) .pool) with
    | (.ok _, st) => (st, .releasing (.ok (.deadLettered message)))
    | (.error e, st) => (st, .releasing (.error e))
  | .releasing result =>
    -- An error here is swallowed: the lock expires by itself.
    match st.onPool ev.failAt (releaseLock (lockKey c.target.id c.slot) c.workerId) with
    | (_, st) => (st, .returned result)
  | .returned result => (st, .returned result)
  | .crashed => (st, .crashed)

/-- The database, every call ever made, and two histories: the starts of `execute` and the acquired locks. -/
structure Sys where
  store : Store
  calls : List Call
  started : List (Uuid × Time)
  locked : List (Uuid × Time)

inductive Label
  /-- A worker calls `runScheduledCheck`. -/
  | invoke (target : MonitoredApi) (slot : Time) (workerId : String)
  /-- The `i`-th call takes its next step. -/
  | advance (i : Nat) (ev : Event)
  /-- The worker of the `i`-th call dies. -/
  | crash (i : Nat)
  | elapse (ms : Nat)

namespace Sys

/-- The start of `execute` that a step from `pc` to `pc'` is, if it is one. -/
def noteStart (c : Call) (pc' : Pc) : List (Uuid × Time) :=
  match c.pc, pc' with
  | .claimed _, .executing _ => [c.key]
  | _, _ => []

/-- The acquisition of the lock that a step is, if it is one. -/
def noteLock (c : Call) (pc' : Pc) : List (Uuid × Time) :=
  match c.pc, pc' with
  | .locking, .claiming => [c.key]
  | _, _ => []

def step (s : Sys) : Label → Option Sys
  | .invoke target slot workerId => some { s with calls := s.calls ++ [⟨target, slot, workerId, .entry⟩] }
  | .advance i ev =>
    match s.calls[i]? with
    | none => none
    | some c =>
      if c.isLive then
        let r := c.advance env rca ev s.store
        some {
          store := r.1
          calls := s.calls.set i { c with pc := r.2 }
          started := s.started ++ noteStart c r.2
          locked := s.locked ++ noteLock c r.2 }
      else none
  | .crash i =>
    match s.calls[i]? with
    | none => none
    | some c => if c.isLive then some { s with calls := s.calls.set i { c with pc := .crashed } } else none
  | .elapse ms => some { s with store := { s.store with now := s.store.now + ms } }

/-- A system before any call. -/
def init (st : Store) : Sys := ⟨st, [], [], []⟩

/-- The `i`-th call takes `n` steps in which nothing fails; `execute` settles with `execution`. -/
def undisturbed (i n : Nat) (execution : Except String HealthCheckOutcome) : List Label :=
  List.replicate n (.advance i ⟨none, execution⟩)

end Sys

end System

end CronMonitor
