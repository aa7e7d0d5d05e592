import CronMonitor.LoadTest.Domain
import CronMonitor.Lib.Runs
import CronMonitor.Lib.Rows

/-!
# The run tables

`load-test-runs.repo.ts` and `load-test-correctness.repo.ts`: every statement on `load_test_runs` and on
`load_test_correctness_runs`, issued in any order by API clients and workers. The two tables have the same columns of
the life cycle; what else a run is made of (`D`) and what finishing it writes apart from the status (`O`) differ.
`claimed` and `aborted` are observations: the runs that a worker was given, and those aborted while QUEUED.
-/

namespace CronMonitor.LoadTest

/-- COMPLETED, ABORTED or FAILED. -/
def LoadRunStatus.isFinal : LoadRunStatus → Bool
  | .completed | .aborted | .failed => true
  | .queued | .preflight | .running => false

abbrev FinalStatus := { status : LoadRunStatus // status.isFinal }

namespace FinalStatus

abbrev completed : FinalStatus := ⟨.completed, rfl⟩

abbrev aborted : FinalStatus := ⟨.aborted, rfl⟩

abbrev failed : FinalStatus := ⟨.failed, rfl⟩

end FinalStatus

structure RunRow (D O : Type) where
  id : Uuid
  status : LoadRunStatus
  data : D
  outcome : O
  workerId : Option String
  heartbeatAt : Option Time
  queuedAt : Time
  startedAt : Option Time
  finishedAt : Option Time
deriving DecidableEq

structure RunTable (D O : Type) where
  rows : List (RunRow D O)
  claimed : List Uuid
  aborted : List Uuid
deriving DecidableEq

namespace RunTable

variable {D O : Type}

def find (t : RunTable D O) (id : Uuid) : Option (RunRow D O) := t.rows.find? (·.id = id)

def update (t : RunTable D O) (p : RunRow D O → Bool) (f : RunRow D O → RunRow D O) : RunTable D O :=
  { t with rows := t.rows.map fun r => if p r then f r else r }

def insert (t : RunTable D O) (id : Uuid) (data : D) (outcome : O) (now : Time) : RunTable D O :=
  { t with rows := t.rows ++ [⟨id, .queued, data, outcome, none, none, now, none, none⟩] }

/-- The oldest QUEUED row that no other transaction holds. -/
def nextQueued (t : RunTable D O) (locked : List Uuid) : Option (RunRow D O) :=
  let queued := t.rows.filter fun r => r.status = .queued && r.id ∉ locked
  queued.find? fun r => queued.all fun r' => r.queuedAt ≤ r'.queuedAt

def claimNext (t : RunTable D O) (workerId : String) (locked : List Uuid) (now : Time) : RunTable D O :=
  match t.nextQueued locked with
  | none => t
  | some next =>
    { t.update (·.id = next.id) fun r =>
        { r with status := .preflight, workerId := some workerId, heartbeatAt := some now } with
      claimed := t.claimed ++ [next.id] }

def markRunning (t : RunTable D O) (id : Uuid) (set : D → D) (now : Time) : RunTable D O :=
  t.update (·.id = id) fun r =>
    { r with status := .running, startedAt := some now, heartbeatAt := some now, data := set r.data }

def heartbeat (t : RunTable D O) (id : Uuid) (now : Time) : RunTable D O :=
  t.update (·.id = id) fun r => { r with heartbeatAt := some now }

def finish (t : RunTable D O) (id : Uuid) (status : FinalStatus) (outcome : O) (now : Time) : RunTable D O :=
  t.update (·.id = id) fun r => { r with status := status.1, outcome := outcome, finishedAt := some now }

def isStale (staleSeconds : Nat) (now : Time) (r : RunRow D O) : Bool :=
  (r.status = .preflight || r.status = .running) && r.heartbeatAt.any (· < now - staleSeconds * 1000)

def recoverStale (t : RunTable D O) (staleSeconds : Nat) (set : O → O) (now : Time) : RunTable D O :=
  t.update (isStale staleSeconds now) fun r =>
    { r with status := .failed, outcome := set r.outcome, finishedAt := some now }

/-- A QUEUED run is closed at once, one under way is flagged. -/
def requestAbort (t : RunTable D O) (id : Uuid) (set : D → D) (close : O → O) (now : Time) : RunTable D O :=
  let queued := t.rows.filter fun r => r.id = id && r.status = .queued
  { t.update (fun r => r.id = id && !r.status.isFinal) fun r =>
      if r.status = .queued then
        { r with data := set r.data, status := .aborted, outcome := close r.outcome, finishedAt := some now }
      else { r with data := set r.data } with
    aborted := t.aborted ++ queued.map (·.id) }

end RunTable

/-! ### `load_test_runs` -/

structure LoadRunData where
  planId : Uuid
  apiId : Uuid
  snapshot : PlanSnapshot
  effectiveClass : Option LoadEnvironmentClass
  requestedBy : Option Uuid
  abortRequested : Bool
  abortReason : Option String
  k6Version : Option String
  maintenanceWindowId : Option Uuid
deriving DecidableEq

structure LoadOutcome where
  finishedReason : Option String
  error : Option String
  summary : Option RunSummary
deriving DecidableEq

abbrev LoadRun := RunRow LoadRunData LoadOutcome

abbrev LoadRuns := RunTable LoadRunData LoadOutcome

namespace LoadRuns

def createRun (t : LoadRuns) (id planId apiId : Uuid) (snapshot : PlanSnapshot)
    (effectiveClass : Option LoadEnvironmentClass) (requestedBy : Option Uuid) (now : Time) : LoadRuns :=
  t.insert id ⟨planId, apiId, snapshot, effectiveClass, requestedBy, false, none, none, none⟩ ⟨none, none, none⟩ now

def claimNextRun (t : LoadRuns) (workerId : String) (locked : List Uuid) (now : Time) : LoadRuns :=
  t.claimNext workerId locked now

def markRunning (t : LoadRuns) (id : Uuid) (k6Version : String) (maintenanceWindowId : Option Uuid) (now : Time) :
    LoadRuns :=
  RunTable.markRunning t id
    (fun d => { d with k6Version := some k6Version, maintenanceWindowId := maintenanceWindowId }) now

/-- The row, and the abort flag read back. -/
def heartbeat (t : LoadRuns) (id : Uuid) (now : Time) : LoadRuns × Bool × Option String :=
  let t' := RunTable.heartbeat t id now
  (t', ((t'.find id).map (·.data.abortRequested)).getD false, (t'.find id).bind (·.data.abortReason))

def finishRun (t : LoadRuns) (id : Uuid) (status : FinalStatus) (finishedReason : String)
    (summary : Option RunSummary) (error : Option String) (now : Time) : LoadRuns :=
  t.finish id status ⟨some finishedReason, error, summary⟩ now

def requestAbort (t : LoadRuns) (id : Uuid) (reason : String) (now : Time) : LoadRuns :=
  RunTable.requestAbort t id (fun d => { d with abortRequested := true, abortReason := some reason })
    (fun o => { o with finishedReason := some "aborted before start" }) now

/-- The runs that were abandoned follow; a statement of its own deletes their maintenance windows. -/
def recoverStaleRuns (t : LoadRuns) (staleSeconds : Nat) (now : Time) : LoadRuns × List Uuid :=
  (t.recoverStale staleSeconds (fun o => { o with
      finishedReason := some "worker lost"
      error := some "Worker stopped heartbeating; run abandoned." }) now,
    (t.rows.filter (RunTable.isStale staleSeconds now)).map (·.id))

end LoadRuns

/-! ### `load_test_correctness_runs` -/

inductive SuiteKind
  | correctness | security
deriving DecidableEq, Repr

inductive SuiteMode
  | simulator | live
deriving DecidableEq, Repr

structure CorrectnessRunData where
  apiId : Uuid
  suite : SuiteKind
  mode : Option SuiteMode
  effectiveClass : Option LoadEnvironmentClass
  selectedChecks : List String
  requestedBy : Option Uuid
deriving DecidableEq

/-- The results and their summary are the JSON that is stored. -/
structure CorrectnessOutcome where
  results : Option Targets.Json
  summary : Option Targets.Json
  error : Option String
deriving DecidableEq

abbrev CorrectnessRun := RunRow CorrectnessRunData CorrectnessOutcome

abbrev CorrectnessRuns := RunTable CorrectnessRunData CorrectnessOutcome

namespace CorrectnessRuns

def createCorrectnessRun (t : CorrectnessRuns) (id apiId : Uuid) (checks : List String)
    (effectiveClass : Option LoadEnvironmentClass) (requestedBy : Option Uuid) (suite : Option SuiteKind)
    (now : Time) : CorrectnessRuns :=
  t.insert id ⟨apiId, suite.getD .correctness, none, effectiveClass, checks, requestedBy⟩ ⟨none, none, none⟩ now

def claimNextCorrectnessRun (t : CorrectnessRuns) (workerId : String) (locked : List Uuid) (now : Time) :
    CorrectnessRuns :=
  t.claimNext workerId locked now

def markCorrectnessRunning (t : CorrectnessRuns) (id : Uuid) (mode : SuiteMode) (now : Time) : CorrectnessRuns :=
  t.markRunning id (fun d => { d with mode := some mode }) now

def correctnessHeartbeat (t : CorrectnessRuns) (id : Uuid) (now : Time) : CorrectnessRuns :=
  t.heartbeat id now

def finishCorrectnessRun (t : CorrectnessRuns) (id : Uuid) (status : FinalStatus) (results summary : Option Targets.Json)
    (error : Option String) (now : Time) : CorrectnessRuns :=
  t.finish id status ⟨results, summary, error⟩ now

def recoverStaleCorrectnessRuns (t : CorrectnessRuns) (staleSeconds : Nat) (now : Time) : CorrectnessRuns × List Uuid :=
  (t.recoverStale staleSeconds (fun o => { o with error := some "Worker stopped heartbeating; run abandoned." }) now,
    (t.rows.filter (RunTable.isStale staleSeconds now)).map (·.id))

end CorrectnessRuns

/-! ### The tables under all their clients -/

structure RunStore where
  runs : LoadRuns
  suites : CorrectnessRuns
  nextUuid : Uuid
  now : Time
deriving DecidableEq

namespace RunStore

def init : RunStore := ⟨⟨[], [], []⟩, ⟨[], [], []⟩, 0, 0⟩

/-- One statement. `locked` are the rows that other transactions hold when a claim looks for its row. -/
inductive Statement
  | createRun (planId apiId : Uuid) (snapshot : PlanSnapshot) (effectiveClass : Option LoadEnvironmentClass)
      (requestedBy : Option Uuid)
  | claimNextRun (workerId : String) (locked : List Uuid)
  | markRunning (id : Uuid) (k6Version : String) (maintenanceWindowId : Option Uuid)
  | heartbeat (id : Uuid)
  | finishRun (id : Uuid) (status : FinalStatus) (finishedReason : String) (summary : Option RunSummary)
      (error : Option String)
  | requestAbort (id : Uuid) (reason : String)
  | recoverStaleRuns (staleSeconds : Nat)
  | createCorrectnessRun (apiId : Uuid) (checks : List String) (effectiveClass : Option LoadEnvironmentClass)
      (requestedBy : Option Uuid) (suite : Option SuiteKind)
  | claimNextCorrectnessRun (workerId : String) (locked : List Uuid)
  | markCorrectnessRunning (id : Uuid) (mode : SuiteMode)
  | correctnessHeartbeat (id : Uuid)
  | finishCorrectnessRun (id : Uuid) (status : FinalStatus) (results summary : Option Targets.Json)
      (error : Option String)
  | recoverStaleCorrectnessRuns (staleSeconds : Nat)

/-- A worker marks, keeps alive and finishes the runs it was given. -/
def enabled (s : RunStore) : Statement → Bool
  | .markRunning id _ _ | .heartbeat id | .finishRun id _ _ _ _ => id ∈ s.runs.claimed
  | .markCorrectnessRunning id _ | .correctnessHeartbeat id | .finishCorrectnessRun id _ _ _ _ => id ∈ s.suites.claimed
  | _ => true

def exec (s : RunStore) : Statement → RunStore
  | .createRun planId apiId snapshot cls requestedBy =>
    { s with
      runs := s.runs.createRun s.nextUuid planId apiId snapshot cls requestedBy s.now
      nextUuid := s.nextUuid + 1 }
  | .claimNextRun workerId locked => { s with runs := s.runs.claimNextRun workerId locked s.now }
  | .markRunning id version window => { s with runs := LoadRuns.markRunning s.runs id version window s.now }
  | .heartbeat id => { s with runs := (LoadRuns.heartbeat s.runs id s.now).1 }
  | .finishRun id status reason summary error => { s with runs := s.runs.finishRun id status reason summary error s.now }
  | .requestAbort id reason => { s with runs := LoadRuns.requestAbort s.runs id reason s.now }
  | .recoverStaleRuns secs => { s with runs := (s.runs.recoverStaleRuns secs s.now).1 }
  | .createCorrectnessRun apiId checks cls requestedBy suite =>
    { s with
      suites := s.suites.createCorrectnessRun s.nextUuid apiId checks cls requestedBy suite s.now
      nextUuid := s.nextUuid + 1 }
  | .claimNextCorrectnessRun workerId locked =>
    { s with suites := s.suites.claimNextCorrectnessRun workerId locked s.now }
  | .markCorrectnessRunning id mode => { s with suites := s.suites.markCorrectnessRunning id mode s.now }
  | .correctnessHeartbeat id => { s with suites := s.suites.correctnessHeartbeat id s.now }
  | .finishCorrectnessRun id status results summary error =>
    { s with suites := s.suites.finishCorrectnessRun id status results summary error s.now }
  | .recoverStaleCorrectnessRuns secs => { s with suites := (s.suites.recoverStaleCorrectnessRuns secs s.now).1 }

/-- The next statement, some time after the one before. -/
def step (s : RunStore) (l : Nat × Statement) : Option RunStore :=
  if s.enabled l.2 then some ({ s with now := s.now + l.1 }.exec l.2) else none

end RunStore

end CronMonitor.LoadTest
