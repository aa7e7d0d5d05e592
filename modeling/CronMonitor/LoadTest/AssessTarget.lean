import CronMonitor.LoadTest.Compliance

/-!
# The assessment of a target

`assessTarget` of `compliance.service.ts` reads the last runs of a target's suites and its last load runs, and
`assessControls` prefers real evidence among what it is given. `verdictOf` stands for `evaluateRunSlo`, `hostOf` for the host of a URL.
-/

namespace CronMonitor.LoadTest.Compliance
open History

structure Assertion where
  pass : Bool
  advisory : Bool
deriving DecidableEq

structure CheckResult where
  id : String
  status : CheckStatus
  assertions : List Assertion
deriving DecidableEq

structure CorrectnessRun where
  id : String
  apiId : Uuid
  status : LoadRunStatus
  suite : Suite
  effectiveClass : Option LoadEnvironmentClass
  results : Option (List CheckResult)
  queuedAt : Time
  finishedAt : Option Time
deriving DecidableEq

structure LoadRun where
  id : String
  apiId : Uuid
  status : LoadRunStatus
  snapshot : PlanSnapshot
  effectiveClass : Option LoadEnvironmentClass
  finishedReason : Option String
  summary : Option RunSummary
  queuedAt : Time
  finishedAt : Option Time
deriving DecidableEq

structure TargetRow where
  id : Uuid
  name : String
  url : String
deriving DecidableEq

/-- The tables, with their primary keys. -/
structure Tables where
  targets : List TargetRow
  correctnessRuns : List CorrectnessRun
  loadRuns : List LoadRun
  reviews : List ReviewRecord
  correctness_key : (correctnessRuns.map (·.id)).Nodup
  load_key : (loadRuns.map (·.id)).Nodup

/-- The runs that `listCorrectnessRuns` selects, all of them. -/
def correctnessRunsOf (t : Tables) (apiId : Option Uuid) (suite : Option Suite) : List CorrectnessRun :=
  byNewest CorrectnessRun.queuedAt
    (t.correctnessRuns.filter fun r => apiId.all (r.apiId = ·) && suite.all (r.suite = ·))

def listCorrectnessRuns (t : Tables) (apiId : Option Uuid) (suite : Option Suite) (limit : Option Nat) :
    List CorrectnessRun :=
  (correctnessRunsOf t apiId suite).take (min (limit.getD 50) 200)

def loadRunsOf (t : Tables) (apiId : Option Uuid) : List LoadRun :=
  byNewest LoadRun.queuedAt (t.loadRuns.filter fun r => apiId.all (r.apiId = ·))

def listRuns (t : Tables) (apiId : Option Uuid) (limit : Option Nat) : List LoadRun :=
  (loadRunsOf t apiId).take (min (limit.getD 50) 200)

def toSuiteEvidence (r : CorrectnessRun) : SuiteRunEvidence where
  runId := r.id
  suite := r.suite
  finishedAt := r.finishedAt.getD r.queuedAt
  environmentClass := r.effectiveClass
  checks := (r.results.getD []).map fun c =>
    ⟨c.id, c.status, c.assertions.length, c.assertions.countP fun a => !a.pass && !a.advisory⟩

/-- The suite runs that count. -/
def completed (rs : List CorrectnessRun) : List CorrectnessRun := rs.filter fun r => r.status = .completed && r.results.isSome

/-- The load runs that count. -/
def ended (rs : List LoadRun) : List LoadRun :=
  rs.filter fun r => r.status = .completed || r.status = .aborted || r.status = .failed

structure MatrixMeta where
  targetId : Uuid
  name : String
  host : String
  generatedAt : Time

structure TargetAssessment where
  assessment : Assessment
  reviews : List ReviewRecord
  info : MatrixMeta
  suiteRuns : List CorrectnessRun
  loadRuns : List LoadRun

section

variable (controls : List Control) (hostOf : String → String)
  (verdictOf : PlanConfig → Option RunSummary → LoadRunStatus → Option String → RunVerdict)

def toLoadEvidence (r : LoadRun) : LoadRunEvidence where
  runId := r.id
  profile := r.snapshot.config.profile
  verdict := verdictOf r.snapshot.config r.summary r.status r.finishedReason
  finishedAt := r.finishedAt.getD r.queuedAt
  environmentClass := r.effectiveClass

/-- What is assessed when the runs are those given. -/
def evidenceOf (reviews : List ReviewRecord) (suiteRuns : List CorrectnessRun) (loadRuns : List LoadRun) (now : Time)
    (maxAgeDays : Option ℚ) : AssessInput where
  now := now
  suites := suiteRuns.map toSuiteEvidence
  load := loadRuns.map (toLoadEvidence verdictOf)
  reviews := reviews
  maxAgeDays := maxAgeDays.filter (· ≠ 0)
  controls := controls
  libraryVersion := none

def assessTarget (t : Tables) (apiId : Uuid) (now : Time) (maxAgeDays : Option ℚ) : Except String TargetAssessment :=
  match t.targets.find? (·.id = apiId) with
  | none => .error "Target not found"
  | some target =>
    let corr := listCorrectnessRuns t apiId (some .correctness) (some 10)
    let sec := listCorrectnessRuns t apiId (some .security) (some 10)
    let loadRuns := listRuns t apiId (some 60)
    let suiteRuns := completed (corr ++ sec)
    let finished := ended loadRuns
    .ok
      { assessment := assessControls (evidenceOf controls verdictOf t.reviews suiteRuns finished now maxAgeDays)
        reviews := t.reviews
        info := ⟨apiId, target.name, hostOf target.url, now⟩
        suiteRuns := suiteRuns
        loadRuns := finished }

end

end CronMonitor.LoadTest.Compliance
