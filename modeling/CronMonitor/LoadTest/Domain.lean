import CronMonitor.Domain
import CronMonitor.Lib.Text
import CronMonitor.Targets.Repo

/-!
# Load tests

The enumerations of `enums.ts` for load tests, and `load-plan.ts`: a plan's traffic profile and the rates it reaches.
Rates that need not be whole are rationals. Of a plan's configuration the fields are kept that the modelled functions
read; the others only shape the generated script.
-/

namespace CronMonitor.LoadTest

inductive LoadEnvironmentClass
  | mock | sandbox | staging | production
deriving DecidableEq, Repr

def LoadEnvironmentClass.label : LoadEnvironmentClass → String
  | .mock => "MOCK"
  | .sandbox => "SANDBOX"
  | .staging => "STAGING"
  | .production => "PRODUCTION"

inductive LoadAuthorizationStatus
  | pending | approved | rejected | revoked
deriving DecidableEq, Repr

def LoadAuthorizationStatus.label : LoadAuthorizationStatus → String
  | .pending => "PENDING"
  | .approved => "APPROVED"
  | .rejected => "REJECTED"
  | .revoked => "REVOKED"

inductive LoadProfile
  | smoke | load | stress | spike | soak | breakpoint
deriving DecidableEq, Repr

inductive LoadRunStatus
  | queued | preflight | running | completed | aborted | failed
deriving DecidableEq, Repr

inductive PlanMethod
  | get | post | put | patch | delete
deriving DecidableEq, Repr

/-- `/^\/(?!\/)[^\s\\@]*$/`. -/
def isPlanPath (path : String) : Bool :=
  match path.toList with
  | '/' :: rest => rest.head? ≠ some '/' && rest.all fun c => !Text.isJsSpace c && c ≠ '\\' && c ≠ '@'
  | _ => false

structure PlanConfig where
  profile : LoadProfile
  method : PlanMethod
  path : Option String
  moneyMoving : Bool
  realSideEffects : Bool
  fanout : Nat
  targetRps : ℚ
  durationSeconds : Nat
  maxVus : Nat
  spikeMultiplier : ℚ
  targetRps_pos : 0 < targetRps
  fanout_pos : 1 ≤ fanout
  durationSeconds_min : 10 ≤ durationSeconds
  path_ok : path.all isPlanPath
deriving DecidableEq

/-- One request a second for ten seconds, to the address of the target itself. -/
def PlanConfig.smallest : PlanConfig :=
  ⟨.smoke, .get, none, false, false, 1, 1, 10, 1, 3, by decide, by decide, by decide, rfl⟩

structure Stage where
  durationSeconds : Nat
  target : Nat
deriving DecidableEq, Repr

/-- `Math.max(1, Math.round(n))`. -/
def rate (n : ℚ) : Nat := max 1 (⌊n + 1 / 2⌋.toNat)

/-- The index of the longest fraction, the first of several. -/
def longestIndex (fractions : List ℚ) : Nat := fractions.findIdx fun f => fractions.all (· ≤ f)

/-- The parts of `total` seconds; what rounding leaves goes to the longest. -/
def split (total : Nat) (fractions : List ℚ) : List Nat :=
  let parts := fractions.map fun f => max 1 (⌊total * f⌋.toNat)
  let diff : Int := total - parts.sum
  parts.modify (longestIndex fractions) fun p => (max 1 ((p : Int) + diff)).toNat

def makeStages (d : Nat) (fractions : List ℚ) (targets : List Nat) : List Stage :=
  (split d fractions).zipIdx.map fun p => ⟨p.1, (targets[p.2]?).getD 0⟩

def buildStages (cfg : PlanConfig) : List Stage :=
  let t := cfg.targetRps
  let d := cfg.durationSeconds
  match cfg.profile with
  | .smoke => makeStages d [1] [rate (min 2 t)]
  | .load => makeStages d [1 / 10, 8 / 10, 1 / 10] [rate t, rate t, 0]
  | .soak => makeStages d [5 / 100, 9 / 10, 5 / 100] [rate t, rate t, 0]
  | .stress =>
    let steps := [1 / 2, 1, 3 / 2, 2].map fun m : ℚ => rate (t * m)
    makeStages d [5 / 100, 2 / 10, 5 / 100, 2 / 10, 5 / 100, 2 / 10, 5 / 100, 2 / 10] (steps.flatMap fun s => [s, s])
  | .spike =>
    let peak := rate (t * cfg.spikeMultiplier)
    makeStages d [25 / 100, 5 / 100, 2 / 10, 5 / 100, 45 / 100] [rate t, peak, peak, rate t, rate t]
  | .breakpoint => makeStages d [1] [rate t]

def peakRps (cfg : PlanConfig) : Nat := ((buildStages cfg).map (·.target)).foldl max 0

def effectiveRps (cfg : PlanConfig) : Nat := peakRps cfg * cfg.fanout

def isStateChanging (cfg : PlanConfig) : Bool := cfg.method ≠ .get || cfg.moneyMoving

/-- What a plan's run keeps of its target. -/
structure SnapshotTarget where
  name : String
  url : String
  isMoneyMoving : Bool
  environment : Targets.Environment
deriving DecidableEq, Repr

structure PlanSnapshot where
  config : PlanConfig
  target : SnapshotTarget
  peakRps : Nat
deriving DecidableEq

structure ErrorClasses where
  server5xx : Nat
  rateLimited429 : Nat
  client4xx : Nat
  networkOrTimeout : Nat
  unexpectedOther : Nat
deriving DecidableEq, Repr

structure LatencySummary where
  avg : ℚ
  p50 : ℚ
  p90 : ℚ
  p95 : ℚ
  p99 : ℚ
  max : ℚ
deriving DecidableEq, Repr

structure RunSummary where
  totalRequests : Nat
  failedRequests : Nat
  errorRate : ℚ
  statusCounts : List (String × Nat)
  errorClasses : ErrorClasses
  latencyMs : LatencySummary
  achievedAvgRps : ℚ
  peakRps : Nat
  maxSustainedRps : ℚ
  droppedIterations : ℚ
  generatorSaturated : Bool
  authRequests : Nat
  activeSeconds : ℚ
deriving DecidableEq, Repr

end CronMonitor.LoadTest
