import CronMonitor.LoadTest.Compliance

/-!
# Production readiness

`assessReadiness` of `load-readiness.ts`: gates for the correctness and the security suite, for three kinds of load, for
the age of the evidence and for where it comes from. ISO-8601 strings are times, shares are rationals, and `numberText`
is how a number is written.
-/

namespace CronMonitor.LoadTest.LoadReadiness
open History Compliance

inductive ReadinessStatus
  | ready | readyWithWarnings | notReady | incomplete
deriving DecidableEq, Repr

inductive GateStatus
  | pass | warn | fail | missing
deriving DecidableEq, Repr

structure LoadEvidence where
  id : String
  profile : LoadProfile
  verdict : RunVerdict
  finishedAt : Time
  environmentClass : Option LoadEnvironmentClass
  sloScore : ℚ
deriving DecidableEq

inductive SuiteVerdict
  | pass | fail | inconclusive
deriving DecidableEq, Repr

structure SuiteEvidence where
  id : String
  verdict : SuiteVerdict
  warnings : Nat
  skipped : Nat
  finishedAt : Time
  environmentClass : Option LoadEnvironmentClass
  assertionPassRatio : ℚ
deriving DecidableEq

structure Gate where
  id : String
  name : String
  required : Bool
  status : GateStatus
  detail : String
  evidenceId : Option String
deriving DecidableEq

inductive Basis
  | simulator | sandbox | production | mixed | none
deriving DecidableEq, Repr

structure Readiness where
  status : ReadinessStatus
  score : Option Int
  basis : Basis
  gates : List Gate
  reasons : List String
  nextSteps : List String
  asOf : Time

structure ReadinessInput where
  now : Time
  load : List LoadEvidence
  correctness : Option SuiteEvidence
  security : Option SuiteEvidence
  maxAgeDays : Option ℚ

def latest (xs : List LoadEvidence) : Option LoadEvidence := (byNewest LoadEvidence.finishedAt xs).head?

def loadGate (id name : String) (required : Bool) (ev : Option LoadEvidence) (missing : String) : Gate :=
  match ev with
  | none => ⟨id, name, required, .missing, missing, none⟩
  | some ev =>
    let profile := profileLabel ev.profile
    match ev.verdict with
    | .pass => ⟨id, name, required, .pass, s!"Latest {profile} run passed every objective.", ev.id⟩
    | .passWithWarnings => ⟨id, name, required, .warn, s!"Latest {profile} run passed with thin margins.", ev.id⟩
    | .fail => ⟨id, name, required, .fail, s!"Latest {profile} run missed an objective.", ev.id⟩
    | .inconclusive => ⟨id, name, required, .missing,
        s!"Latest {profile} run was inconclusive (stopped early or the test tool saturated) — it does not count as evidence.",
        ev.id⟩

def suiteGate (id name : String) (ev : Option SuiteEvidence) (missing : String) : Gate :=
  match ev with
  | none => ⟨id, name, true, .missing, missing, none⟩
  | some ev =>
    match ev.verdict with
    | .inconclusive => ⟨id, name, true, .missing,
        s!"The latest {name.toLower} run could not judge the service (the test key lacked permissions) — it does not count as evidence.",
        ev.id⟩
    | .fail => ⟨id, name, true, .fail, s!"The latest {name.toLower} run found defects.", ev.id⟩
    | .pass =>
      if 0 < ev.warnings ∨ 0 < ev.skipped then
        ⟨id, name, true, .warn,
          s!"Passed, with {ev.warnings} hardening warning(s) and {ev.skipped} check(s) that could not run in this environment.",
          ev.id⟩
      else ⟨id, name, true, .pass, s!"The latest {name.toLower} run passed with no warnings.", ev.id⟩

/-- An optional gate that was never run. -/
def Gate.optional (g : Gate) : Gate := if !g.required && g.status = .missing then { g with status := .warn } else g

namespace ReadinessInput

variable (i : ReadinessInput)

def steady : Option LoadEvidence := latest (i.load.filter fun l => l.profile = .load || l.profile = .soak)

def spike : Option LoadEvidence := latest (i.load.filter fun l => l.profile = .spike)

def limit : Option LoadEvidence := latest (i.load.filter fun l => l.profile = .stress || l.profile = .breakpoint)

/-- When the evidence was made, and where. -/
def evidence : List (Time × Option LoadEnvironmentClass) :=
  (i.correctness.map fun e => (e.finishedAt, e.environmentClass)).toList ++
    (i.security.map fun e => (e.finishedAt, e.environmentClass)).toList ++
      (i.steady.toList ++ i.spike.toList ++ i.limit.toList).map fun e => (e.finishedAt, e.environmentClass)

def stale : List (Time × Option LoadEnvironmentClass) :=
  i.evidence.filter fun e => isStale i.now e.1 (i.maxAgeDays.getD 30 * DAY)

/-- `classes.size === 1 && classes.has('MOCK')` is that all of them are `MOCK`. -/
def basis : Basis :=
  let classes := i.evidence.map (·.2)
  if classes.isEmpty then .none
  else if classes.all (· = some .mock) then .simulator
  else if classes.contains (some .mock) then .mixed
  else if classes.contains (some .production) then .production
  else .sandbox

/-- The gates of the suites and the load runs. -/
def resultGates : List Gate :=
  [suiteGate "correctness" "Money correctness" i.correctness
      "No correctness run yet: idempotency, refunds, webhooks and the ledger are unverified.",
    suiteGate "security" "Security" i.security "No security run yet: the OWASP API checks have not been run.",
    loadGate "steady-load" "Steady load" true i.steady "No LOAD or SOAK run yet: normal-peak behaviour is unmeasured.",
    loadGate "spike" "Spike resilience" false i.spike "No SPIKE run yet: sudden surges are untested.",
    loadGate "capacity" "Capacity limit" false i.limit "No BREAKPOINT or STRESS run yet: the ceiling is unknown."]

def freshnessGate (numberText : ℚ → String) : Gate :=
  let days := numberText (i.maxAgeDays.getD 30)
  { id := "freshness"
    name := "Evidence is recent"
    required := false
    status := if i.evidence.isEmpty then .missing else if i.stale.isEmpty then .pass else .warn
    detail :=
      if i.evidence.isEmpty then "There is no evidence."
      else if i.stale.isEmpty then s!"All evidence is within {days} days."
      else s!"{i.stale.length} piece(s) of evidence are older than {days} days."
    evidenceId := none }

def environmentGate : Gate where
  id := "real-environment"
  name := "Evidence comes from the real service"
  required := true
  status :=
    match i.basis with
    | .simulator | .none => .missing
    | .mixed => .warn
    | .sandbox | .production => .pass
  detail :=
    match i.basis with
    | .simulator => "All evidence is from the simulator. That proves the tests work, not that the iSmartPay service does."
    | .none => "There is no evidence."
    | .mixed => "Some evidence is from the simulator; only the sandbox/production runs count for readiness."
    | .sandbox => "Evidence comes from the sandbox."
    | .production => "Evidence comes from the production."
  evidenceId := none

def gates (numberText : ℚ → String) : List Gate :=
  i.resultGates.map Gate.optional ++ [i.freshnessGate numberText, i.environmentGate]

def score : Option Int :=
  if i.evidence.isEmpty then none
  else
    let perfParts := (i.steady.toList ++ i.spike.toList ++ i.limit.toList).map (·.sloScore)
    let perf := if perfParts.isEmpty then 0 else perfParts.sum / perfParts.length
    some ⌊30 * ((i.correctness.map (·.assertionPassRatio)).getD 0) + 30 * ((i.security.map (·.assertionPassRatio)).getD 0) +
      40 * perf + 1 / 2⌋

end ReadinessInput

def statusOf (gates : List Gate) : ReadinessStatus :=
  if gates.any (·.status = .fail) then .notReady
  else if gates.any fun g => g.required && g.status = .missing then .incomplete
  else if gates.any (·.status = .warn) then .readyWithWarnings
  else .ready

def nextStep (g : Gate) : Option String :=
  if g.id = "correctness" then
    some (if g.status = .fail then
      "Fix the failed correctness findings first — they are money-safety defects — then re-run the correctness suite."
    else "Run the correctness suite against the sandbox.")
  else if g.id = "security" then
    some (if g.status = .fail then "Fix the failed security findings, then re-run the security suite."
    else "Run the security suite against the sandbox.")
  else if g.id = "steady-load" then
    some (if g.status = .fail then "Address the performance findings, then repeat the LOAD run."
    else "Run a LOAD plan at the expected peak rate against the sandbox.")
  else if g.id = "spike" then some "Run a SPIKE plan to check the service survives a sudden surge."
  else if g.id = "capacity" then some "Run a BREAKPOINT plan to learn the ceiling, and set a required capacity."
  else if g.id = "freshness" then some "Re-run the stale evidence so the decision reflects the current system."
  else if g.id = "real-environment" then
    some "Repeat the runs against the iSmartPay sandbox (needs a test-console API key)."
  else none

/-- The gates that keep a service from being ready, most important first. -/
def shortcomings (gates : List Gate) : List Gate :=
  gates.filter (·.status = .fail) ++ gates.filter (fun g => g.required && g.status = .missing) ++
    gates.filter (·.status = .warn)

/-- `[...new Set(xs)]`. -/
def distinct (xs : List String) : List String := xs.foldl (fun seen x => if x ∈ seen then seen else seen ++ [x]) []

def assessReadiness (numberText : ℚ → String) (i : ReadinessInput) : Readiness where
  status := statusOf (i.gates numberText)
  score := i.score
  basis := i.basis
  gates := i.gates numberText
  reasons := (shortcomings (i.gates numberText)).map (·.detail)
  nextSteps := distinct ((shortcomings (i.gates numberText)).filterMap nextStep)
  asOf := i.now

end CronMonitor.LoadTest.LoadReadiness
