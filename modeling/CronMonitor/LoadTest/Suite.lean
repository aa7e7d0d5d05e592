import Mathlib

/-!
# Correctness suites and their findings

`runSuite` and `summarize` of `suite.ts`, and `findingsFromSuite` of `load-findings.ts`. What a check does is an answer of
the world: its outcome, how long it took and which calls it made, and before it whether the suite shall stop. The texts of
`CONTROL_INFO` and `localeCompare` are parameters; errors arrive as the text that the note keeps of them.
-/

namespace CronMonitor.LoadTest

structure Assertion where
  name : String
  pass : Bool
  detail : Option String
  advisory : Option Bool
deriving DecidableEq, Repr

def Assertion.isAdvisory (a : Assertion) : Bool := a.advisory = some true

structure Check where
  id : String
  title : String
  controls : List String
  requires : List String
  liveOnly : Bool
  owasp : Option String
deriving DecidableEq, Repr

/-- What a check returns or throws. -/
inductive CheckOutcome
  | assertions (list : List Assertion)
  | skip (why : String)
  | blocked (permission message : String)
  | threw (message : String)
deriving DecidableEq, Repr

inductive CheckStatus
  | pass | fail | error | skipped
deriving DecidableEq, Repr

structure CheckResult (ε : Type) where
  id : String
  title : String
  controls : List String
  status : CheckStatus
  owasp : Option String
  assertions : List Assertion
  warnings : Nat
  durationMs : Nat
  evidence : List ε
  note : Option String
  blockedBy : Option String

/-- What the world answers at one check of the loop. -/
structure SuiteStep (ε : Type) where
  stop : Option String
  outcome : CheckOutcome
  durationMs : Nat
  evidence : List ε

variable {ε : Type}

/-- A text that counts unless it is empty. -/
def truthy (s : Option String) : Option String := s.filter (· ≠ "")

def isSelected (only : List String) (c : Check) : Bool := only = [] || c.id ∈ only

/-- `only` is empty where no selection is given. -/
def applicableChecks (simulator : Bool) (only : List String) (pool : List Check) : List Check :=
  ((pool.filter (isSelected only)).filter fun c => simulator || c.requires.length = 0).filter fun c =>
    !(simulator && c.liveOnly)

def baseResult (c : Check) : CheckResult ε where
  id := c.id
  title := c.title
  controls := c.controls
  status := .skipped
  owasp := truthy c.owasp
  assertions := []
  warnings := 0
  durationMs := 0
  evidence := []
  note := none
  blockedBy := none

/-- The result of one check of the loop. -/
def checkResult (c : Check) (step : SuiteStep ε) : CheckResult ε :=
  match truthy step.stop with
  | some stop => { (baseResult c : CheckResult ε) with note := some s!"suite stopped: {stop}" }
  | none =>
    let ran := { (baseResult c : CheckResult ε) with durationMs := step.durationMs, evidence := step.evidence }
    match step.outcome with
    | .skip why => { ran with note := some why }
    | .assertions list =>
      let required := list.filter fun a => !a.isAdvisory
      { ran with
        status := if required.all (·.pass) then .pass else .fail
        warnings := (list.filter fun a => a.isAdvisory && !a.pass).length
        assertions := list }
    | .blocked permission message => { ran with note := some s!"BLOCKED — {message}", blockedBy := some permission }
    | .threw message => { ran with status := .error, note := some message }

inductive SuiteVerdict
  | pass | fail | inconclusive
deriving DecidableEq, Repr

structure SuiteSummary where
  total : Nat
  passed : Nat
  failed : Nat
  errored : Nat
  skipped : Nat
  warnings : Nat
  assertionsTotal : Nat
  assertionsFailed : Nat
  blocked : Option (Nat × List String)
  verdict : SuiteVerdict

/-- `[...new Set(…)].sort()` of the permissions that blocked a check. -/
def missingPermissions (blocked : List (CheckResult ε)) : List String :=
  (blocked.filterMap (·.blockedBy)).eraseDups.insertionSort (· ≤ ·)

def summarize (results : List (CheckResult ε)) : SuiteSummary :=
  let count : CheckStatus → Nat := fun s => (results.filter (·.status = s)).length
  let all := results.flatMap (·.assertions)
  let failed := count .fail
  let errored := count .error
  let blocked := results.filter (·.blockedBy.isSome)
  { total := results.length
    passed := count .pass
    failed := failed
    errored := errored
    skipped := count .skipped
    warnings := (results.map (·.warnings)).sum
    assertionsTotal := all.length
    assertionsFailed := (all.filter fun a => !a.pass).length
    blocked := if blocked.length > 0 then some (blocked.length, missingPermissions blocked) else none
    verdict :=
      if failed + errored > 0 then .fail
      else if blocked.length > 0 then .inconclusive
      else if count .pass > 0 then .pass
      else .fail }

/-- The results of the loop over the chosen checks, then of those that the mode rules out. -/
def suiteResults (simulator : Bool) (only : List String) (pool : List Check) (steps : Nat → SuiteStep ε) :
    List (CheckResult ε) :=
  let chosen := applicableChecks simulator only pool
  let skippedForMode := ((pool.filter (isSelected only)).filter (· ∉ chosen)).filter fun c =>
    !(simulator && c.liveOnly)
  (chosen.zipIdx.map fun p => checkResult p.1 (steps p.2)) ++
    skippedForMode.map fun c =>
      { (baseResult c : CheckResult ε) with
        note := some "requires the simulator control plane (not available against a live target)" }

structure SuiteReport (ε : Type) where
  results : List (CheckResult ε)
  summary : SuiteSummary

def runSuite (simulator : Bool) (only : List String) (pool : List Check) (steps : Nat → SuiteStep ε) : SuiteReport ε :=
  let results := suiteResults simulator only pool steps
  ⟨results, summarize results⟩

/-! ### Findings -/

inductive FindingSeverity
  | critical | high | medium | low | info
deriving DecidableEq, Repr

def severityRank : FindingSeverity → Nat
  | .critical => 5
  | .high => 4
  | .medium => 3
  | .low => 2
  | .info => 1

def worstSeverity (a b : FindingSeverity) : FindingSeverity := if severityRank a ≥ severityRank b then a else b

inductive FindingSource
  | performance | correctness | security
deriving DecidableEq, Repr

def FindingSource.label : FindingSource → String
  | .performance => "performance"
  | .correctness => "correctness"
  | .security => "security"

structure Finding where
  id : String
  source : FindingSource
  severity : FindingSeverity
  title : String
  impact : String
  cause : String
  recommendation : String
  reference : String
  owasp : Option String
  advisory : Bool

structure ControlInfo where
  severity : FindingSeverity
  impact : String
  recommendation : String

def fallback : ControlInfo :=
  ⟨.medium, "A protection the programme expects did not hold.",
    "Review the failed assertions and fix the underlying behaviour."⟩

section Findings
variable (controlInfo : String → Option ControlInfo) (localeCompare : String → String → Int) (source : FindingSource)

/-- The finding about the credential, if a permission was missing. -/
def credentialFindings (results : List (CheckResult ε)) : List Finding :=
  let blocked := results.filter (·.blockedBy.isSome)
  let perms := ", ".intercalate (missingPermissions blocked)
  if blocked.length > 0 then
    [{ id := s!"{source.label}.credential-permissions"
       source := source
       severity := .medium
       title := s!"The test key is missing permissions — {blocked.length} check(s) could not run"
       impact :=
         "These checks say nothing about the service yet: they were stopped by the credential, not by a defect."
       cause := s!"The credential used for testing was refused for lacking: {perms}."
       recommendation :=
         s!"Issue a test key that grants {perms} (with the matching read permissions), then re-run the suite."
       reference := "credential-permissions"
       owasp := none
       advisory := false }]
  else []

def detailed (a : Assertion) : String :=
  match truthy a.detail with
  | some detail => s!"{a.name} ({detail})"
  | none => a.name

/-- The controls of a check, the most severe first. -/
def bestControls (r : CheckResult ε) : List ControlInfo :=
  (r.controls.map fun c => (controlInfo c).getD fallback).insertionSort fun a b =>
    severityRank b.severity ≤ severityRank a.severity

def errorFinding (r : CheckResult ε) : Finding where
  id := s!"{source.label}.{r.id}"
  source := source
  severity := .high
  title := s!"{r.title} — the check could not run"
  impact := "Whether this protection holds is unknown."
  cause := r.note.getD "The check raised an error."
  recommendation :=
    "Fix the test environment or credentials, then re-run; treat the area as unverified until then."
  reference := r.id
  owasp := truthy r.owasp
  advisory := false

def failedAssertions (r : CheckResult ε) : List Assertion := r.assertions.filter fun a => !a.pass && !a.isAdvisory

def warnedAssertions (r : CheckResult ε) : List Assertion := r.assertions.filter fun a => !a.pass && a.isAdvisory

def failureFinding (r : CheckResult ε) : Finding where
  id := s!"{source.label}.{r.id}"
  source := source
  severity := (r.controls.map fun c => ((controlInfo c).getD fallback).severity).foldl worstSeverity .low
  title := r.title
  impact := ((bestControls controlInfo r).head?.getD fallback).impact
  cause := "; ".intercalate ((failedAssertions r).map detailed)
  recommendation := " ".intercalate (((bestControls controlInfo r).take 2).map (·.recommendation)).eraseDups
  reference := r.id
  owasp := truthy r.owasp
  advisory := false

def warningFinding (r : CheckResult ε) (i : Nat) (a : Assertion) : Finding :=
  let number := i + 1
  { id := s!"{source.label}.{r.id}.warn{number}"
    source := source
    severity := .low
    title := s!"Hardening: {a.name}"
    impact := "Not a defect today, but a recommended protection is missing or unconfirmed."
    cause := detailed a
    recommendation := ((bestControls controlInfo r).head?.getD fallback).recommendation
    reference := r.id
    owasp := truthy r.owasp
    advisory := true }

/-- The findings of one result. -/
def findingsOf (r : CheckResult ε) : List Finding :=
  match r.status with
  | .skipped => []
  | .error => [errorFinding source r]
  | .pass | .fail =>
    (if (failedAssertions r).length > 0 then [failureFinding controlInfo source r] else []) ++
      (warnedAssertions r).zipIdx.map fun p => warningFinding controlInfo source r p.2 p.1

/-- The most severe first, then by id. -/
def findingBefore (a b : Finding) : Prop :=
  severityRank b.severity < severityRank a.severity ∨
    severityRank b.severity = severityRank a.severity ∧ localeCompare a.id b.id ≤ 0

instance (a b : Finding) : Decidable (findingBefore localeCompare a b) := inferInstanceAs (Decidable (_ ∨ _))

def findingsFromSuite (results : List (CheckResult ε)) : List Finding :=
  (credentialFindings source results ++ results.flatMap (findingsOf controlInfo source)).insertionSort
    (findingBefore localeCompare)

end Findings

end CronMonitor.LoadTest
