import CronMonitor.LoadTest.Domain
import CronMonitor.Lib.Newest

/-!
# Compliance assessment

`compliance/assess.ts` and the types of `controls.ts`: test evidence is turned into a status for every control. The
ISO-8601 UTC strings that are compared are times. Of a control the fields are kept that the assessment reads; the
control library itself, a table of texts, is what the caller passes.
-/

namespace CronMonitor.LoadTest.Compliance
open History

def LIBRARY_VERSION : String := "2026.10.16-draft-1"

inductive Framework
  | pciDss401 | owaspApi2023 | bog | ghDpa843
deriving DecidableEq, Repr

/-- `Object.keys(FRAMEWORKS)`. -/
def FRAMEWORKS : List Framework := [.pciDss401, .owaspApi2023, .bog, .ghDpa843]

def Framework.name : Framework → String
  | .pciDss401 => "PCI DSS v4.0.1"
  | .owaspApi2023 => "OWASP API Security Top 10 (2023)"
  | .bog => "Bank of Ghana — payment-system expectations"
  | .ghDpa843 => "Ghana Data Protection Act, 2012 (Act 843)"

def Framework.note : Framework → String
  | .pciDss401 => "Requirement-level references. This programme supports, but does not replace, QSA-led assessment, ASV scans or penetration testing."
  | .owaspApi2023 => "Each category maps to the checks that probe it."
  | .bog => "Themes drawn from the Payment Systems and Services Act, 2019 (Act 987) and BoG operational, cyber-security and e-money requirements. Exact directive clauses are NOT yet verified — the compliance owner must supply them."
  | .ghDpa843 => "Security-safeguard and data-minimisation themes. Exact section references are NOT yet verified."

inductive EvidenceRule
  | checks (checkIds : List String) (description : String)
  | load (profiles : List LoadProfile) (description : String)
deriving DecidableEq, Repr

inductive Scope
  | testable | partialScope | outOfScope
deriving DecidableEq, Repr

structure Control where
  id : String
  framework : Framework
  refVerified : Bool
  scope : Scope
  evidence : List EvidenceRule
deriving DecidableEq, Repr

inductive ControlStatus
  | evidenced | evidencedStale | partly | simulatorOnly | notTested | failing | outOfScope
deriving DecidableEq, Repr

inductive ItemOutcome
  | pass | stale | simOnly | missing | fail
deriving DecidableEq, Repr

inductive CheckStatus
  | pass | fail | error | skipped
deriving DecidableEq, Repr

structure SuiteCheckEvidence where
  id : String
  status : CheckStatus
  assertions : Nat
  failed : Nat
deriving DecidableEq, Repr

/-- Which kind of report a run opens. -/
inductive RunKind
  | correctness | security | load
deriving DecidableEq, Repr

inductive Suite
  | correctness | security
deriving DecidableEq, Repr

def Suite.kind : Suite → RunKind
  | .correctness => .correctness
  | .security => .security

structure SuiteRunEvidence where
  runId : String
  suite : Suite
  finishedAt : Time
  environmentClass : Option LoadEnvironmentClass
  checks : List SuiteCheckEvidence
deriving DecidableEq

inductive RunVerdict
  | pass | passWithWarnings | fail | inconclusive
deriving DecidableEq, Repr

structure LoadRunEvidence where
  runId : String
  profile : LoadProfile
  verdict : RunVerdict
  finishedAt : Time
  environmentClass : Option LoadEnvironmentClass
deriving DecidableEq

inductive ReviewDecision
  | approved | rejected | needsChange
deriving DecidableEq, Repr

structure ReviewRecord where
  controlId : String
  libraryVersion : String
  decision : ReviewDecision
  note : String
  reviewerLabel : String
  createdAt : Time
deriving DecidableEq

inductive ReviewStatus
  | draft
  | decided (decision : ReviewDecision)
  | staleReview
deriving DecidableEq, Repr

/-- `review` is what the review says, if there is one. -/
structure ReviewState where
  status : ReviewStatus
  review : Option ReviewRecord
deriving DecidableEq

/-- The run that an item goes by. -/
structure ItemRun where
  runId : String
  runKind : RunKind
  finishedAt : Time
  environment : Option LoadEnvironmentClass
deriving DecidableEq

inductive ItemKind
  | check | load
deriving DecidableEq, Repr

structure EvidenceItem where
  label : String
  kind : ItemKind
  subject : String
  outcome : ItemOutcome
  run : Option ItemRun
  detail : String
deriving DecidableEq

structure ControlAssessment where
  control : Control
  status : ControlStatus
  coverage : Scope
  items : List EvidenceItem
  review : ReviewState
  statement : String
deriving DecidableEq

structure FrameworkSummary where
  framework : Framework
  name : String
  note : String
  total : Nat
  byStatus : ControlStatus → Nat
  evidencedShare : ℚ
  reviewedApproved : Nat
  unverifiedReferences : Nat

inductive Basis
  | none | simulator | real | mixed
deriving DecidableEq, Repr

structure Assessment where
  libraryVersion : String
  asOf : Time
  maxAgeDays : ℚ
  basis : Basis
  controls : List ControlAssessment
  frameworks : List FrameworkSummary

def isReal : Option LoadEnvironmentClass → Bool
  | some .sandbox | some .staging | some .production => true
  | _ => false

def DAY : ℚ := 86400000

structure AssessInput where
  now : Time
  suites : List SuiteRunEvidence
  load : List LoadRunEvidence
  reviews : List ReviewRecord
  maxAgeDays : Option ℚ
  controls : List Control
  libraryVersion : Option String

/-- Older than the freshness window. -/
def isStale (now finishedAt : Time) (maxAge : ℚ) : Bool := ((now - finishedAt : Int) : ℚ) > maxAge

/-- The suites that ran a check, each with its first result that was not skipped. -/
def hitsOf (checkId : String) (suites : List SuiteRunEvidence) : List (SuiteRunEvidence × SuiteCheckEvidence) :=
  suites.filterMap fun s => (s.checks.find? fun x => x.id = checkId && x.status ≠ .skipped).map fun c => (s, c)

def checkOutcome (checkId : String) (suites : List SuiteRunEvidence) (now : Time) (maxAge : ℚ) : EvidenceItem :=
  let hits := byNewest (fun h => h.1.finishedAt) (hitsOf checkId suites)
  let real := hits.find? fun h => isReal h.1.environmentClass
  let sim := hits.find? fun h => h.1.environmentClass = some .mock
  match real.or sim with
  | none =>
    ⟨checkId, .check, checkId, .missing, none,
      "No run has executed this check (or it was skipped in every environment)."⟩
  | some (s, c) =>
    let ev : ItemRun := ⟨s.runId, s.suite.kind, s.finishedAt, s.environmentClass⟩
    if c.status ≠ .pass then
      let tail := if real.isSome then "" else " (simulator run — investigate the tooling or the simulator)"
      ⟨checkId, .check, checkId, .fail, some ev, s!"{c.failed} of {c.assertions} assertions failed{tail}."⟩
    else if real.isNone then
      ⟨checkId, .check, checkId, .simOnly, some ev,
        "Passed on the simulator only; not evidence about the real service."⟩
    else
      let stale := isStale now s.finishedAt maxAge
      let tail := if stale then " — evidence is older than the freshness window" else ""
      ⟨checkId, .check, checkId, if stale then .stale else .pass, some ev, s!"{c.assertions} assertions passed{tail}."⟩

def profileLabel : LoadProfile → String
  | .smoke => "SMOKE"
  | .load => "LOAD"
  | .stress => "STRESS"
  | .spike => "SPIKE"
  | .soak => "SOAK"
  | .breakpoint => "BREAKPOINT"

/-- The runs of the profiles that have a verdict. -/
def meaningfulOf (profiles : List LoadProfile) (load : List LoadRunEvidence) : List LoadRunEvidence :=
  load.filter fun l => l.profile ∈ profiles && l.verdict ≠ .inconclusive

def loadOutcome (profiles : List LoadProfile) (load : List LoadRunEvidence) (now : Time) (maxAge : ℚ) : EvidenceItem :=
  let subject := "/".intercalate (profiles.map profileLabel)
  let meaningful := byNewest LoadRunEvidence.finishedAt (meaningfulOf profiles load)
  let real := meaningful.find? fun l => isReal l.environmentClass
  let sim := meaningful.find? fun l => l.environmentClass = some .mock
  match real.or sim with
  | none => ⟨subject, .load, subject, .missing, none, s!"No valid {subject} run yet."⟩
  | some pick =>
    let ev : ItemRun := ⟨pick.runId, .load, pick.finishedAt, pick.environmentClass⟩
    let profile := profileLabel pick.profile
    if pick.verdict = .fail then
      ⟨subject, .load, subject, .fail, some ev, s!"The latest {profile} run missed its objectives."⟩
    else if real.isNone then ⟨subject, .load, subject, .simOnly, some ev, "Passed on the simulator only."⟩
    else
      let stale := isStale now pick.finishedAt maxAge
      let met := if pick.verdict = .pass then "met every objective" else "met its objectives with thin margins"
      let tail := if stale then " — older than the freshness window" else ""
      ⟨subject, .load, subject, if stale then .stale else .pass, some ev, s!"The latest {profile} run {met}{tail}."⟩

def statusFromItems (items : List EvidenceItem) : ControlStatus :=
  if items.isEmpty then .notTested
  else if items.any (·.outcome = .fail) then .failing
  else if items.all (·.outcome = .pass) then .evidenced
  else if items.all fun i => i.outcome = .pass || i.outcome = .stale then .evidencedStale
  else if items.any fun i => i.outcome = .pass || i.outcome = .stale then .partly
  else if items.any (·.outcome = .simOnly) then .simulatorOnly
  else .notTested

def reviewState (controlId : String) (reviews : List ReviewRecord) (version : String) : ReviewState :=
  match (byNewest ReviewRecord.createdAt (reviews.filter (·.controlId = controlId))).head? with
  | none => ⟨.draft, none⟩
  | some latest => ⟨if latest.libraryVersion = version then .decided latest.decision else .staleReview, some latest⟩

def STATEMENT (partialScope : Bool) : ControlStatus → String
  | .evidenced =>
    if partialScope then
      "Fresh evidence from the real service supports this control — within the stated limits (scope is partial)."
    else "Fresh evidence from the real service supports this control."
  | .evidencedStale =>
    "Evidence from the real service exists but is older than the freshness window — re-run before relying on it."
  | .partly =>
    "Some of the evidence this control needs is in place; the rest is missing, skipped or simulator-only."
  | .simulatorOnly =>
    "Only simulator evidence exists. It shows the tests work; it is not evidence about the real service."
  | .notTested => "No test evidence yet."
  | .failing => "A test mapped to this control FAILED. This is a defect to fix, not a documentation gap."
  | .outOfScope => "This control cannot be evidenced by load or API testing; other evidence is required."

/-- The items of one rule, one for each check or one for its profiles. -/
def ruleItems (suites : List SuiteRunEvidence) (load : List LoadRunEvidence) (now : Time) (maxAge : ℚ) :
    EvidenceRule → List EvidenceItem
  | .checks checkIds description =>
    checkIds.map fun id => { checkOutcome id suites now maxAge with label := s!"{description} ({id})" }
  | .load profiles description => [{ loadOutcome profiles load now maxAge with label := description }]

namespace AssessInput

def maxAge (i : AssessInput) : ℚ := i.maxAgeDays.getD 90 * DAY

def version (i : AssessInput) : String := i.libraryVersion.getD LIBRARY_VERSION

def items (i : AssessInput) (control : Control) : List EvidenceItem :=
  if control.scope = .outOfScope then [] else control.evidence.flatMap (ruleItems i.suites i.load i.now i.maxAge)

def status (i : AssessInput) (control : Control) : ControlStatus :=
  if control.scope = .outOfScope then .outOfScope else statusFromItems (i.items control)

def assess (i : AssessInput) (control : Control) : ControlAssessment where
  control := control
  status := i.status control
  coverage := control.scope
  items := i.items control
  review := reviewState control.id i.reviews i.version
  statement := STATEMENT (control.scope = .partialScope) (i.status control)

end AssessInput

def emptyCounts : ControlStatus → Nat := fun _ => 0

/-- `byStatus[a.status]++`. -/
def countStatus (byStatus : ControlStatus → Nat) (a : ControlAssessment) : ControlStatus → Nat :=
  Function.update byStatus a.status (byStatus a.status + 1)

def summarize (assessed : List ControlAssessment) (f : Framework) : FrameworkSummary :=
  let mine := assessed.filter (·.control.framework = f)
  let byStatus := mine.foldl countStatus emptyCounts
  let testable := mine.countP fun a => a.control.scope ≠ .outOfScope
  { framework := f
    name := f.name
    note := f.note
    total := mine.length
    byStatus := byStatus
    evidencedShare := if testable = 0 then 0 else byStatus .evidenced / testable
    reviewedApproved := mine.countP fun a => a.review.status = .decided .approved
    unverifiedReferences := mine.countP fun a => !a.control.refVerified }

def basisOf (classes : List (Option LoadEnvironmentClass)) : Basis :=
  let hasReal := classes.any isReal
  let hasSim := classes.contains (some .mock)
  if hasReal && hasSim then .mixed else if hasReal then .real else if hasSim then .simulator else .none

def assessControls (i : AssessInput) : Assessment :=
  let assessed := i.controls.map i.assess
  { libraryVersion := i.version
    asOf := i.now
    maxAgeDays := i.maxAgeDays.getD 90
    basis := basisOf (i.suites.map (·.environmentClass) ++ i.load.map (·.environmentClass))
    controls := assessed
    frameworks := FRAMEWORKS.map (summarize assessed) }

end CronMonitor.LoadTest.Compliance
