import CronMonitor.Lib.Csv
import CronMonitor.Lib.JsonAlike
import CronMonitor.LoadTest.Compliance

/-!
# The CSV exports

`incidentsToCsv` of `compliance.service.ts`, `reportToCsv` of `reports.service.ts` and `renderMatrixCsv` of the compliance
matrix. The first two put a value in quotes for a comma, a quote or LF, the third one for CR as well: so a report is read
back as it was, unless a value has a CR and none of the three others. Times are their texts.
-/

namespace CronMonitor.Reporting

open Utf16 Csv Json
open LoadTest (LoadEnvironmentClass)
open LoadTest.Compliance (Framework ControlStatus Scope ReviewStatus ItemOutcome)

variable {ν : Type} (F : NumberFormat ν)

/-! ### Cells -/

/-- `/[",\n]/`. -/
def isForced (c : UInt16) : Bool := c = QUOTE || c = COMMA || c = LF

/-- `/[",\n\r]/`. -/
def isForcedOrCr (c : UInt16) : Bool := isForced c || c = CR

/-- The string form of a value in `cell`; `undefined` is `null`. -/
def cellText : Value ν → JsString
  | .null => []
  | .str s => s
  | .num x => F.text x
  | .bool b => js (if b then "true" else "false")
  | v => compact F v

def cell (v : Value ν) : JsString := escape isForced (cellText F v)

/-- The string form of a value in `csvCell`. -/
def csvText : Value ν → JsString
  | .null => []
  | .str s => s
  | v => compact F v

/-- An apostrophe before what a spreadsheet would take for a formula: `/^[=+\-@\t\r]/`. -/
def neutralised : JsString → JsString
  | [] => []
  | c :: s => if c ∈ [0x3D, 0x2B, 0x2D, 0x40, 0x09, 0x0D] then 0x27 :: c :: s else c :: s

def csvCell (v : Value ν) : JsString := escape isForcedOrCr (neutralised (csvText F v))

def ofOption (v : Option JsString) : Value ν := v.elim .null .str

def ofNumber (v : Option ν) : Value ν := v.elim .null .num

/-! ### `incidentsToCsv` -/

structure ReportIncident (ν : Type) where
  incidentNumber : JsString
  targetName : JsString
  severity : JsString
  incidentType : JsString
  isMoneyMoving : Bool
  status : JsString
  startedAt : JsString
  resolvedAt : Option JsString
  durationSeconds : Option ν
  rootCause : Option JsString
  resolution : Option JsString

def INCIDENT_HEADER : List JsString :=
  ["incident_number", "target", "severity", "type", "money_moving", "status", "started_at", "resolved_at",
    "duration_seconds", "root_cause", "resolution"].map js

def ReportIncident.values (i : ReportIncident ν) : List (Value ν) :=
  [.str i.incidentNumber, .str i.targetName, .str i.severity, .str i.incidentType, .bool i.isMoneyMoving, .str i.status,
    .str i.startedAt, .str (i.resolvedAt.getD []), i.durationSeconds.elim (.str []) .num, .str (i.rootCause.getD []),
    .str (i.resolution.getD [])]

/-- Of the report the incidents. -/
def incidentsToCsv (incidents : List (ReportIncident ν)) : JsString :=
  let lines := incidents.map fun i => join (i.values.map (cell F))
  [LF].intercalate (join INCIDENT_HEADER :: lines)

/-! ### `reportToCsv` -/

/-- The members of an object, in their order. -/
abbrev Row (ν : Type) := List (JsString × Value ν)

structure TargetPerfRow (ν : Type) where
  apiId : JsString
  targetName : JsString
  endpointClass : JsString
  isMoneyMoving : Bool
  checks : ν
  failed : ν
  errorRatePct : Option ν
  uptimePercent : Option ν
  avgMs : Option ν
  p95Ms : Option ν

def TargetPerfRow.row (r : TargetPerfRow ν) : Row ν :=
  [(js "apiId", .str r.apiId), (js "targetName", .str r.targetName), (js "endpointClass", .str r.endpointClass),
    (js "isMoneyMoving", .bool r.isMoneyMoving), (js "checks", .num r.checks), (js "failed", .num r.failed),
    (js "errorRatePct", ofNumber r.errorRatePct), (js "uptimePercent", ofNumber r.uptimePercent),
    (js "avgMs", ofNumber r.avgMs), (js "p95Ms", ofNumber r.p95Ms)]

structure FailureDetail (ν : Type) where
  category : JsString
  subtype : JsString
  failureType : Option JsString
  httpStatus : Option ν
  targetName : JsString
  count : ν

def FailureDetail.row (r : FailureDetail ν) : Row ν :=
  [(js "category", .str r.category), (js "subtype", .str r.subtype), (js "failureType", ofOption r.failureType),
    (js "httpStatus", ofNumber r.httpStatus), (js "targetName", .str r.targetName), (js "count", .num r.count)]

/-- What `mapIncident` makes of an incident. -/
structure MappedIncident (ν : Type) where
  incidentNumber : JsString
  targetName : JsString
  severity : JsString
  type : JsString
  moneyMoving : Bool
  status : JsString
  startedAt : JsString
  resolvedAt : Option JsString
  durationSeconds : Option ν
  failureType : Option JsString
  rcaCategory : Option JsString
  rootCause : Option JsString
  resolution : Option JsString

def MappedIncident.row (r : MappedIncident ν) : Row ν :=
  [(js "incidentNumber", .str r.incidentNumber), (js "targetName", .str r.targetName), (js "severity", .str r.severity),
    (js "type", .str r.type), (js "moneyMoving", .bool r.moneyMoving), (js "status", .str r.status),
    (js "startedAt", .str r.startedAt), (js "resolvedAt", ofOption r.resolvedAt),
    (js "durationSeconds", ofNumber r.durationSeconds), (js "failureType", ofOption r.failureType),
    (js "rcaCategory", ofOption r.rcaCategory), (js "rootCause", ofOption r.rootCause),
    (js "resolution", ofOption r.resolution)]

structure LatencyDay (ν : Type) where
  targetName : JsString
  day : JsString
  p50 : ν
  p90 : ν
  p95 : ν
  p99 : ν
  samples : ν

def LatencyDay.row (r : LatencyDay ν) : Row ν :=
  [(js "targetName", .str r.targetName), (js "day", .str r.day), (js "p50", .num r.p50), (js "p90", .num r.p90),
    (js "p95", .num r.p95), (js "p99", .num r.p99), (js "samples", .num r.samples)]

structure AuthFailures (ν : Type) where
  targetName : JsString
  count : ν

def AuthFailures.row (r : AuthFailures ν) : Row ν := [(js "targetName", .str r.targetName), (js "count", .num r.count)]

structure ProblemService (ν : Type) where
  service : JsString
  uptimePercent : Option ν
  errorRatePercent : Option ν
  moneyMoving : Bool

def ProblemService.row (r : ProblemService ν) : Row ν :=
  [(js "service", .str r.service), (js "uptimePercent", ofNumber r.uptimePercent),
    (js "errorRatePercent", ofNumber r.errorRatePercent), (js "moneyMoving", .bool r.moneyMoving)]

inductive ReportType
  | systemHealth | apiPerformance | failure | incident | dependency | latency | security | executive
deriving DecidableEq, Repr

/-- A report, with the table of its data that is written. -/
inductive Report (ν : Type)
  | systemHealth (services : List (TargetPerfRow ν))
  | apiPerformance (data : List (TargetPerfRow ν))
  | failure (detail : List (FailureDetail ν))
  | incident (incidents : List (MappedIncident ν))
  | dependency (incidents : List (MappedIncident ν))
  | latency (daily : List (LatencyDay ν))
  | security (authFailuresByService : List (AuthFailures ν))
  | executive (topProblemServices : List (ProblemService ν))

def Report.type : Report ν → ReportType
  | .systemHealth _ => .systemHealth
  | .apiPerformance _ => .apiPerformance
  | .failure _ => .failure
  | .incident _ => .incident
  | .dependency _ => .dependency
  | .latency _ => .latency
  | .security _ => .security
  | .executive _ => .executive

def Report.rows : Report ν → List (Row ν)
  | .systemHealth services => services.map (·.row)
  | .apiPerformance data => data.map (·.row)
  | .failure detail => detail.map (·.row)
  | .incident incidents => incidents.map (·.row)
  | .dependency incidents => incidents.map (·.row)
  | .latency daily => daily.map (·.row)
  | .security authFailuresByService => authFailuresByService.map (·.row)
  | .executive topProblemServices => topProblemServices.map (·.row)

/-- `row[key]`. -/
def Row.get (row : Row ν) (key : JsString) : Value ν := ((row.find? (·.1 = key)).map Prod.snd).getD .null

def reportToCsv (report : Report ν) : JsString :=
  match report.rows with
  | [] => js "no rows"
  | first :: rest =>
    let headers := first.map Prod.fst
    let lines := (first :: rest).map fun r => join (headers.map fun h => cell F (Row.get r h))
    [LF].intercalate (join headers :: lines)

/-! ### `renderMatrixCsv` -/

def short : Framework → String
  | .pciDss401 => "PCI DSS"
  | .owaspApi2023 => "OWASP API"
  | .bog => "Bank of Ghana"
  | .ghDpa843 => "Data protection"

/-- `STATUS_LABEL`. -/
def statusLabel : ControlStatus → String
  | .evidenced => "Evidenced"
  | .evidencedStale => "Evidenced (stale)"
  | .partly => "Partial"
  | .simulatorOnly => "Simulator only"
  | .notTested => "Not tested"
  | .failing => "Failing"
  | .outOfScope => "Needs other evidence"

def REVIEW_LABEL : ReviewStatus → String
  | .draft => "Draft — awaiting review"
  | .decided .approved => "Reviewed and approved"
  | .decided .rejected => "Rejected by reviewer"
  | .decided .needsChange => "Reviewer asked for changes"
  | .staleReview => "Review is for an older library version"

def coverageText : Scope → String
  | .testable => "testable"
  | .partialScope => "partial"
  | .outOfScope => "out_of_scope"

def outcomeText : ItemOutcome → String
  | .pass => "PASS"
  | .stale => "STALE"
  | .simOnly => "SIM_ONLY"
  | .missing => "MISSING"
  | .fail => "FAIL"

structure MatrixRun where
  runId : JsString
  environment : Option LoadEnvironmentClass
  finishedAt : JsString

structure MatrixItem where
  outcome : ItemOutcome
  subject : JsString
  run : Option MatrixRun

/-- A control's assessment, as far as its row goes. -/
structure MatrixControl where
  framework : Framework
  id : JsString
  ref : JsString
  refVerified : Bool
  title : JsString
  status : ControlStatus
  coverage : Scope
  reviewStatus : ReviewStatus
  reviewer : Option JsString
  reviewedAt : Option JsString
  statement : JsString
  items : List MatrixItem
  limitation : JsString
  howToCover : Option JsString

/-- An assessment goes through the controls of the library. -/
structure Assessment where
  controls : List MatrixControl
  controls_ne : controls ≠ []

def MatrixItem.summary (i : MatrixItem) : JsString :=
  js (outcomeText i.outcome) ++ js ": " ++ i.subject ++
    match i.run with
    | none => []
    | some run =>
      if run.runId = [] then []
      else
        js " (run " ++ run.runId.take 8 ++ js ", " ++ js (run.environment.elim "?" (·.label)) ++ js ", " ++
          run.finishedAt.take 10 ++ js ")"

def evidenceSummary (c : MatrixControl) : JsString := (js "; ").intercalate (c.items.map (·.summary))

/-- A row of the table `Controls`. -/
def MatrixControl.row (c : MatrixControl) : Row ν :=
  [(js "framework", .str (js (short c.framework))), (js "id", .str c.id), (js "reference", .str c.ref),
    (js "referenceVerified", .str (js (if c.refVerified then "yes" else "NO — confirm with compliance owner"))),
    (js "control", .str c.title), (js "status", .str (js (statusLabel c.status))),
    (js "coverage", .str (js (coverageText c.coverage))), (js "review", .str (js (REVIEW_LABEL c.reviewStatus))),
    (js "reviewer", .str (c.reviewer.getD [])), (js "reviewedAt", .str (c.reviewedAt.getD [])),
    (js "whatTheEvidenceSays", .str c.statement), (js "evidence", .str (evidenceSummary c)),
    (js "limitation", .str c.limitation), (js "howToCover", .str (c.howToCover.getD []))]

def controlRows (a : Assessment) : List (Row ν) := a.controls.map (·.row)

def renderMatrixCsv (a : Assessment) : JsString :=
  let rows : List (Row ν) := controlRows a
  let headers := (rows.headD []).map Prod.fst
  [LF].intercalate (join headers :: rows.map fun r => join (headers.map fun h => csvCell F (Row.get r h)))

end CronMonitor.Reporting
