import CronMonitor.LoadTest.Domain
import CronMonitor.Lib.Text

/-!
# The verdict on a run

`load-slo.ts`: the aggregated numbers of a finished run become graded checks and one verdict. A plan's `slo` is a field
of its config; the plans of the other modules carry none, so it is passed beside them. The plain and the en-US text of a
number are parameters.
-/

namespace CronMonitor.LoadTest

structure NumberTexts where
  plain : ℚ → String
  locale : ℚ → String

structure SloTargets where
  p95Ms : ℚ
  p99Ms : ℚ
  maxServerErrorRate : ℚ
  minThroughputRatio : ℚ
  maxRateLimitedShare : ℚ
  maxClientErrorShare : ℚ
  requiredCapacityRps : Option ℚ
deriving DecidableEq

/-- `config.slo`: the objectives that a plan sets itself. -/
structure SloOverrides where
  p95Ms : Option ℚ
  p99Ms : Option ℚ
  maxServerErrorRate : Option ℚ
  minThroughputRatio : Option ℚ
  maxRateLimitedShare : Option ℚ
  maxClientErrorShare : Option ℚ
  requiredCapacityRps : Option (Option ℚ)
  p95Ms_ok : ∀ x ∈ p95Ms, 0 < x ∧ x ≤ 600000
  p99Ms_ok : ∀ x ∈ p99Ms, 0 < x ∧ x ≤ 600000
  maxServerErrorRate_ok : ∀ x ∈ maxServerErrorRate, 0 ≤ x ∧ x ≤ 1
  minThroughputRatio_ok : ∀ x ∈ minThroughputRatio, 1 / 10 ≤ x ∧ x ≤ 1
  maxRateLimitedShare_ok : ∀ x ∈ maxRateLimitedShare, 0 ≤ x ∧ x ≤ 1
  maxClientErrorShare_ok : ∀ x ∈ maxClientErrorShare, 0 ≤ x ∧ x ≤ 1
  requiredCapacityRps_ok : ∀ x ∈ requiredCapacityRps, ∀ r ∈ x, 0 < r

inductive SloStatus
  | pass | warn | fail | info
deriving DecidableEq, Repr

inductive RunVerdict
  | pass | passWithWarnings | fail | inconclusive
deriving DecidableEq, Repr

structure SloCheck where
  id : String
  name : String
  target : String
  actual : String
  status : SloStatus
  why : String
deriving DecidableEq, Repr

structure SloEvaluation where
  checks : List SloCheck
  verdict : RunVerdict
  reason : String
  expectedRequests : Nat
deriving DecidableEq, Repr

def defaultSlo (cfg : PlanConfig) : SloTargets :=
  let batch := cfg.fanout > 1
  let write := cfg.method ≠ .get ∨ cfg.moneyMoving
  { p95Ms := if batch then 4000 else if write then 2000 else 800
    p99Ms := if batch then 8000 else if write then 4000 else 1500
    maxServerErrorRate := 1 / 100
    minThroughputRatio := 9 / 10
    maxRateLimitedShare := 5 / 100
    maxClientErrorShare := 1 / 100
    requiredCapacityRps := none }

def resolveSlo (cfg : PlanConfig) (slo : Option SloOverrides) : SloTargets :=
  let d := defaultSlo cfg
  match slo with
  | none => d
  | some o =>
    { p95Ms := o.p95Ms.getD d.p95Ms
      p99Ms := o.p99Ms.getD d.p99Ms
      maxServerErrorRate := o.maxServerErrorRate.getD d.maxServerErrorRate
      minThroughputRatio := o.minThroughputRatio.getD d.minThroughputRatio
      maxRateLimitedShare := o.maxRateLimitedShare.getD d.maxRateLimitedShare
      maxClientErrorShare := o.maxClientErrorShare.getD d.maxClientErrorShare
      requiredCapacityRps := o.requiredCapacityRps.getD d.requiredCapacityRps }

/-- The area under the stages that ramp up from `prev`. -/
def rampArea (prev : Nat) : List Stage → ℚ
  | [] => 0
  | s :: rest => s.durationSeconds * (prev + s.target) / 2 + rampArea s.target rest

theorem rampArea_nonneg (prev : Nat) (stages : List Stage) : 0 ≤ rampArea prev stages := by
  induction stages generalizing prev with
  | nil => exact le_rfl
  | cons s rest ih =>
    have hstage : (0 : ℚ) ≤ s.durationSeconds * (prev + s.target) / 2 := by positivity
    exact add_nonneg hstage (ih s.target)

/-- `Math.round` of a number. -/
def mathRound (x : ℚ) : Int := ⌊x + 1 / 2⌋

/-- The requests that the load shape should have produced. -/
def expectedRequests (cfg : PlanConfig) : Nat := (mathRound (rampArea 0 (buildStages cfg))).toNat

section Texts
variable (texts : NumberTexts)

def pct (n : ℚ) : String :=
  Text.stripZeros (Text.toFixed texts.plain (if 0 < n ∧ n < 1 / 1000 then 3 else 2) (n * 100)) ++ "%"

def plainDuration (ms : ℚ) : String :=
  if ms < 1000 then texts.plain (mathRound ms) ++ " ms"
  else if ms / 1000 < 10 then Text.toFixed texts.plain 1 (ms / 1000) ++ " seconds"
  else texts.plain (mathRound (ms / 1000)) ++ " seconds"

end Texts

def grade (value limit warnFactor : ℚ) : SloStatus :=
  if value ≤ limit then .pass else if value ≤ limit * warnFactor then .warn else .fail

/-- What reaches `good` passes, what reaches `fair` is a warning. -/
def gradeUp (value good fair : ℚ) : SloStatus := if value ≥ good then .pass else if value ≥ fair then .warn else .fail

/-- What stays under `good` passes, what stays under `fair` is a warning. -/
def gradeDown (value good fair : ℚ) : SloStatus :=
  if value ≤ good then .pass else if value ≤ fair then .warn else .fail

/-- The profiles that look for the limit of the service. -/
def LoadProfile.seeksLimit (p : LoadProfile) : Bool := p = .stress || p = .breakpoint

def graded (limitProfile : Bool) (s : SloStatus) : SloStatus := if limitProfile && s ≠ .pass then .info else s

namespace RunSummary

/-- A count as a share of the requests, of which there is at least one. -/
def share (n : RunSummary) (count : Nat) : ℚ := count / (max 1 n.totalRequests : Nat)

def serverErr (n : RunSummary) : ℚ := n.share (n.errorClasses.server5xx + n.errorClasses.networkOrTimeout)

def clientErr (n : RunSummary) : ℚ := n.share (n.errorClasses.client4xx + n.errorClasses.unexpectedOther)

def limited (n : RunSummary) : ℚ := n.share n.errorClasses.rateLimited429

def count401 (n : RunSummary) : Nat := (n.statusCounts.lookup "401").getD 0

def auth401 (n : RunSummary) : ℚ := n.share n.count401

def ratio (n : RunSummary) (expected : Nat) : ℚ := if expected > 0 then n.totalRequests / expected else 1

end RunSummary

section Checks
variable (texts : NumberTexts) (n : RunSummary)

def generatorCheck : SloCheck where
  id := "generator"
  name := "Test tool kept up"
  target := "no dropped iterations"
  actual := if n.droppedIterations = 0 then "none dropped" else texts.plain n.droppedIterations ++ " dropped"
  status := if n.generatorSaturated then .fail else .pass
  why :=
    if n.generatorSaturated then
      "The machine generating the load could not keep up, so the result says more about the test machine than the " ++
        "service. Re-run with more capacity."
    else "The load generator delivered every request on schedule, so the numbers can be trusted."

def p95Check (limitProfile : Bool) (limit : ℚ) : SloCheck :=
  let value := plainDuration texts n.latencyMs.p95
  let target := plainDuration texts limit
  { id := "p95"
    name := "Typical-worst response time (P95)"
    target := s!"≤ {target}"
    actual := value
    status := graded limitProfile (grade n.latencyMs.p95 limit (125 / 100))
    why := s!"95 out of 100 customers were served within {value}" ++
      if n.latencyMs.p95 ≤ limit then ", inside the target." else s!", slower than the {target} target." }

def p99Check (limitProfile : Bool) (limit : ℚ) : SloCheck :=
  let value := plainDuration texts n.latencyMs.p99
  let target := plainDuration texts limit
  { id := "p99"
    name := "Worst-case response time (P99)"
    target := s!"≤ {target}"
    actual := value
    status := graded limitProfile (grade n.latencyMs.p99 limit (125 / 100))
    why := s!"The slowest 1 in 100 requests took {value}" ++
      if n.latencyMs.p99 ≤ limit then ", within the target." else s!", beyond the {target} target." }

def serverErrorsCheck (limitProfile : Bool) (limit : ℚ) : SloCheck :=
  let value := pct texts n.serverErr
  { id := "server-errors"
    name := "Service failures (5xx, timeouts)"
    target := "≤ " ++ pct texts limit
    actual := value
    status := graded limitProfile (grade n.serverErr limit 2)
    why :=
      if n.serverErr = 0 then "The service did not fail a single request."
      else s!"{value} of requests failed on the service side — customers would have seen an error." }

def clientErrorsCheck (limitProfile : Bool) (limit : ℚ) : SloCheck :=
  let value := pct texts n.clientErr
  { id := "client-errors"
    name := "Valid requests refused (unexpected 4xx)"
    target := "≤ " ++ pct texts limit
    actual := value
    status := graded limitProfile (grade n.clientErr limit 3)
    why :=
      if n.clientErr = 0 then "Every valid request was accepted."
      else s!"{value} of valid requests were refused (limits, validation or permissions), " ++
        "which would block real customers." }

def rateLimitedCheck (limitProfile : Bool) (limit : ℚ) : SloCheck :=
  let value := pct texts n.limited
  { id := "rate-limited"
    name := "Throttled requests (429)"
    target := "≤ " ++ pct texts limit
    actual := value
    status := graded limitProfile (gradeDown n.limited limit (1 / 2))
    why :=
      if n.limited = 0 then "No request was throttled."
      else s!"{value} of requests were throttled; at this volume the service asks callers to slow down." }

def throughputCheck (limitProfile : Bool) (limit : ℚ) (expected : Nat) : SloCheck :=
  let ratio := n.ratio expected
  let value := pct texts ratio
  let made := texts.locale n.totalRequests
  let planned := texts.locale expected
  { id := "throughput"
    name := "Delivered the planned load"
    target := "≥ " ++ pct texts limit ++ " of planned requests"
    actual := s!"{value} ({made} of {planned})"
    status := graded limitProfile (gradeUp ratio limit (75 / 100))
    why :=
      if ratio ≥ limit then "The test sent as much traffic as it was designed to."
      else "Fewer requests completed than planned, so the service (or the test) could not sustain the intended volume." }

def authCheck : SloCheck where
  id := "auth"
  name := "Authentication held for the whole run"
  target := "≈ 0 token rejections"
  actual := pct texts n.auth401
  status := gradeDown n.auth401 (1 / 1000) (1 / 100)
  why :=
    if n.auth401 ≤ 1 / 1000 then "Tokens were refreshed in time; no request was rejected for an expired credential."
    else "Some requests were rejected because their token expired mid-run; a real client would need to refresh earlier."

def capacityCheck (required : Option ℚ) : SloCheck :=
  let sustained := texts.plain n.maxSustainedRps
  let peak := texts.plain n.peakRps
  let actual := s!"{sustained} requests/s sustained (peak {peak})"
  match required with
  | none =>
    { id := "capacity", name := "Sustained capacity", target := "discover the limit", actual := actual, status := .info
      why := s!"The service held {sustained} requests/s with under 1% errors before it degraded." }
  | some required =>
    let wanted := texts.plain required
    { id := "capacity", name := "Sustained capacity", target := s!"≥ {wanted} requests/s", actual := actual
      status := gradeUp n.maxSustainedRps required (required * (8 / 10))
      why :=
        if n.maxSustainedRps ≥ required then
          s!"The service held {sustained} requests/s with under 1% errors, above the {wanted} required."
        else s!"The service only held {sustained} requests/s cleanly, below the {wanted} required." }

def sloChecks (limitProfile : Bool) (slo : SloTargets) (expected : Nat) : List SloCheck :=
  [generatorCheck texts n, p95Check texts n limitProfile slo.p95Ms, p99Check texts n limitProfile slo.p99Ms,
    serverErrorsCheck texts n limitProfile slo.maxServerErrorRate,
    clientErrorsCheck texts n limitProfile slo.maxClientErrorShare,
    rateLimitedCheck texts n limitProfile slo.maxRateLimitedShare,
    throughputCheck texts n limitProfile slo.minThroughputRatio expected, authCheck texts n] ++
  if limitProfile || slo.requiredCapacityRps.isSome then [capacityCheck texts n slo.requiredCapacityRps] else []

end Checks

/-! ### The reason of a stopped run -/

/-- What follows at least one digit. -/
def digitsThen (s : List Char) : Option (List Char) :=
  if s.head?.any Char.isDigit then some (s.dropWhile Char.isDigit) else none

/-- `/^\d+(\.\d+)?% of \d+ requests were rate limited/`. -/
def isRateLimitedText (s : List Char) : Bool :=
  let share := (digitsThen s).bind fun rest =>
    match rest with
    | '.' :: rest => digitsThen rest
    | rest => some rest
  let count := share.bind fun rest => if "% of ".toList <+: rest then digitsThen (rest.drop 5) else none
  count.any fun rest => " requests were rate limited".toList <+: rest

/-- `/^guardrail: (server failure rate|\d+(\.\d+)?% of \d+ requests were rate limited)/`. -/
def isGuardrailFail (reason : String) : Bool :=
  "guardrail: ".toList <+: reason.toList &&
    (decide ("server failure rate".toList <+: reason.toList.drop 11) || isRateLimitedText (reason.toList.drop 11))

/-! ### The verdict -/

structure EvaluateInput where
  config : PlanConfig
  slo : Option SloOverrides
  numbers : Option RunSummary
  runStatus : LoadRunStatus
  finishedReason : Option String

def evaluateRunSlo (texts : NumberTexts) (input : EvaluateInput) : SloEvaluation :=
  let slo := resolveSlo input.config input.slo
  let expected := expectedRequests input.config
  let failed : SloEvaluation :=
    ⟨[], .inconclusive, "The test itself failed to run, so nothing can be said about the service.", expected⟩
  match input.numbers with
  | none => failed
  | some numbers =>
    if input.runStatus = .failed then failed
    else if input.runStatus ≠ .completed then
      let reason := input.finishedReason.getD "The run did not finish."
      if isGuardrailFail reason then
        let rest := String.ofList (reason.toList.drop 11)
        ⟨[], .fail, s!"The service began failing under load and the safety guardrail stopped the test ({rest}).",
          expected⟩
      else
        ⟨[], .inconclusive,
          s!"The run was stopped before completion ({reason}), so it is not a valid measurement.", expected⟩
    else
      let checks := sloChecks texts numbers input.config.profile.seeksLimit slo expected
      let fails := (checks.filter (·.status = .fail)).map (·.name.toLower)
      let warns := (checks.filter (·.status = .warn)).map (·.name.toLower)
      if numbers.generatorSaturated then
        ⟨checks, .inconclusive,
          "The load generator could not keep up, so this run does not prove anything about the service.", expected⟩
      else if fails.length > 0 then
        let plural := if fails.length > 1 then "s" else ""
        let list := ", ".intercalate fails
        ⟨checks, .fail, s!"Missed {fails.length} objective{plural}: {list}.", expected⟩
      else if warns.length > 0 then
        let list := ", ".intercalate warns
        ⟨checks, .passWithWarnings, s!"Met the objectives with thin margins on: {list}.", expected⟩
      else ⟨checks, .pass, "Met every objective.", expected⟩

end CronMonitor.LoadTest
