import CronMonitor.LoadTest.Domain
import CronMonitor.Lib.OrderedMap

/-!
# The metrics of a run

`metrics-aggregator.ts`: the samples of k6 go into five-second buckets, which are drained from time to time into
`load_test_metrics` (`insertMetrics`), and into the totals of the run. A line of k6 is what `JSON.parse` makes of it;
k6 stamps every sample with a valid time. The scale of the latency histogram rests on `Math.log` and `Math.pow` and is a
parameter.
-/

namespace CronMonitor.LoadTest

/-- `Number` of a text: `none` is NaN. -/
abbrev Number := Option Int

/-- `String(n)`. -/
def Number.text : Number → String
  | none => "NaN"
  | some n => toString n

/-- `n >= bound`. -/
def Number.atLeast (bound : Int) : Number → Bool
  | none => false
  | some n => bound ≤ n

/-- The three tags that are read. -/
structure Tags where
  phase : Option String
  status : Option Number
  expectedResponse : Option String
deriving DecidableEq

structure Point where
  time : Time
  value : ℚ
  tags : Tags
deriving DecidableEq

/-- One line of k6: whether the text `"type":"Point"` is in it, and the type, the metric and the point of its JSON. -/
structure K6Line where
  marked : Bool
  json : Option (String × String × Point)
deriving DecidableEq

def parseK6Line (line : K6Line) : Option (String × Point) :=
  if !line.marked then none
  else line.json.bind fun o => if o.1 ≠ "Point" then none else some o.2

/-! ### The latency histogram -/

structure LogScale where
  index : ℚ → Int
  value : Int → ℚ

structure LogHistogram where
  counts : OrderedMap Int Nat
  count : Nat
  sum : ℚ
  max : ℚ

namespace LogHistogram

def empty : LogHistogram := ⟨.empty, 0, 0, 0⟩

def record (scale : LogScale) (h : LogHistogram) (ms : ℚ) : LogHistogram :=
  if ms < 0 then h
  else
    let i := scale.index ms
    ⟨h.counts.set i ((h.counts.get? i).getD 0 + 1), h.count + 1, h.sum + ms, if ms > h.max then ms else h.max⟩

/-- The bucket in which the `rank`-th sample lies. -/
def reach (rank : Int) : Nat → List (Int × Nat) → Option Int
  | _, [] => none
  | seen, (index, n) :: rest => if (seen + n : Nat) ≥ rank then some index else reach rank (seen + n) rest

def quantile (scale : LogScale) (h : LogHistogram) (q : ℚ) : ℚ :=
  if h.count = 0 then 0
  else
    match reach ⌈q * h.count⌉ 0 (h.counts.entries.insertionSort (·.1 ≤ ·.1)) with
    | some index => min (scale.value index) h.max
    | none => h.max

def avg (h : LogHistogram) : ℚ := if h.count = 0 then 0 else h.sum / h.count

end LogHistogram

/-! ### Buckets -/

/-- What a bucket and the whole run count. -/
structure Counts where
  requests : Nat
  failures : Nat
  statusCounts : OrderedMap String Nat

def Counts.zero : Counts := ⟨0, 0, .empty⟩

def Counts.ofStatus (c : Counts) (key : String) : Nat := (c.statusCounts.get? key).getD 0

def Counts.add (c : Counts) (key : String) (expected : Bool) : Counts where
  requests := c.requests + 1
  failures := if expected then c.failures else c.failures + 1
  statusCounts := c.statusCounts.set key (c.ofStatus key + 1)

structure Open extends Counts where
  hist : LogHistogram

def Open.empty : Open := ⟨.zero, .empty⟩

structure BucketRow extends Counts where
  bucketStart : Time
  rps : ℚ
  avgMs : ℚ
  p50Ms : ℚ
  p95Ms : ℚ
  p99Ms : ℚ
  maxMs : ℚ

def BUCKET_MS : Int := 5000

def bucketKey (time : Time) : Time := time / BUCKET_MS * BUCKET_MS

/-- `Math.round(n * 100) / 100`. -/
def round (n : ℚ) : ℚ := ⌊n * 100 + 1 / 2⌋ / 100

def bucketRow (scale : LogScale) (start : Time) (b : Open) : BucketRow where
  toCounts := b.toCounts
  bucketStart := start
  rps := round (b.requests / (BUCKET_MS / 1000))
  avgMs := round b.hist.avg
  p50Ms := round (b.hist.quantile scale (50 / 100))
  p95Ms := round (b.hist.quantile scale (95 / 100))
  p99Ms := round (b.hist.quantile scale (99 / 100))
  maxMs := round b.hist.max

/-! ### The aggregator -/

structure Second where
  total : Nat
  serverFailures : Nat
  authRefusals : Nat
  rateLimited : Nat
deriving DecidableEq

structure HistoryEntry where
  rps : ℚ
  errorRate : ℚ

/-- `firstMs` is `none` for infinity. -/
structure RunAggregator where
  opened : OrderedMap Time Open
  overall : LogHistogram
  statusCounts : OrderedMap String Nat
  classes : ErrorClasses
  total : Nat
  failed : Nat
  dropped : ℚ
  auth : Nat
  perSecond : OrderedMap Int Second
  bucketHistory : List HistoryEntry
  peakSecond : Nat
  firstMs : Option Time
  lastMs : Time

def isServerFailure (status : Number) : Bool := status = some 0 || status.atLeast 500

def ErrorClasses.count (c : ErrorClasses) (status : Number) : ErrorClasses :=
  if status = some 0 then { c with networkOrTimeout := c.networkOrTimeout + 1 }
  else if status.atLeast 500 then { c with server5xx := c.server5xx + 1 }
  else if status = some 429 then { c with rateLimited429 := c.rateLimited429 + 1 }
  else if status.atLeast 400 then { c with client4xx := c.client4xx + 1 }
  else { c with unexpectedOther := c.unexpectedOther + 1 }

def ErrorClasses.sum (c : ErrorClasses) : Nat :=
  c.server5xx + c.rateLimited429 + c.client4xx + c.networkOrTimeout + c.unexpectedOther

def Second.count (s : Second) (status : Number) : Second where
  total := s.total + 1
  serverFailures := if isServerFailure status then s.serverFailures + 1 else s.serverFailures
  authRefusals := if status = some 401 ∨ status = some 403 then s.authRefusals + 1 else s.authRefusals
  rateLimited := if status = some 429 then s.rateLimited + 1 else s.rateLimited

namespace RunAggregator

def new : RunAggregator :=
  ⟨.empty, .empty, .empty, ⟨0, 0, 0, 0, 0⟩, 0, 0, 0, 0, .empty, [], 0, none, 0⟩

def record (scale : LogScale) (a : RunAggregator) (time : Time) (ms : ℚ) (status : Number) (expected : Bool) :
    RunAggregator :=
  let key := bucketKey time
  let b := (a.opened.get? key).getD .empty
  let all := (⟨a.total, a.failed, a.statusCounts⟩ : Counts).add status.text expected
  let sec := time / 1000
  let s := ((a.perSecond.get? sec).getD ⟨0, 0, 0, 0⟩).count status
  { a with
    total := all.requests
    failed := all.failures
    statusCounts := all.statusCounts
    firstMs := some (a.firstMs.elim time (min · time))
    lastMs := max a.lastMs time
    opened := a.opened.set key ⟨b.toCounts.add status.text expected, b.hist.record scale ms⟩
    overall := a.overall.record scale ms
    classes := if expected then a.classes else a.classes.count status
    perSecond := a.perSecond.set sec s
    peakSecond := if s.total > a.peakSecond then s.total else a.peakSecond }

/-- The aggregator, and whether the line contributed a sample. -/
def feed (scale : LogScale) (a : RunAggregator) (line : K6Line) : RunAggregator × Bool :=
  match parseK6Line line with
  | none => (a, false)
  | some (metric, point) =>
    if metric = "dropped_iterations" then ({ a with dropped := a.dropped + point.value }, true)
    else if metric ≠ "http_req_duration" then (a, false)
    else if point.tags.phase = some "auth" then ({ a with auth := a.auth + 1 }, true)
    else
      (a.record scale point.time point.value (point.tags.status.getD (some 0))
        (point.tags.expectedResponse ≠ some "false"), true)

/-- `start + BUCKET_MS <= beforeMs`; no bound is infinity. -/
def isOver (beforeMs : Option Time) (start : Time) : Bool := beforeMs.all (start + BUCKET_MS ≤ ·)

def drain (scale : LogScale) (a : RunAggregator) (beforeMs : Option Time) : RunAggregator × List BucketRow :=
  let closed := (a.opened.entries.filter (isOver beforeMs ·.1)).insertionSort (·.1 ≤ ·.1)
  ({ a with
      opened := a.opened.filter fun start => !isOver beforeMs start
      bucketHistory := a.bucketHistory ++ closed.map fun e =>
        ⟨e.2.requests / (BUCKET_MS / 1000), if e.2.requests = 0 then 0 else e.2.failures / e.2.requests⟩ },
    closed.map fun e => bucketRow scale e.1 e.2)

def summary (scale : LogScale) (a : RunAggregator) : RunSummary :=
  let activeSeconds : ℚ := if a.total = 0 then 0 else max 1 ((a.lastMs - a.firstMs.getD a.lastMs) / 1000)
  let sustained := ((a.bucketHistory.filter (·.errorRate ≤ 1 / 100)).map (·.rps)).foldl max 0
  { totalRequests := a.total
    failedRequests := a.failed
    errorRate := if a.total = 0 then 0 else a.failed / a.total
    statusCounts := a.statusCounts.entries
    errorClasses := a.classes
    latencyMs :=
      { avg := round a.overall.avg
        p50 := round (a.overall.quantile scale (50 / 100))
        p90 := round (a.overall.quantile scale (90 / 100))
        p95 := round (a.overall.quantile scale (95 / 100))
        p99 := round (a.overall.quantile scale (99 / 100))
        max := round a.overall.max }
    achievedAvgRps := round (if activeSeconds = 0 then 0 else a.total / activeSeconds)
    peakRps := a.peakSecond
    maxSustainedRps := round sustained
    droppedIterations := a.dropped
    generatorSaturated := a.dropped > 0
    authRequests := a.auth
    activeSeconds := round activeSeconds }

end RunAggregator

/-! ### The guardrail -/

inductive GuardrailKind
  | serverFailures | authRefused | rateLimited
deriving DecidableEq, Repr

structure GuardrailOptions where
  windowSeconds : Nat
  maxErrorRate : ℚ
  minSamples : Nat
  maxRefusalRate : Option ℚ
  maxRateLimitedRate : Option ℚ

structure GuardrailResult where
  breach : Bool
  kind : Option GuardrailKind
  total : Nat
  errorRate : ℚ
  refusalRate : ℚ
  rateLimitedRate : ℚ

/-- Judges the trailing window that ends at `nowMs`, and forgets the seconds that can never matter again. -/
def RunAggregator.guardrail (a : RunAggregator) (nowMs : Time) (opts : GuardrailOptions) :
    RunAggregator × GuardrailResult :=
  let last := nowMs / 1000
  let window := (List.range opts.windowSeconds).filterMap fun i => a.perSecond.get? (last - opts.windowSeconds + 1 + i)
  let total := (window.map (·.total)).sum
  let rate : Nat → ℚ := fun n => if total = 0 then 0 else n / total
  let server := rate (window.map (·.serverFailures)).sum
  let refused := rate (window.map (·.authRefusals)).sum
  let limited := rate (window.map (·.rateLimited)).sum
  let enough := total ≥ opts.minSamples
  let kind :=
    if enough ∧ refused > opts.maxRefusalRate.getD (1 / 2) then some GuardrailKind.authRefused
    else if enough ∧ limited > opts.maxRateLimitedRate.getD (1 / 2) then some .rateLimited
    else if enough ∧ server > opts.maxErrorRate then some .serverFailures
    else none
  ({ a with perSecond := a.perSecond.filter fun s => !(s < last - opts.windowSeconds - 5) },
    ⟨kind.isSome, kind, total, server, refused, limited⟩)

/-! ### `load_test_metrics` -/

/-- The rows with the run they belong to. -/
abbrev MetricTable := List (Uuid × BucketRow)

/-- `INSERT … ON CONFLICT (run_id, bucket_start) DO NOTHING`. -/
def insertMetric (runId : Uuid) (table : MetricTable) (r : BucketRow) : MetricTable :=
  if table.any fun x => x.1 = runId && x.2.bucketStart = r.bucketStart then table else table ++ [(runId, r)]

def insertMetrics (runId : Uuid) (table : MetricTable) (rows : List BucketRow) : MetricTable :=
  rows.foldl (insertMetric runId) table

/-- `drained` is an observation: every row that was passed to `insertMetrics`. -/
structure Metering where
  agg : RunAggregator
  table : MetricTable
  drained : List BucketRow

/-- What `executeRun` does with its aggregator while k6 runs. -/
inductive MeterOp
  | feed (line : K6Line)
  | guardrail (nowMs : Time) (opts : GuardrailOptions)
  | drain (beforeMs : Option Time)

def Metering.step (scale : LogScale) (runId : Uuid) (m : Metering) : MeterOp → Metering
  | .feed line => { m with agg := (m.agg.feed scale line).1 }
  | .guardrail nowMs opts => { m with agg := (m.agg.guardrail nowMs opts).1 }
  | .drain beforeMs =>
    let d := m.agg.drain scale beforeMs
    ⟨d.1, insertMetrics runId m.table d.2, m.drained ++ d.2⟩

/-- A new aggregator after the operations `ops`. -/
def Metering.after (scale : LogScale) (runId : Uuid) (table : MetricTable) (ops : List MeterOp) : Metering :=
  ops.foldl (Metering.step scale runId) ⟨.new, table, []⟩

end CronMonitor.LoadTest
