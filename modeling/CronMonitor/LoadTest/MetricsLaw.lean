import CronMonitor.LoadTest.Metrics

/-!
# What the stored metrics account for

In memory nothing is lost: what a run has counted is what its open buckets and the rows drained so far have counted
(`Books`). The table keeps the first row of each bucket, so its sums agree with the summary exactly when no bucket is
drained twice, which is when no sample arrives for a bucket that an earlier drain has closed.
-/

namespace CronMonitor.LoadTest

/-! ### Measures -/

/-- What is counted of a bucket. -/
inductive Measure
  | requests
  | failures
  | status (key : String)

namespace Measure

def of : Measure → Counts → Nat
  | requests, c => c.requests
  | failures, c => c.failures
  | status key, c => c.ofStatus key

/-- What one sample adds. -/
def one (key : String) (expected : Bool) : Measure → Nat
  | requests => 1
  | failures => if expected then 0 else 1
  | status key' => if key = key' then 1 else 0

theorem of_zero (μ : Measure) : μ.of .zero = 0 := by cases μ <;> rfl

theorem of_add (μ : Measure) (c : Counts) (key : String) (expected : Bool) :
    μ.of (c.add key expected) = μ.of c + μ.one key expected := by
  cases μ with
  | requests => rfl
  | failures => cases expected <;> rfl
  | status key' =>
    simp only [of, one, Counts.add, Counts.ofStatus, OrderedMap.get?_set]
    split
    · subst_vars
      rfl
    · rfl

end Measure

/-! ### In memory -/

/-- The counters of the run. -/
def RunAggregator.counts (a : RunAggregator) : Counts := ⟨a.total, a.failed, a.statusCounts⟩

def rowSum (μ : Measure) (rows : List BucketRow) : Nat := (rows.map fun r => μ.of r.toCounts).sum

def openSum (μ : Measure) (a : RunAggregator) : Nat := (a.opened.values.map fun b => μ.of b.toCounts).sum

/-- The sample in a line, if there is one: its bucket, its status and whether it was expected. -/
def K6Line.sample (line : K6Line) : Option (Time × Number × Bool) :=
  (parseK6Line line).bind fun p =>
    if p.1 ≠ "http_req_duration" ∨ p.2.tags.phase = some "auth" then none
    else some (bucketKey p.2.time, p.2.tags.status.getD (some 0), p.2.tags.expectedResponse ≠ some "false")

/-- The bucket of the sample in a line. -/
def K6Line.bucket (line : K6Line) : Option Time := line.sample.map (·.1)

variable {scale : LogScale} {runId : Uuid} {a : RunAggregator}

theorem feed_of_none (scale : LogScale) (a : RunAggregator) {line : K6Line} (h : line.sample = none) :
    (a.feed scale line).1.opened = a.opened ∧ (a.feed scale line).1.counts = a.counts ∧
      (a.feed scale line).1.classes = a.classes := by
  unfold K6Line.sample at h
  unfold RunAggregator.feed
  cases hp : parseK6Line line with
  | none => exact ⟨rfl, rfl, rfl⟩
  | some p =>
    simp only [hp, Option.bind_some, ite_eq_left_iff, reduceCtorEq, imp_false, not_not] at h
    simp only
    split_ifs with hd hm ha
    · exact ⟨rfl, rfl, rfl⟩
    · exact ⟨rfl, rfl, rfl⟩
    · exact ⟨rfl, rfl, rfl⟩
    · exact absurd h (not_or.2 ⟨hm, ha⟩)

theorem feed_of_some (scale : LogScale) (a : RunAggregator) {line : K6Line} {key : Time} {status : Number}
    {expected : Bool} (h : line.sample = some (key, status, expected)) : ∃ hist,
      (a.feed scale line).1.opened =
        a.opened.set key ⟨((a.opened.get? key).getD .empty).toCounts.add status.text expected, hist⟩ ∧
      (a.feed scale line).1.counts = a.counts.add status.text expected ∧
      (a.feed scale line).1.classes = if expected then a.classes else a.classes.count status := by
  unfold K6Line.sample at h
  unfold RunAggregator.feed
  cases hp : parseK6Line line with
  | none => simp [hp] at h
  | some p =>
    simp only [hp, Option.bind_some, Option.ite_none_left_eq_some, Option.some.injEq, Prod.mk.injEq, not_or,
      not_not] at h
    obtain ⟨⟨hm, ha⟩, rfl, rfl, rfl⟩ := h
    simp only [hm, if_neg ha, ne_eq, not_true_eq_false, if_false]
    exact ⟨_, rfl, rfl, rfl⟩

/-- A drain takes the entries that are over, in order of their start, and leaves the others. -/
theorem drain_perm (scale : LogScale) (a : RunAggregator) (beforeMs : Option Time) : ∃ closed : List (Time × Open),
    (a.drain scale beforeMs).2 = closed.map (fun e => bucketRow scale e.1 e.2) ∧
    (∀ e, e ∈ closed ↔ e ∈ a.opened.entries ∧ RunAggregator.isOver beforeMs e.1) ∧
    (closed ++ (a.drain scale beforeMs).1.opened.entries).Perm a.opened.entries := by
  refine ⟨_, rfl, fun e => ?_, ?_⟩
  · rw [(List.perm_insertionSort _ _).mem_iff, List.mem_filter]
  · refine ((List.perm_insertionSort _ _).append_right _).trans ?_
    exact List.filter_append_perm (fun e : Time × Open => RunAggregator.isOver beforeMs e.1) a.opened.entries

theorem ErrorClasses.sum_count (c : ErrorClasses) (status : Number) : (c.count status).sum = c.sum + 1 := by
  unfold count sum
  split_ifs <;> simp only <;> omega

/-- What is counted in memory, in every state. -/
structure Books (m : Metering) : Prop where
  tally : ∀ μ, rowSum μ m.drained + openSum μ m.agg = μ.of m.agg.counts
  classes : m.agg.classes.sum = m.agg.failed
  drained_pos : ∀ r ∈ m.drained, 0 < r.requests
  open_pos : ∀ e ∈ m.agg.opened.entries, 0 < e.2.requests

variable {m : Metering}

theorem openSum_set (μ : Measure) (a' : RunAggregator) {key : Time} {text : String} {expected : Bool}
    {hist : LogHistogram} (h : a'.opened =
      a.opened.set key ⟨((a.opened.get? key).getD .empty).toCounts.add text expected, hist⟩) :
    openSum μ a' = openSum μ a + μ.one text expected := by
  have hsum := a.opened.sum_values_set key
    ⟨((a.opened.get? key).getD .empty).toCounts.add text expected, hist⟩ fun b => μ.of b.toCounts
  rw [← h, Measure.of_add] at hsum
  have hold : ((a.opened.get? key).map fun b => μ.of b.toCounts).getD 0 =
      μ.of ((a.opened.get? key).getD .empty).toCounts := by
    cases a.opened.get? key with
    | none => exact (μ.of_zero).symm
    | some b => rfl
  unfold openSum
  omega

theorem Books.feed (h : Books m) (line : K6Line) : Books (m.step scale runId (.feed line)) := by
  cases hs : line.sample with
  | none =>
    obtain ⟨hopen, hcounts, hclasses⟩ := feed_of_none scale m.agg hs
    have hfailed : (m.agg.feed scale line).1.failed = m.agg.failed := congrArg Counts.failures hcounts
    refine ⟨fun μ => ?_, ?_, h.drained_pos, fun e he => h.open_pos e (by rwa [← hopen])⟩
    · have := h.tally μ
      simp only [Metering.step, openSum, hopen, hcounts]
      exact this
    · simp only [Metering.step, hclasses, hfailed]
      exact h.classes
  | some p =>
    obtain ⟨key, status, expected⟩ := p
    obtain ⟨hist, hopen, hcounts, hclasses⟩ := feed_of_some scale m.agg hs
    have hfailed : (m.agg.feed scale line).1.failed = if expected then m.agg.failed else m.agg.failed + 1 :=
      congrArg Counts.failures hcounts
    refine ⟨fun μ => ?_, ?_, h.drained_pos, fun e he => ?_⟩
    · have htally := h.tally μ
      have hset := openSum_set μ (m.agg.feed scale line).1 hopen
      simp only [Metering.step, hset, hcounts, Measure.of_add]
      omega
    · simp only [Metering.step, hclasses, hfailed]
      have hsum := h.classes
      split
      · exact hsum
      · rw [ErrorClasses.sum_count, hsum]
    · have hv : e.2 ∈ (m.agg.feed scale line).1.opened.values := List.mem_map_of_mem he
      obtain ⟨k, hk⟩ := OrderedMap.mem_values_iff.1 hv
      rw [hopen, OrderedMap.get?_set] at hk
      split at hk
      · rw [← Option.some.inj hk]
        exact Nat.succ_pos _
      · exact h.open_pos (k, e.2) (OrderedMap.get?_eq_some_iff.1 hk)

theorem Books.drain (h : Books m) (beforeMs : Option Time) : Books (m.step scale runId (.drain beforeMs)) := by
  obtain ⟨closed, hrows, hmem, hperm⟩ := drain_perm scale m.agg beforeMs
  have hpos : ∀ r ∈ (m.agg.drain scale beforeMs).2, 0 < r.requests := by
    rw [hrows]
    intro r hr
    obtain ⟨e, he, rfl⟩ := List.mem_map.1 hr
    exact h.open_pos e ((hmem e).1 he).1
  refine ⟨fun μ => ?_, h.classes, List.forall_mem_append.2 ⟨h.drained_pos, hpos⟩, fun e he => ?_⟩
  · have htally := h.tally μ
    have hsum := (hperm.map fun e => μ.of e.2.toCounts).sum_eq
    rw [List.map_append, List.sum_append] at hsum
    simp only [Metering.step, rowSum, openSum, OrderedMap.values, List.map_map, List.map_append, List.sum_append,
      hrows] at htally ⊢
    have hcounts : (m.agg.drain scale beforeMs).1.counts = m.agg.counts := rfl
    have hclosed : (closed.map ((fun r : BucketRow => μ.of r.toCounts) ∘ fun e => bucketRow scale e.1 e.2)) =
        closed.map fun e => μ.of e.2.toCounts := rfl
    rw [hcounts, hclosed]
    simp only [Function.comp_def] at htally ⊢
    omega
  · exact h.open_pos e (hperm.mem_iff.1 (List.mem_append_right _ he))

theorem Books.step (h : Books m) (op : MeterOp) : Books (m.step scale runId op) := by
  cases op with
  | feed line => exact h.feed line
  | guardrail nowMs opts => exact ⟨h.tally, h.classes, h.drained_pos, h.open_pos⟩
  | drain beforeMs => exact h.drain beforeMs

variable {table : MetricTable}

theorem after_snoc (ops : List MeterOp) (op : MeterOp) :
    Metering.after scale runId table (ops ++ [op]) = (Metering.after scale runId table ops).step scale runId op := by
  simp [Metering.after]

theorem Books.after (ops : List MeterOp) : Books (Metering.after scale runId table ops) := by
  induction ops using List.reverseRecOn with
  | nil =>
    refine ⟨fun μ => ?_, rfl, by simp [Metering.after], by simp [Metering.after, RunAggregator.new, OrderedMap.empty]⟩
    simp [Metering.after, rowSum, openSum, RunAggregator.new, OrderedMap.values, OrderedMap.empty]
    exact μ.of_zero.symm
  | append_singleton ops op ih =>
    rw [after_snoc]
    exact ih.step op

/-! ### The table -/

/-- The rows of one run. -/
def stored (runId : Uuid) (table : MetricTable) : List BucketRow := (table.filter (·.1 = runId)).map (·.2)

/-- A row is kept if it is the first of its bucket. -/
def insertRow (kept : List BucketRow) (r : BucketRow) : List BucketRow :=
  if kept.any (·.bucketStart = r.bucketStart) then kept else kept ++ [r]

theorem stored_insertMetric (r : BucketRow) :
    stored runId (insertMetric runId table r) = insertRow (stored runId table) r := by
  have hany : (table.any fun x => x.1 = runId && x.2.bucketStart = r.bucketStart) =
      (stored runId table).any (·.bucketStart = r.bucketStart) := by
    rw [stored, List.any_map, List.any_filter]
    rfl
  unfold insertMetric insertRow
  rw [hany]
  split
  · rfl
  · simp [stored]

theorem stored_insertMetrics (rows : List BucketRow) (table : MetricTable) :
    stored runId (insertMetrics runId table rows) = rows.foldl insertRow (stored runId table) := by
  induction rows generalizing table with
  | nil => rfl
  | cons r rows ih =>
    simp only [insertMetrics, List.foldl_cons] at ih ⊢
    rw [ih, stored_insertMetric]

theorem stored_after (hnew : stored runId table = []) (ops : List MeterOp) :
    stored runId (Metering.after scale runId table ops).table =
      (Metering.after scale runId table ops).drained.foldl insertRow [] := by
  induction ops using List.reverseRecOn with
  | nil => exact hnew
  | append_singleton ops op ih =>
    rw [after_snoc]
    cases op with
    | feed line => exact ih
    | guardrail nowMs opts => exact ih
    | drain beforeMs =>
      simp only [Metering.step]
      rw [stored_insertMetrics, ih, List.foldl_append]

theorem insertRow_of_mem {kept : List BucketRow} {r : BucketRow} (h : r.bucketStart ∈ kept.map (·.bucketStart)) :
    insertRow kept r = kept := by
  refine if_pos (List.any_eq_true.2 ?_)
  obtain ⟨x, hx, heq⟩ := List.mem_map.1 h
  exact ⟨x, hx, decide_eq_true heq⟩

theorem insertRow_of_not_mem {kept : List BucketRow} {r : BucketRow} (h : r.bucketStart ∉ kept.map (·.bucketStart)) :
    insertRow kept r = kept ++ [r] := by
  refine if_neg fun hany => ?_
  obtain ⟨x, hx, heq⟩ := List.any_eq_true.1 hany
  exact h (List.mem_map.2 ⟨x, hx, of_decide_eq_true heq⟩)

theorem rowSum_append (μ : Measure) (rows rows' : List BucketRow) :
    rowSum μ (rows ++ rows') = rowSum μ rows + rowSum μ rows' := by
  simp [rowSum]

/-- Keeping the first row of each bucket loses nothing exactly when no bucket has two. -/
theorem kept_cases (rows : List BucketRow) (hpos : ∀ r ∈ rows, 0 < r.requests) :
    (∀ k, k ∈ (rows.foldl insertRow []).map (·.bucketStart) ↔ k ∈ rows.map (·.bucketStart)) ∧
      rowSum .requests (rows.foldl insertRow []) ≤ rowSum .requests rows ∧
      ((rows.map (·.bucketStart)).Nodup → rows.foldl insertRow [] = rows) ∧
      (rowSum .requests (rows.foldl insertRow []) = rowSum .requests rows → (rows.map (·.bucketStart)).Nodup) := by
  induction rows using List.reverseRecOn with
  | nil => simp
  | append_singleton rows r ih =>
    obtain ⟨hmem, hle, hkeep, hnodup⟩ := ih fun x hx => hpos x (List.mem_append_left _ hx)
    have hr : 0 < rowSum .requests [r] := by
      have := hpos r (List.mem_append_right _ (List.mem_singleton_self r))
      simpa [rowSum, Measure.of] using this
    have hadd := rowSum_append .requests rows [r]
    have hnodup_snoc : ((rows ++ [r]).map (·.bucketStart)).Nodup ↔
        (rows.map (·.bucketStart)).Nodup ∧ r.bucketStart ∉ rows.map (·.bucketStart) := by
      rw [List.map_append, List.map_singleton, ← List.concat_eq_append, List.nodup_concat]
      exact and_comm
    rw [List.foldl_append, List.foldl_cons, List.foldl_nil, hadd, hnodup_snoc]
    by_cases hdup : r.bucketStart ∈ rows.map (·.bucketStart)
    · rw [insertRow_of_mem ((hmem _).2 hdup)]
      refine ⟨fun k => ?_, by omega, fun h => absurd hdup h.2, fun h => by omega⟩
      rw [List.map_append, List.mem_append, ← hmem]
      refine ⟨.inl, fun h => h.elim id fun hk => ?_⟩
      rw [List.map_singleton, List.mem_singleton] at hk
      rwa [hmem, hk]
    · rw [insertRow_of_not_mem fun h => hdup ((hmem _).1 h)]
      have hadd' := rowSum_append .requests (rows.foldl insertRow []) [r]
      refine ⟨fun k => ?_, by omega, fun h => by rw [hkeep h.1], fun h => ⟨hnodup (by omega), hdup⟩⟩
      rw [List.map_append, List.map_append, List.mem_append, List.mem_append]
      exact or_congr_left (hmem k)

/-! ### Late samples -/

/-- A bucket of which a sample came before a drain that it was over for. -/
def ClosedIn (ops : List MeterOp) (b : Time) : Prop :=
  ∃ x t, List.Sublist [.feed x, .drain t] ops ∧ x.bucket = some b ∧ RunAggregator.isOver t b = true

/-- No sample comes for a bucket that an earlier drain has closed. -/
def NoLateSample (ops : List MeterOp) : Prop :=
  ∀ x t y b, List.Sublist [.feed x, .drain t, .feed y] ops → x.bucket = some b → y.bucket = some b →
    RunAggregator.isOver t b = false

theorem sublist_snoc {α : Type} {l l' : List α} {x y : α} :
    (l ++ [x]).Sublist (l' ++ [y]) ↔ (l ++ [x]).Sublist l' ∨ x = y ∧ l.Sublist l' := by
  have h : (x :: l.reverse).Sublist (y :: l'.reverse) ↔
      (x :: l.reverse).Sublist l'.reverse ∨ x = y ∧ l.reverse.Sublist l'.reverse := List.cons_sublist_cons'
  rw [← List.reverse_concat, ← List.reverse_concat] at h
  simpa only [List.reverse_sublist] using h

theorem closedIn_snoc {ops : List MeterOp} {op : MeterOp} {b : Time} :
    ClosedIn (ops ++ [op]) b ↔ ClosedIn ops b ∨
      ∃ x t, op = .drain t ∧ .feed x ∈ ops ∧ x.bucket = some b ∧ RunAggregator.isOver t b = true := by
  have hsub : ∀ x t, List.Sublist [.feed x, .drain t] (ops ++ [op]) ↔
      List.Sublist [.feed x, .drain t] ops ∨ .drain t = op ∧ .feed x ∈ ops := by
    intro x t
    rw [← List.singleton_sublist]
    exact sublist_snoc (l := [MeterOp.feed x])
  constructor
  · rintro ⟨x, t, hs, hx, ht⟩
    rcases (hsub x t).1 hs with hold | ⟨rfl, hmem⟩
    · exact .inl ⟨x, t, hold, hx, ht⟩
    · exact .inr ⟨x, t, rfl, hmem, hx, ht⟩
  · rintro (⟨x, t, hs, hx, ht⟩ | ⟨x, t, rfl, hs, hx, ht⟩)
    · exact ⟨x, t, (hsub x t).2 (.inl hs), hx, ht⟩
    · exact ⟨x, t, (hsub x t).2 (.inr ⟨rfl, hs⟩), hx, ht⟩

theorem noLateSample_snoc {ops : List MeterOp} {op : MeterOp} :
    NoLateSample (ops ++ [op]) ↔ NoLateSample ops ∧
      ∀ y b, op = .feed y → y.bucket = some b → ¬ ClosedIn ops b := by
  have hsub : ∀ x t y, List.Sublist [.feed x, .drain t, .feed y] (ops ++ [op]) ↔
      List.Sublist [.feed x, .drain t, .feed y] ops ∨ .feed y = op ∧ List.Sublist [.feed x, .drain t] ops := by
    intro x t y
    exact sublist_snoc (l := [MeterOp.feed x, .drain t])
  constructor
  · refine fun h => ⟨fun x t y b hs => h x t y b ((hsub x t y).2 (.inl hs)), ?_⟩
    rintro y b rfl hy ⟨x, t, hs, hx, ht⟩
    rw [h x t y b ((hsub x t y).2 (.inr ⟨rfl, hs⟩)) hx hy] at ht
    cases ht
  · rintro ⟨h, hlast⟩ x t y b hs hx hy
    rcases (hsub x t y).1 hs with hold | ⟨rfl, hbefore⟩
    · exact h x t y b hold hx hy
    · refine Bool.eq_false_iff.2 fun ht => ?_
      exact hlast y b rfl hy ⟨x, t, hbefore, hx, ht⟩

/-- The buckets that have been drained, and those that are open. -/
structure Buckets (ops : List MeterOp) (m : Metering) : Prop where
  drained : ∀ b, b ∈ m.drained.map (·.bucketStart) ↔ ClosedIn ops b
  seen : ∀ b, b ∈ m.drained.map (·.bucketStart) ∨ b ∈ m.agg.opened.keys ↔ ∃ x, .feed x ∈ ops ∧ x.bucket = some b
  once : (m.drained.map (·.bucketStart) ++ m.agg.opened.keys).Nodup ↔ NoLateSample ops

namespace Buckets

variable {ops : List MeterOp}

theorem guardrail (h : Buckets ops m) (nowMs : Time) (opts : GuardrailOptions) :
    Buckets (ops ++ [.guardrail nowMs opts]) (m.step scale runId (.guardrail nowMs opts)) := by
  obtain ⟨hdrained, hseen, honce⟩ := h
  refine ⟨fun b => ?_, fun b => ?_, ?_⟩
  · rw [closedIn_snoc]
    refine (hdrained b).trans (or_iff_left ?_).symm
    rintro ⟨x, t, heq, -⟩
    cases heq
  · refine (hseen b).trans ?_
    simp
  · rw [noLateSample_snoc]
    refine honce.trans (and_iff_left ?_).symm
    rintro y b heq
    cases heq

theorem feed_without_sample (h : Buckets ops m) {line : K6Line} (hs : line.sample = none) :
    Buckets (ops ++ [.feed line]) (m.step scale runId (.feed line)) := by
  obtain ⟨hopen, -, -⟩ := feed_of_none scale m.agg hs
  have hbucket : line.bucket = none := by simp [K6Line.bucket, hs]
  simp only [Metering.step]
  refine ⟨fun b => ?_, fun b => ?_, ?_⟩
  · rw [closedIn_snoc]
    simpa using h.drained b
  · rw [hopen, h.seen b]
    constructor
    · rintro ⟨x, hx, hb⟩
      exact ⟨x, List.mem_append_left _ hx, hb⟩
    · rintro ⟨x, hx, hb⟩
      rcases List.mem_append.1 hx with hx | hx
      · exact ⟨x, hx, hb⟩
      · cases List.mem_singleton.1 hx
        rw [hbucket] at hb
        cases hb
  · rw [hopen, h.once, noLateSample_snoc]
    refine (and_iff_left ?_).symm
    rintro y b heq hy
    cases heq
    rw [hbucket] at hy
    cases hy

theorem feed_sample (h : Buckets ops m) {line : K6Line} {key : Time} {status : Number} {expected : Bool}
    (hs : line.sample = some (key, status, expected)) :
    Buckets (ops ++ [.feed line]) (m.step scale runId (.feed line)) := by
  obtain ⟨hist, hopen, -, -⟩ := feed_of_some scale m.agg hs
  have hbucket : line.bucket = some key := by simp [K6Line.bucket, hs]
  have hkeys : ∀ b, b ∈ (m.agg.feed scale line).1.opened.keys ↔ b ∈ m.agg.opened.keys ∨ b = key := by
    intro b
    rw [hopen]
    by_cases hk : key ∈ m.agg.opened.keys
    · rw [OrderedMap.keys_set_of_mem hk]
      exact ⟨.inl, fun hb => hb.elim id fun hb => hb ▸ hk⟩
    · rw [OrderedMap.keys_set_of_not_mem hk, List.mem_append, List.mem_singleton]
  have hnodup : (m.drained.map (·.bucketStart) ++ (m.agg.feed scale line).1.opened.keys).Nodup ↔
      (m.drained.map (·.bucketStart) ++ m.agg.opened.keys).Nodup ∧ key ∉ m.drained.map (·.bucketStart) := by
    rw [hopen]
    by_cases hk : key ∈ m.agg.opened.keys
    · rw [OrderedMap.keys_set_of_mem hk]
      refine (and_iff_left_of_imp fun hn hd => ?_).symm
      exact (List.nodup_append.1 hn).2.2 key hd key hk rfl
    · rw [OrderedMap.keys_set_of_not_mem hk, ← List.append_assoc, ← List.concat_eq_append, List.nodup_concat,
        List.mem_append, not_or]
      tauto
  simp only [Metering.step]
  refine ⟨fun b => ?_, fun b => ?_, ?_⟩
  · rw [closedIn_snoc]
    simpa using h.drained b
  · rw [hkeys, ← or_assoc, h.seen b]
    constructor
    · rintro (⟨x, hx, hb⟩ | rfl)
      · exact ⟨x, List.mem_append_left _ hx, hb⟩
      · exact ⟨line, List.mem_append_right _ (List.mem_singleton_self _), hbucket⟩
    · rintro ⟨x, hx, hb⟩
      rcases List.mem_append.1 hx with hx | hx
      · exact .inl ⟨x, hx, hb⟩
      · cases List.mem_singleton.1 hx
        exact .inr (Option.some.inj (hb.symm.trans hbucket))
  · rw [hnodup, h.once, h.drained, noLateSample_snoc]
    refine and_congr_right fun _ => ⟨fun hc y b heq hy => ?_, fun hc => hc line key rfl hbucket⟩
    cases heq
    rwa [Option.some.inj (hy.symm.trans hbucket)]

theorem drain (h : Buckets ops m) (beforeMs : Option Time) :
    Buckets (ops ++ [.drain beforeMs]) (m.step scale runId (.drain beforeMs)) := by
  obtain ⟨closed, hrows, hmem, hperm⟩ := drain_perm scale m.agg beforeMs
  have hstarts : (m.agg.drain scale beforeMs).2.map (·.bucketStart) = closed.map Prod.fst := by
    rw [hrows, List.map_map]
    rfl
  have hkeys : ∀ b, b ∈ closed.map Prod.fst ↔ b ∈ m.agg.opened.keys ∧ RunAggregator.isOver beforeMs b = true := by
    intro b
    simp only [List.mem_map, hmem, OrderedMap.keys]
    constructor
    · rintro ⟨e, ⟨he, ho⟩, rfl⟩
      exact ⟨⟨e, he, rfl⟩, ho⟩
    · rintro ⟨⟨e, he, rfl⟩, ho⟩
      exact ⟨e, ⟨he, ho⟩, rfl⟩
  have hpart := hperm.map Prod.fst
  rw [List.map_append] at hpart
  have hdrained : (m.step scale runId (.drain beforeMs)).drained.map (·.bucketStart) =
      m.drained.map (·.bucketStart) ++ closed.map Prod.fst := by
    rw [← hstarts]
    exact List.map_append
  refine ⟨fun b => ?_, fun b => ?_, ?_⟩
  · rw [hdrained, List.mem_append, hkeys, closedIn_snoc, ← h.drained b]
    constructor
    · rintro (hd | ⟨hk, ho⟩)
      · exact .inl hd
      · obtain ⟨x, hx, hb⟩ := (h.seen b).1 (.inr hk)
        exact .inr ⟨x, beforeMs, rfl, hx, hb, ho⟩
    · rintro (hd | ⟨x, t, heq, hx, hb, ho⟩)
      · exact .inl hd
      · cases heq
        rcases (h.seen b).2 ⟨x, hx, hb⟩ with hd | hk
        · exact .inl hd
        · exact .inr ⟨hk, ho⟩
  · have hb := hpart.mem_iff (a := b)
    rw [List.mem_append] at hb
    rw [hdrained, List.mem_append, or_assoc]
    refine (or_congr_right hb).trans ((h.seen b).trans ?_)
    simp
  · rw [hdrained, noLateSample_snoc, List.append_assoc]
    refine ((hpart.append_left _).nodup_iff.trans h.once).trans (and_iff_left ?_).symm
    rintro y b heq
    cases heq

theorem after (scale : LogScale) (runId : Uuid) (table : MetricTable) (ops : List MeterOp) :
    Buckets ops (Metering.after scale runId table ops) := by
  induction ops using List.reverseRecOn with
  | nil =>
    refine ⟨fun b => ?_, fun b => ?_, ?_⟩
    · simp [Metering.after, ClosedIn]
    · simp [Metering.after, RunAggregator.new, OrderedMap.keys, OrderedMap.empty]
    · simp [Metering.after, RunAggregator.new, OrderedMap.keys, OrderedMap.empty, NoLateSample]
  | append_singleton ops op ih =>
    rw [after_snoc]
    cases op with
    | feed line =>
      cases hs : line.sample with
      | none => exact ih.feed_without_sample hs
      | some p => exact ih.feed_sample hs
    | guardrail nowMs opts => exact ih.guardrail nowMs opts
    | drain beforeMs => exact ih.drain beforeMs

end Buckets

/-! ### The stored rows and the summary -/

def countOf (counts : List (String × Nat)) (key : String) : Nat := ((counts.find? (·.1 = key)).map (·.2)).getD 0

/-- The stored rows of the run sum to its summary. -/
structure Accounts (scale : LogScale) (runId : Uuid) (m : Metering) : Prop where
  requests : ((stored runId m.table).map (·.requests)).sum = (m.agg.summary scale).totalRequests
  failures : ((stored runId m.table).map (·.failures)).sum = (m.agg.summary scale).failedRequests
  statuses : ∀ key, ((stored runId m.table).map (·.ofStatus key)).sum = countOf (m.agg.summary scale).statusCounts key

theorem accounts_iff : Accounts scale runId m ↔ ∀ μ, rowSum μ (stored runId m.table) = μ.of m.agg.counts := by
  constructor
  · intro h μ
    cases μ with
    | requests => exact h.requests
    | failures => exact h.failures
    | status key => exact h.statuses key
  · exact fun h => ⟨h .requests, h .failures, fun key => h (.status key)⟩

/-- After the last drain every bucket has been drained. -/
theorem openSum_drained (μ : Measure) (ops : List MeterOp) :
    (Metering.after scale runId table (ops ++ [.drain none])).agg.opened.entries = [] ∧
      openSum μ (Metering.after scale runId table (ops ++ [.drain none])).agg = 0 := by
  have hentries : (Metering.after scale runId table (ops ++ [.drain none])).agg.opened.entries = [] := by
    rw [after_snoc]
    exact List.filter_eq_nil_iff.2 fun e _ => by simp [RunAggregator.isOver]
  refine ⟨hentries, ?_⟩
  rw [openSum, OrderedMap.values, hentries]
  rfl

/-- In every state the totals are those of the drained rows and of the open buckets. After the last drain the stored
rows sum to the summary if and only if no sample came for a bucket that an earlier drain had closed. -/
theorem stored_metrics_account (scale : LogScale) (runId : Uuid) (table : MetricTable) (hnew : stored runId table = [])
    (ops : List MeterOp) : Books (Metering.after scale runId table ops) ∧
      (Accounts scale runId (Metering.after scale runId table (ops ++ [.drain none])) ↔ NoLateSample ops) := by
  refine ⟨Books.after ops, ?_⟩
  have hbooks : Books (Metering.after scale runId table (ops ++ [.drain none])) := Books.after _
  have hlate : NoLateSample (ops ++ [.drain none]) ↔ NoLateSample ops := by
    rw [noLateSample_snoc]
    refine and_iff_left ?_
    rintro y b heq
    cases heq
  have honce := (Buckets.after scale runId table (ops ++ [.drain none])).once
  have hkeys : (Metering.after scale runId table (ops ++ [.drain none])).agg.opened.keys = [] := by
    rw [OrderedMap.keys, (openSum_drained .requests ops).1]
    rfl
  rw [hkeys, List.append_nil, hlate] at honce
  have htotal : ∀ μ, rowSum μ (Metering.after scale runId table (ops ++ [.drain none])).drained =
      μ.of (Metering.after scale runId table (ops ++ [.drain none])).agg.counts := by
    intro μ
    have htally := hbooks.tally μ
    rwa [(openSum_drained μ ops).2, Nat.add_zero] at htally
  obtain ⟨-, -, hkeep, hall⟩ := kept_cases _ hbooks.drained_pos
  rw [accounts_iff, stored_after hnew, ← honce]
  constructor
  · intro h
    exact hall ((h .requests).trans (htotal .requests).symm)
  · intro h μ
    rw [hkeep h]
    exact htotal μ

def okSample (time : Time) : K6Line :=
  ⟨true, some ("Point", "http_req_duration", ⟨time, 12, ⟨none, some (some 200), some "true"⟩⟩)⟩

def flatScale : LogScale := ⟨fun _ => 0, fun _ => 0⟩

/-- Samples of three buckets, with a drain in the middle, while another run has rows of the same buckets. -/
theorem stored_metrics_account_one :
    let others := (Metering.after flatScale 1 [] [.feed (okSample 1000), .feed (okSample 7000), .drain none]).table
    let ops : List MeterOp := [.feed (okSample 1000), .feed (okSample 7000), .feed (okSample 2000), .drain (some 6000),
      .feed (okSample 8000), .feed (okSample 12000)]
    (stored 0 (Metering.after flatScale 0 others (ops ++ [.drain none])).table).length = 3 ∧
      Accounts flatScale 0 (Metering.after flatScale 0 others (ops ++ [.drain none])) := by
  intro others ops
  have honce : NoLateSample ops := (Buckets.after flatScale 0 others ops).once.1 (by decide +kernel)
  exact ⟨by decide +kernel, (stored_metrics_account flatScale 0 others (by decide +kernel) ops).2.2 honce⟩

/-- A sample of the first five seconds arrives after they have been drained: its row is a second one of the bucket. -/
theorem late_sample_lost : ¬ Accounts flatScale 0 (Metering.after flatScale 0 []
    [.feed (okSample 1000), .drain (some 6000), .feed (okSample 4900), .drain none]) :=
  fun h => absurd h.requests (by decide +kernel)

end CronMonitor.LoadTest
