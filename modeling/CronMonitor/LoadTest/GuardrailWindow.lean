import CronMonitor.LoadTest.Metrics

/-!
# The guardrail against the whole history

`guardrail` deletes seconds that lie before its window, and a late sample can bring one of them back with a part of its
count. No later window reaches that far, so every answer is the one that the complete list of samples gives.
-/

namespace CronMonitor.LoadTest

/-! ### Sums over a window -/

section Sums
variable {α : Type} (at_ : α → Int) (p : α → Bool)

theorem countP_window_succ (lo hi : Int) (h : lo ≤ hi) (events : List α) :
    (events.countP fun x => lo ≤ at_ x && at_ x < hi && p x) + (events.countP fun x => at_ x = hi && p x) =
      events.countP fun x => lo ≤ at_ x && at_ x < hi + 1 && p x := by
  induction events with
  | nil => rfl
  | cons x rest ih =>
    have hone : (if (lo ≤ at_ x && at_ x < hi && p x) = true then 1 else 0) +
        (if (at_ x = hi && p x) = true then 1 else 0) =
        if (lo ≤ at_ x && at_ x < hi + 1 && p x) = true then 1 else 0 := by
      cases p x
      · simp
      · simp only [Bool.and_true, Bool.and_eq_true, decide_eq_true_eq]
        split_ifs <;> omega
    simp only [List.countP_cons]
    omega

/-- Counting second by second counts the whole window. -/
theorem sum_countP_range (lo : Int) (n : Nat) (events : List α) :
    ((List.range n).map fun i : Nat => events.countP fun x => at_ x = lo + i && p x).sum =
      events.countP fun x => lo ≤ at_ x && at_ x < lo + n && p x := by
  induction n with
  | zero =>
    have hnone : ∀ x : α, (lo ≤ at_ x && at_ x < lo + (0 : Nat) && p x) = false := by
      intro x
      have hempty : ¬ (lo ≤ at_ x ∧ at_ x < lo + (0 : Nat)) := by omega
      simp only [Bool.and_eq_false_iff, decide_eq_false_iff_not]
      exact .inl (not_and_or.1 hempty)
    simp only [List.range_zero, List.map_nil, List.sum_nil, hnone]
    simp
  | succ n ih =>
    rw [List.range_succ, List.map_append, List.sum_append, ih, List.map_singleton, List.sum_singleton,
      countP_window_succ at_ p lo (lo + n) (by omega)]
    simp only [Nat.cast_add, Nat.cast_one, Int.add_assoc]

theorem sum_filterMap {β : Type} (look : Nat → Option β) (f : β → Nat) (ns : List Nat) :
    ((ns.filterMap look).map f).sum = (ns.map fun n => ((look n).map f).getD 0).sum := by
  induction ns with
  | nil => rfl
  | cons n rest ih => cases h : look n <;> simp [h, ih]

end Sums

/-! ### The history -/

/-- The target request that a line reports: its time and status. -/
def K6Line.request (line : K6Line) : Option (Time × Number) :=
  (parseK6Line line).bind fun p =>
    if p.1 ≠ "http_req_duration" ∨ p.2.tags.phase = some "auth" then none
    else some (p.2.time, p.2.tags.status.getD (some 0))

def MeterOp.request : MeterOp → Option (Time × Number)
  | .feed line => line.request
  | .guardrail .. | .drain _ => none

/-- When a guardrail call asks. -/
def MeterOp.query : MeterOp → Option Time
  | .guardrail nowMs _ => some nowMs
  | .feed _ | .drain _ => none

/-- The four counters of a second. -/
inductive Tally
  | total | server | refused | limited

def Tally.of : Tally → Second → Nat
  | total, s => s.total
  | server, s => s.serverFailures
  | refused, s => s.authRefusals
  | limited, s => s.rateLimited

def Tally.counts : Tally → Number → Bool
  | total, _ => true
  | server, status => isServerFailure status
  | refused, status => status = some 401 ∨ status = some 403
  | limited, status => status = some 429

/-- The answer to the four counts of a window. -/
def guardrailResult (opts : GuardrailOptions) (count : Tally → Nat) : GuardrailResult :=
  let rate : Tally → ℚ := fun t => if count .total = 0 then 0 else count t / count .total
  let enough := count .total ≥ opts.minSamples
  let kind :=
    if enough ∧ rate .refused > opts.maxRefusalRate.getD (1 / 2) then some GuardrailKind.authRefused
    else if enough ∧ rate .limited > opts.maxRateLimitedRate.getD (1 / 2) then some .rateLimited
    else if enough ∧ rate .server > opts.maxErrorRate then some .serverFailures
    else none
  ⟨kind.isSome, kind, count .total, rate .server, rate .refused, rate .limited⟩

/-- The guardrail computed from all samples: it counts those of the last `windowSeconds` seconds up to `nowMs`. -/
def guardrailOf (samples : List (Time × Number)) (nowMs : Time) (opts : GuardrailOptions) : GuardrailResult :=
  let recent := samples.filter fun x =>
    nowMs / 1000 - opts.windowSeconds + 1 ≤ x.1 / 1000 && x.1 / 1000 ≤ nowMs / 1000
  guardrailResult opts fun t => recent.countP fun x => t.counts x.2

theorem guardrail_snd (a : RunAggregator) (nowMs : Time) (opts : GuardrailOptions) :
    (a.guardrail nowMs opts).2 = guardrailResult opts fun t =>
      (((List.range opts.windowSeconds).filterMap fun i : Nat =>
        a.perSecond.get? (nowMs / 1000 - opts.windowSeconds + 1 + i)).map t.of).sum := by
  have hwindow : ∀ look : Int → Option Second,
      (do let i ← List.range opts.windowSeconds; pure (i : Int) : List Int).filterMap look =
        (List.range opts.windowSeconds).filterMap fun i : Nat => look i := by
    intro look
    rw [bind_pure_comp, List.map_eq_map, List.filterMap_map]
    rfl
  unfold RunAggregator.guardrail
  simp only [hwindow]
  rfl

def tallyAt (t : Tally) (samples : List (Time × Number)) (s : Int) : Nat :=
  samples.countP fun x => x.1 / 1000 = s && t.counts x.2

def RunAggregator.tally (t : Tally) (a : RunAggregator) (s : Int) : Nat := ((a.perSecond.get? s).map t.of).getD 0

theorem Tally.of_count (t : Tally) (s : Second) (status : Number) :
    t.of (s.count status) = t.of s + if t.counts status then 1 else 0 := by
  cases t with
  | total => rfl
  | server => exact apply_ite (s.serverFailures + ·) (isServerFailure status = true) 1 0 |>.symm
  | refused => simp only [of, Second.count, counts, decide_eq_true_eq]; split <;> rfl
  | limited => simp only [of, Second.count, counts, decide_eq_true_eq]; split <;> rfl

theorem tallyAt_append (t : Tally) (samples : List (Time × Number)) (x : Time × Number) (s : Int) :
    tallyAt t (samples ++ [x]) s =
      tallyAt t samples s + if x.1 / 1000 = s then (if t.counts x.2 then 1 else 0) else 0 := by
  rw [tallyAt, List.countP_append, List.countP_singleton]
  by_cases h : x.1 / 1000 = s <;> simp [h, tallyAt]

variable {scale : LogScale} {runId : Uuid} {a : RunAggregator}

theorem tally_record (t : Tally) (time : Time) (ms : ℚ) (status : Number) (expected : Bool) (s : Int) :
    (a.record scale time ms status expected).tally t s =
      a.tally t s + if time / 1000 = s then (if t.counts status then 1 else 0) else 0 := by
  simp only [RunAggregator.record, RunAggregator.tally, OrderedMap.get?_set]
  by_cases h : time / 1000 = s
  · rw [if_pos h, if_pos h, Option.map_some, Option.getD_some, Tally.of_count, h]
    congr 1
    cases a.perSecond.get? s with
    | none => cases t <;> rfl
    | some x => rfl
  · rw [if_neg h, if_neg h, Nat.add_zero]

/-- Feeding a line adds its request to its second and leaves the other seconds alone. -/
theorem tally_feed (t : Tally) (line : K6Line) (s : Int) :
    (a.feed scale line).1.tally t s = a.tally t s +
      (line.request.map fun x => if x.1 / 1000 = s then (if t.counts x.2 then 1 else 0) else 0).getD 0 := by
  unfold RunAggregator.feed K6Line.request
  cases hp : parseK6Line line with
  | none => rfl
  | some p =>
    simp only [Option.bind_some]
    by_cases hd : p.1 = "dropped_iterations"
    · simp [hd, RunAggregator.tally]
    · by_cases hm : p.1 = "http_req_duration"
      · by_cases ha : p.2.tags.phase = some "auth"
        · simp [hm, ha, RunAggregator.tally]
        · simp [hm, ha, tally_record]
      · simp [hd, hm, RunAggregator.tally]

theorem tally_guardrail (t : Tally) (nowMs : Time) (opts : GuardrailOptions) {s : Int}
    (h : nowMs / 1000 - opts.windowSeconds - 5 ≤ s) : (a.guardrail nowMs opts).1.tally t s = a.tally t s := by
  have hkept : (!decide (s < nowMs / 1000 - opts.windowSeconds - 5)) = true := by
    rw [decide_eq_false (not_lt.2 h)]
    rfl
  simp only [RunAggregator.guardrail, RunAggregator.tally]
  rw [OrderedMap.get?_filter (fun s => !decide (s < nowMs / 1000 - opts.windowSeconds - 5)) hkept]

/-- Every second from which no query so far has moved on has its full count. -/
def Kept (opts : GuardrailOptions) (ops : List MeterOp) (a : RunAggregator) : Prop :=
  ∀ t s, (∀ q ∈ ops.filterMap MeterOp.query, q / 1000 - opts.windowSeconds - 5 ≤ s) →
    a.tally t s = tallyAt t (ops.filterMap MeterOp.request) s

theorem Kept.step {opts : GuardrailOptions} {ops : List MeterOp} {m : Metering} (hk : Kept opts ops m.agg)
    (op : MeterOp) (hopts : ∀ nowMs o, op = .guardrail nowMs o → o = opts) :
    Kept opts (ops ++ [op]) (m.step scale runId op).agg := by
  intro t s hs
  rw [List.filterMap_append] at hs ⊢
  have hbefore := hk t s fun q hq => hs q (List.mem_append_left _ hq)
  cases op with
  | feed line =>
    show (m.agg.feed scale line).1.tally t s = _
    rw [tally_feed, hbefore]
    cases hr : line.request with
    | none => simp [MeterOp.request, hr]
    | some x =>
      have hone : [MeterOp.feed line].filterMap MeterOp.request = [x] := by simp [MeterOp.request, hr]
      rw [hone, tallyAt_append]
      rfl
  | guardrail nowMs o =>
    obtain rfl := hopts nowMs o rfl
    have hlow : nowMs / 1000 - o.windowSeconds - 5 ≤ s := hs nowMs (by simp [MeterOp.query])
    show (m.agg.guardrail nowMs o).1.tally t s = _
    rw [tally_guardrail t nowMs o hlow, hbefore, List.filterMap_cons_none rfl, List.filterMap_nil, List.append_nil]
  | drain beforeMs =>
    show m.agg.tally t s = _
    rw [hbefore, List.filterMap_cons_none rfl, List.filterMap_nil, List.append_nil]

theorem Kept.after (opts : GuardrailOptions) (table : MetricTable) (ops : List MeterOp)
    (hopts : ∀ nowMs o, .guardrail nowMs o ∈ ops → o = opts) :
    Kept opts ops (Metering.after scale runId table ops).agg := by
  induction ops using List.reverseRecOn with
  | nil => exact fun t s _ => rfl
  | append_singleton ops op ih =>
    unfold Metering.after at ih ⊢
    rw [List.foldl_append]
    refine (ih fun nowMs o ho => hopts nowMs o (List.mem_append_left _ ho)).step op fun nowMs o ho => ?_
    exact hopts nowMs o (List.mem_append_right _ (ho ▸ List.mem_singleton_self _))

/-- The sums of a guardrail call over its window. -/
theorem window_sum {opts : GuardrailOptions} {samples : List (Time × Number)} {nowMs : Time} (t : Tally)
    (h : ∀ s : Int, nowMs / 1000 - opts.windowSeconds + 1 ≤ s → a.tally t s = tallyAt t samples s) :
    ((((List.range opts.windowSeconds).filterMap fun i : Nat =>
      a.perSecond.get? (nowMs / 1000 - opts.windowSeconds + 1 + i)).map t.of).sum) =
      (samples.filter fun x => nowMs / 1000 - opts.windowSeconds + 1 ≤ x.1 / 1000 &&
        x.1 / 1000 ≤ nowMs / 1000).countP fun x => t.counts x.2 := by
  rw [sum_filterMap, List.countP_filter]
  have hsecond : ∀ i : Nat, ((a.perSecond.get? (nowMs / 1000 - opts.windowSeconds + 1 + i)).map t.of).getD 0 =
      tallyAt t samples (nowMs / 1000 - opts.windowSeconds + 1 + i) := fun i =>
    h _ (le_add_of_nonneg_right (Int.natCast_nonneg i))
  simp only [hsecond, tallyAt]
  rw [sum_countP_range (fun x : Time × Number => x.1 / 1000) (fun x => t.counts x.2)]
  refine List.countP_congr fun x _ => ?_
  have hlast : x.1 / 1000 < nowMs / 1000 - opts.windowSeconds + 1 + opts.windowSeconds ↔
      x.1 / 1000 ≤ nowMs / 1000 := by
    rw [add_right_comm, sub_add_cancel]
    exact Int.lt_add_one_iff
  simp only [hlast, Bool.and_eq_true, decide_eq_true_eq]
  tauto

/-- Every guardrail answer of a run is the one that all samples fed so far give. -/
theorem guardrail_exact (scale : LogScale) (runId : Uuid) (table : MetricTable) (opts : GuardrailOptions)
    (before after : List MeterOp) (nowMs : Time)
    (hopts : ∀ q o, .guardrail q o ∈ before ++ .guardrail nowMs opts :: after → o = opts)
    (hsorted : ((before ++ .guardrail nowMs opts :: after).filterMap MeterOp.query).Pairwise (· ≤ ·)) :
    ((Metering.after scale runId table before).agg.guardrail nowMs opts).2 =
      guardrailOf (before.filterMap MeterOp.request) nowMs opts := by
  have hkept : Kept opts before (Metering.after scale runId table before).agg :=
    Kept.after opts table before fun q o ho => hopts q o (List.mem_append_left _ ho)
  have hq : ∀ q ∈ before.filterMap MeterOp.query, q ≤ nowMs := by
    rw [List.filterMap_append, List.pairwise_append] at hsorted
    exact fun q hq => hsorted.2.2 q hq nowMs (by simp [MeterOp.query])
  rw [guardrail_snd, guardrailOf]
  refine congrArg (guardrailResult opts) (funext fun t => window_sum t fun s hs => hkept t s fun q hqm => ?_)
  have hle : q / 1000 ≤ nowMs / 1000 := Int.ediv_le_ediv (by decide : (0 : Int) < 1000) (hq q hqm)
  linarith

/-- A second that was deleted comes back with a late sample, and a later window does not see it. -/
theorem guardrail_exact_late :
    let line : Time → Int → K6Line := fun time status =>
      ⟨true, some ("Point", "http_req_duration", ⟨time, 1, ⟨none, some (some status), some "false"⟩⟩)⟩
    let opts : GuardrailOptions := ⟨5, 1 / 4, 2, none, none⟩
    let before : List MeterOp := [.feed (line 1000 500), .guardrail 20000 opts, .feed (line 1500 500),
      .feed (line 39000 500), .feed (line 39500 200)]
    ((Metering.after ⟨fun _ => 0, fun _ => 0⟩ 1 [] before).agg.guardrail 40000 opts).2 =
      guardrailOf [(1000, some 500), (1500, some 500), (39000, some 500), (39500, some 200)] 40000 opts := by
  intro line opts before
  refine guardrail_exact ⟨fun _ => 0, fun _ => 0⟩ 1 [] opts before [] 40000 ?_ ?_
  · intro q o ho
    simp only [before, List.cons_append, List.nil_append, List.mem_cons, reduceCtorEq, MeterOp.guardrail.injEq,
      false_or, List.not_mem_nil, or_false] at ho
    rcases ho with ⟨-, rfl⟩ | ⟨-, rfl⟩ <;> rfl
  · exact List.Pairwise.cons (by decide) (List.pairwise_singleton _ _)

end CronMonitor.LoadTest
