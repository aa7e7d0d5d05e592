import CronMonitor.LoadTest.Slo
import CronMonitor.LoadTest.MetricsLaw
import CronMonitor.LoadTest.Stages

/-!
# Verdicts and numbers

The verdict on a completed run is the worst grade of its checks, so it follows the numbers: worse numbers never give a
better verdict. What a verdict leaves open is a run for a profile that looks for the limit: its checks inform and do not
grade, and a run in which nothing succeeded passes.
-/

namespace CronMonitor.LoadTest

def SloStatus.badness : SloStatus → Nat
  | pass | info => 0
  | warn => 1
  | fail => 2

/-- From the best verdict down. -/
def RunVerdict.rank : RunVerdict → Nat
  | pass => 0
  | passWithWarnings => 1
  | fail => 2
  | inconclusive => 3

def worst (checks : List SloCheck) : Nat := (checks.map (·.status.badness)).foldr max 0

theorem worst_le_iff {checks : List SloCheck} {k : Nat} : worst checks ≤ k ↔ ∀ c ∈ checks, c.status.badness ≤ k := by
  induction checks with
  | nil => simp [worst]
  | cons c rest ih =>
    have hcons : worst (c :: rest) = max c.status.badness (worst rest) := rfl
    rw [hcons, max_le_iff, ih, List.forall_mem_cons]

theorem worst_mono {cs ds : List SloCheck}
    (h : List.Forall₂ (fun c d => c.status.badness ≤ d.status.badness) cs ds) : worst cs ≤ worst ds := by
  induction h with
  | nil => exact le_rfl
  | cons hcd _ ih => exact max_le_max hcd ih

theorem worst_append (cs ds : List SloCheck) : worst (cs ++ ds) = max (worst cs) (worst ds) := by
  induction cs with
  | nil => exact (Nat.zero_max _).symm
  | cons c rest ih =>
    have hcons (l : List SloCheck) : worst (c :: l) = max c.status.badness (worst l) := rfl
    rw [List.cons_append, hcons, hcons, ih, max_assoc]

theorem SloStatus.badness_le_two (s : SloStatus) : s.badness ≤ 2 := by cases s <;> decide

theorem filter_status_eq_nil {checks : List SloCheck} {s : SloStatus} :
    (checks.filter (·.status = s)).length > 0 ↔ ∃ c ∈ checks, c.status = s := by
  rw [gt_iff_lt, List.length_pos_iff_exists_mem]
  simp only [List.mem_filter, decide_eq_true_eq]

section Verdict
variable (texts : NumberTexts) (cfg : PlanConfig) (slo : Option SloOverrides) (n : RunSummary) (reason : Option String)

/-- The checks of a completed run. -/
def checksOf : List SloCheck :=
  sloChecks texts n cfg.profile.seeksLimit (resolveSlo cfg slo) (expectedRequests cfg)

def completedVerdict : RunVerdict := (evaluateRunSlo texts ⟨cfg, slo, some n, .completed, reason⟩).verdict

variable {n}

/-- The verdict on a completed run is its worst grade. -/
theorem completedVerdict_rank (hn : n.generatorSaturated = false) :
    (completedVerdict texts cfg slo n reason).rank = worst (checksOf texts cfg slo n) := by
  unfold completedVerdict evaluateRunSlo
  simp only [reduceCtorEq, if_false, ne_eq, not_true_eq_false, hn, List.length_map, filter_status_eq_nil]
  rw [← checksOf]
  split
  case isTrue hfail =>
    obtain ⟨c, hc, hs⟩ := hfail
    have hle := worst_le_iff.1 (le_refl (worst (checksOf texts cfg slo n))) c hc
    have hge : worst (checksOf texts cfg slo n) ≤ 2 := worst_le_iff.2 fun c _ => c.status.badness_le_two
    rw [hs] at hle
    exact le_antisymm hle hge
  case isFalse hfail =>
    have hone : worst (checksOf texts cfg slo n) ≤ 1 := by
      refine worst_le_iff.2 fun c hc => ?_
      cases hs : c.status with
      | fail => exact absurd ⟨c, hc, hs⟩ hfail
      | pass => decide
      | warn => decide
      | info => decide
    split
    case isTrue hwarn =>
      obtain ⟨c, hc, hs⟩ := hwarn
      have hle := worst_le_iff.1 (le_refl (worst (checksOf texts cfg slo n))) c hc
      rw [hs] at hle
      exact le_antisymm hle hone
    case isFalse hwarn =>
      have hzero : worst (checksOf texts cfg slo n) ≤ 0 := by
        refine worst_le_iff.2 fun c hc => ?_
        cases hs : c.status with
        | fail => exact absurd ⟨c, hc, hs⟩ hfail
        | warn => exact absurd ⟨c, hc, hs⟩ hwarn
        | pass => decide
        | info => decide
      exact (Nat.le_zero.1 hzero).symm

end Verdict

/-! ### Grades follow their values -/

theorem gradeDown_mono {x y good fair : ℚ} (h : x ≤ y) : (gradeDown x good fair).badness ≤ (gradeDown y good fair).badness := by
  unfold gradeDown
  split_ifs <;> first | decide | linarith

theorem grade_mono {x y limit warnFactor : ℚ} (h : x ≤ y) :
    (grade x limit warnFactor).badness ≤ (grade y limit warnFactor).badness :=
  gradeDown_mono h

theorem gradeUp_anti {x y good fair : ℚ} (h : x ≤ y) : (gradeUp y good fair).badness ≤ (gradeUp x good fair).badness := by
  unfold gradeUp
  split_ifs <;> first | decide | linarith

theorem graded_mono (limitProfile : Bool) {s t : SloStatus} (h : s.badness ≤ t.badness) :
    (graded limitProfile s).badness ≤ (graded limitProfile t).badness := by
  cases limitProfile
  · exact h
  · cases s <;> cases t <;> decide

/-- Every value that is graded is at least as good in the first run. -/
structure GradesNoWorse (expected : Nat) (n m : RunSummary) : Prop where
  generator : n.generatorSaturated = m.generatorSaturated
  p95 : n.latencyMs.p95 ≤ m.latencyMs.p95
  p99 : n.latencyMs.p99 ≤ m.latencyMs.p99
  serverErr : n.serverErr ≤ m.serverErr
  clientErr : n.clientErr ≤ m.clientErr
  limited : n.limited ≤ m.limited
  ratio : m.ratio expected ≤ n.ratio expected
  auth401 : n.auth401 ≤ m.auth401
  sustained : m.maxSustainedRps ≤ n.maxSustainedRps

theorem worst_of_grades (texts : NumberTexts) (limitProfile : Bool) (slo : SloTargets) {expected : Nat} {n m : RunSummary}
    (h : GradesNoWorse expected n m) :
    worst (sloChecks texts n limitProfile slo expected) ≤ worst (sloChecks texts m limitProfile slo expected) := by
  have hgenerator : (generatorCheck texts n).status.badness ≤ (generatorCheck texts m).status.badness := by
    simp only [generatorCheck, h.generator, le_refl]
  have hcapacity : (capacityCheck texts n slo.requiredCapacityRps).status.badness ≤
      (capacityCheck texts m slo.requiredCapacityRps).status.badness := by
    cases slo.requiredCapacityRps with
    | none => exact le_rfl
    | some required => exact gradeUp_anti h.sustained
  unfold sloChecks
  rw [worst_append, worst_append]
  refine max_le_max (worst_mono (.cons hgenerator (.cons ?_ (.cons ?_ (.cons ?_ (.cons ?_ (.cons ?_ (.cons ?_
    (.cons ?_ .nil))))))))) ?_
  · exact graded_mono limitProfile (grade_mono h.p95)
  · exact graded_mono limitProfile (grade_mono h.p99)
  · exact graded_mono limitProfile (grade_mono h.serverErr)
  · exact graded_mono limitProfile (grade_mono h.clientErr)
  · exact graded_mono limitProfile (gradeDown_mono h.limited)
  · exact graded_mono limitProfile (gradeUp_anti h.ratio)
  · exact gradeDown_mono h.auth401
  · split
    · exact max_le_max hcapacity le_rfl
    · exact le_rfl

/-! ### Monotone verdicts -/

/-- The same number of requests, with more errors, longer times and less capacity. -/
structure WorseRun (n m : RunSummary) : Prop where
  total : m.totalRequests = n.totalRequests
  p95 : n.latencyMs.p95 ≤ m.latencyMs.p95
  p99 : n.latencyMs.p99 ≤ m.latencyMs.p99
  server5xx : n.errorClasses.server5xx ≤ m.errorClasses.server5xx
  rateLimited429 : n.errorClasses.rateLimited429 ≤ m.errorClasses.rateLimited429
  client4xx : n.errorClasses.client4xx ≤ m.errorClasses.client4xx
  networkOrTimeout : n.errorClasses.networkOrTimeout ≤ m.errorClasses.networkOrTimeout
  unexpectedOther : n.errorClasses.unexpectedOther ≤ m.errorClasses.unexpectedOther
  count401 : n.count401 ≤ m.count401
  sustained : m.maxSustainedRps ≤ n.maxSustainedRps

/-- More requests, with the same times, capacity and shares of errors. -/
structure BusierRun (n m : RunSummary) : Prop where
  total : n.totalRequests ≤ m.totalRequests
  latencyMs : m.latencyMs = n.latencyMs
  serverErr : m.serverErr = n.serverErr
  clientErr : m.clientErr = n.clientErr
  limited : m.limited = n.limited
  auth401 : m.auth401 = n.auth401
  sustained : m.maxSustainedRps = n.maxSustainedRps

variable {n m : RunSummary}

theorem RunSummary.share_mono (htotal : m.totalRequests = n.totalRequests) {a b : Nat} (h : a ≤ b) :
    n.share a ≤ m.share b := by
  unfold RunSummary.share
  rw [htotal]
  exact div_le_div_of_nonneg_right (Nat.cast_le.2 h) (Nat.cast_nonneg _)

theorem RunSummary.ratio_mono (expected : Nat) (h : n.totalRequests ≤ m.totalRequests) :
    n.ratio expected ≤ m.ratio expected := by
  unfold RunSummary.ratio
  split
  · exact div_le_div_of_nonneg_right (Nat.cast_le.2 h) (Nat.cast_nonneg _)
  · exact le_rfl

theorem WorseRun.grades (h : WorseRun n m) (hgen : n.generatorSaturated = m.generatorSaturated) (expected : Nat) :
    GradesNoWorse expected n m where
  generator := hgen
  p95 := h.p95
  p99 := h.p99
  serverErr := RunSummary.share_mono h.total (Nat.add_le_add h.server5xx h.networkOrTimeout)
  clientErr := RunSummary.share_mono h.total (Nat.add_le_add h.client4xx h.unexpectedOther)
  limited := RunSummary.share_mono h.total h.rateLimited429
  ratio := RunSummary.ratio_mono expected h.total.le
  auth401 := RunSummary.share_mono h.total h.count401
  sustained := h.sustained

theorem BusierRun.grades (h : BusierRun n m) (hgen : m.generatorSaturated = n.generatorSaturated) (expected : Nat) :
    GradesNoWorse expected m n where
  generator := hgen
  p95 := (congrArg LatencySummary.p95 h.latencyMs).le
  p99 := (congrArg LatencySummary.p99 h.latencyMs).le
  serverErr := h.serverErr.le
  clientErr := h.clientErr.le
  limited := h.limited.le
  ratio := RunSummary.ratio_mono expected h.total
  auth401 := h.auth401.le
  sustained := h.sustained.ge

/-- Worse numbers never give a better verdict, and more requests with the same shares never a worse one. -/
theorem verdict_monotone (texts : NumberTexts) (cfg : PlanConfig) (slo : Option SloOverrides)
    (reason reason' : Option String) (hn : n.generatorSaturated = false) (hm : m.generatorSaturated = false) :
    (WorseRun n m →
      (completedVerdict texts cfg slo n reason).rank ≤ (completedVerdict texts cfg slo m reason').rank) ∧
    (BusierRun n m →
      (completedVerdict texts cfg slo m reason').rank ≤ (completedVerdict texts cfg slo n reason).rank) ∧
    completedVerdict texts cfg slo n reason ≠ .inconclusive := by
  rw [completedVerdict_rank texts cfg slo reason hn, completedVerdict_rank texts cfg slo reason' hm]
  refine ⟨fun h => worst_of_grades _ _ _ (h.grades (hn.trans hm.symm) _),
    fun h => worst_of_grades _ _ _ (h.grades (hm.trans hn.symm) _), fun hinc => ?_⟩
  -- no check grades worse than a failure
  have hrank := completedVerdict_rank texts cfg slo reason hn
  have hle : worst (checksOf texts cfg slo n) ≤ 2 := worst_le_iff.2 fun c _ => c.status.badness_le_two
  rw [hinc] at hrank
  rw [← hrank] at hle
  exact absurd hle (by decide)

/-- A run with twenty failed requests against one with five, under objectives with an unusual limit of its own. -/
theorem verdict_monotone_load :
    let cfg : PlanConfig := ⟨.load, .get, none, false, false, 1, 10, 60, 20, 10, by decide, by decide, by decide, rfl⟩
    let slo : SloOverrides := ⟨none, none, none, none, some (3 / 4), none, none, by simp, by simp, by simp, by simp,
      by norm_num, by simp, by simp⟩
    let numbers : Nat → RunSummary := fun failed => ⟨500, failed, failed / 500, [("200", 500 - failed), ("503", failed)],
      ⟨failed, 0, 0, 0, 0⟩, ⟨80, 70, 90, 120, 300, 400⟩, 9, 12, 10, 0, false, 3, 55⟩
    (completedVerdict ⟨fun _ => "", fun _ => ""⟩ cfg slo (numbers 5) none).rank ≤
      (completedVerdict ⟨fun _ => "", fun _ => ""⟩ cfg slo (numbers 20) none).rank := by
  intro cfg slo numbers
  refine (verdict_monotone ⟨fun _ => "", fun _ => ""⟩ cfg slo none none rfl rfl).1 ?_
  exact ⟨rfl, le_rfl, le_rfl, by decide, le_rfl, le_rfl, le_rfl, le_rfl, le_rfl, le_rfl⟩

/-! ### Nothing succeeded -/

theorem failed_le_total (scale : LogScale) (runId : Uuid) (table : MetricTable) (ops : List MeterOp) :
    (Metering.after scale runId table ops).agg.failed ≤ (Metering.after scale runId table ops).agg.total := by
  induction ops using List.reverseRecOn with
  | nil => exact le_rfl
  | append_singleton ops op ih =>
    rw [after_snoc]
    cases op with
    | feed line =>
      show ((Metering.after scale runId table ops).agg.feed scale line).1.counts.failures ≤
        ((Metering.after scale runId table ops).agg.feed scale line).1.counts.requests
      cases hs : line.sample with
      | none =>
        rw [(feed_of_none scale _ hs).2.1]
        exact ih
      | some p =>
        obtain ⟨hist, -, hcounts, -⟩ := feed_of_some scale (Metering.after scale runId table ops).agg hs
        rw [hcounts]
        simp only [Counts.add, RunAggregator.counts]
        split <;> omega
    | guardrail nowMs opts => exact ih
    | drain beforeMs => exact ih

/-- In what an aggregator sums up, the error classes are the failed requests. -/
theorem summary_classes (scale : LogScale) (runId : Uuid) (table : MetricTable) (ops : List MeterOp) :
    ((Metering.after scale runId table ops).agg.summary scale).errorClasses.sum ≤
      ((Metering.after scale runId table ops).agg.summary scale).totalRequests := by
  have hbooks := (@Books.after scale runId table ops).classes
  have hle := failed_le_total scale runId table ops
  show (Metering.after scale runId table ops).agg.classes.sum ≤ (Metering.after scale runId table ops).agg.total
  omega

theorem expectedRequests_pos (cfg : PlanConfig) : 0 < expectedRequests cfg := by
  obtain ⟨s, rest, hs, hd, ht⟩ := buildStages_head cfg
  have harea : (1 : ℚ) / 2 ≤ rampArea 0 (buildStages cfg) := by
    have hd' : (1 : ℚ) ≤ s.durationSeconds := by exact_mod_cast hd
    have ht' : (1 : ℚ) ≤ s.target := by exact_mod_cast ht
    have hrest := rampArea_nonneg s.target rest
    rw [hs, rampArea]
    push_cast
    nlinarith
  have hfloor : 1 ≤ mathRound (rampArea 0 (buildStages cfg)) := by
    rw [mathRound, Int.le_floor]
    push_cast
    linarith
  unfold expectedRequests
  omega

/-! ### Passing without success -/

/-- A pass says that the run completed, the generator kept up and a request succeeded. -/
def PassMeansSuccess (texts : NumberTexts) (input : EvaluateInput) : Prop :=
  ((evaluateRunSlo texts input).verdict = .pass ∨ (evaluateRunSlo texts input).verdict = .passWithWarnings) →
    input.runStatus = .completed ∧ ∃ n, input.numbers = some n ∧ n.generatorSaturated = false ∧
      n.errorClasses.sum < n.totalRequests

/-- A completed run for a limit-seeking profile, at speed and without a wave of 401s, in which no request succeeded. -/
def ServedNothing (input : EvaluateInput) : Prop :=
  input.config.profile.seeksLimit = true ∧ input.runStatus = .completed ∧ ∃ n, input.numbers = some n ∧
    n.generatorSaturated = false ∧ n.totalRequests = n.errorClasses.sum ∧ n.auth401 ≤ 1 / 100

/-- The numbers that an aggregator can produce. -/
def Produced (scale : LogScale) (n : RunSummary) : Prop :=
  ∃ (runId : Uuid) (table : MetricTable) (ops : List MeterOp),
    n = (Metering.after scale runId table ops).agg.summary scale

variable {texts : NumberTexts} {cfg : PlanConfig} {slo : Option SloOverrides} {reason : Option String}

theorem verdict_pass_iff (hn : n.generatorSaturated = false) :
    (completedVerdict texts cfg slo n reason = .pass ∨ completedVerdict texts cfg slo n reason = .passWithWarnings) ↔
      ∀ c ∈ checksOf texts cfg slo n, c.status ≠ .fail := by
  have hrank := completedVerdict_rank texts cfg slo reason hn
  have hle : worst (checksOf texts cfg slo n) ≤ 1 ↔ ∀ c ∈ checksOf texts cfg slo n, c.status ≠ .fail := by
    rw [worst_le_iff]
    refine forall₂_congr fun c _ => ?_
    cases c.status <;> decide
  rw [← hle, ← hrank]
  cases completedVerdict texts cfg slo n reason <;> simp [RunVerdict.rank]

theorem share_add (n : RunSummary) (a b : Nat) : n.share (a + b) = n.share a + n.share b := by
  unfold RunSummary.share
  push_cast
  ring

/-- Shares of one are all requests. -/
theorem share_sum (n : RunSummary) : n.serverErr + n.clientErr + n.limited = n.share n.errorClasses.sum := by
  unfold RunSummary.serverErr RunSummary.clientErr RunSummary.limited
  rw [← share_add, ← share_add]
  congr 1
  unfold ErrorClasses.sum
  omega

theorem not_fail_grade {x limit w : ℚ} (hw : limit ≤ limit * w) (h : grade x limit w ≠ .fail) : x ≤ limit * w := by
  unfold grade at h
  split_ifs at h with h1 h2
  · exact h1.trans hw
  · exact h2
  · exact absurd rfl h

theorem gradeDown_fail_iff {x good fair : ℚ} (h : good ≤ fair) : gradeDown x good fair = .fail ↔ fair < x := by
  unfold gradeDown
  split_ifs with h1 h2
  · exact iff_of_false (by decide) (by linarith)
  · exact iff_of_false (by decide) (by linarith)
  · exact iff_of_true rfl (not_le.1 h2)

theorem mem_checksOf {c : SloCheck} (h : c ∈ sloChecks texts n cfg.profile.seeksLimit (resolveSlo cfg slo)
    (expectedRequests cfg)) : c ∈ checksOf texts cfg slo n := h

/-- The limit-seeking profiles fail on 401s alone. -/
theorem checks_of_limit (hlimit : cfg.profile.seeksLimit = true) (hn : n.generatorSaturated = false) :
    (∀ c ∈ checksOf texts cfg none n, c.status ≠ .fail) ↔ n.auth401 ≤ 1 / 100 := by
  have hinfo (s : SloStatus) : graded true s ≠ .fail := by cases s <;> decide
  have hauth : (authCheck texts n).status ≠ .fail ↔ n.auth401 ≤ 1 / 100 := by
    show gradeDown n.auth401 (1 / 1000) (1 / 100) ≠ .fail ↔ _
    rw [ne_eq, gradeDown_fail_iff (by norm_num), not_lt]
  rw [← hauth]
  constructor
  · intro h
    exact h _ (mem_checksOf (by simp [sloChecks]))
  · intro h
    have hgenerator : (generatorCheck texts n).status ≠ .fail := by simp [generatorCheck, hn]
    have hcapacity : (capacityCheck texts n none).status ≠ .fail := by simp [capacityCheck]
    have hnil : ∀ c ∈ ([] : List SloCheck), c.status ≠ .fail := fun c hc => absurd hc List.not_mem_nil
    simp only [checksOf, sloChecks, hlimit, Bool.true_or, if_true, List.forall_mem_append, List.forall_mem_cons]
    exact ⟨⟨hgenerator, hinfo _, hinfo _, hinfo _, hinfo _, hinfo _, hinfo _, h, hnil⟩, hcapacity, hnil⟩

/-- Where the checks grade, a run without a failed check served something. -/
theorem served_of_checks (hlimit : cfg.profile.seeksLimit = false)
    (h : ∀ c ∈ checksOf texts cfg none n, c.status ≠ .fail) : n.errorClasses.sum ≠ n.totalRequests := by
  intro hall
  simp only [checksOf, sloChecks, hlimit, List.forall_mem_append, List.forall_mem_cons] at h
  obtain ⟨⟨-, -, -, hserver, hclient, hlimited, hratio, -⟩, -⟩ := h
  have hserver' : n.serverErr ≤ 1 / 100 * 2 := not_fail_grade (by norm_num) hserver
  have hclient' : n.clientErr ≤ 1 / 100 * 3 := not_fail_grade (by norm_num) hclient
  have hlimited' : n.limited ≤ 1 / 2 := by
    have hdown : gradeDown n.limited (5 / 100) (1 / 2) ≠ .fail := hlimited
    rw [ne_eq, gradeDown_fail_iff (by norm_num), not_lt] at hdown
    exact hdown
  have hshare : n.share n.errorClasses.sum ≤ 55 / 100 := by
    rw [← share_sum]
    linarith
  rcases Nat.eq_zero_or_pos n.totalRequests with hzero | hpos
  · -- without any request nothing of the planned load was delivered
    have hup : gradeUp (n.ratio (expectedRequests cfg)) (9 / 10) (75 / 100) ≠ .fail := hratio
    have hr : n.ratio (expectedRequests cfg) = 0 := by
      rw [RunSummary.ratio, if_pos (expectedRequests_pos cfg), hzero, Nat.cast_zero, zero_div]
    rw [hr] at hup
    exact hup (by decide +kernel)
  · have hone : n.share n.errorClasses.sum = 1 := by
      rw [hall, RunSummary.share, max_eq_right hpos]
      exact div_self (Nat.cast_ne_zero.2 hpos.ne')
    rw [hone] at hshare
    norm_num at hshare

/-- Without overrides, a pass means success if and only if this is no limit-seeking run that served nothing. -/
theorem pass_means_success_iff (texts : NumberTexts) (scale : LogScale) (cfg : PlanConfig) (status : LoadRunStatus)
    (reason : Option String) (numbers : Option RunSummary) (hproduced : ∀ n ∈ numbers, Produced scale n) :
    PassMeansSuccess texts ⟨cfg, none, numbers, status, reason⟩ ↔ ¬ ServedNothing ⟨cfg, none, numbers, status, reason⟩ := by
  constructor
  · rintro hpass ⟨hlimit, hstatus, n, hn, hgen, hall, hauth⟩
    obtain rfl : numbers = some n := hn
    obtain rfl : status = .completed := hstatus
    have hverdict := (@verdict_pass_iff _ texts _ _ reason hgen).2
      ((@checks_of_limit _ texts _ hlimit hgen).2 hauth)
    obtain ⟨-, n', hn', -, hlt⟩ := hpass hverdict
    obtain rfl := Option.some.inj hn'
    omega
  · intro hserved hverdict
    cases numbers with
    | none => simp [evaluateRunSlo] at hverdict
    | some n =>
      have hstatus : status = .completed := by
        by_contra hne
        unfold evaluateRunSlo at hverdict
        simp only [ne_eq, hne, not_false_eq_true, if_true] at hverdict
        split_ifs at hverdict <;> simp at hverdict
      subst hstatus
      have hgen : n.generatorSaturated = false := by
        by_contra hsat
        rw [Bool.not_eq_false] at hsat
        simp [evaluateRunSlo, hsat] at hverdict
      have hchecks := (verdict_pass_iff hgen).1 hverdict
      refine ⟨rfl, n, rfl, hgen, ?_⟩
      obtain ⟨runId, table, ops, hops⟩ := hproduced n rfl
      have hle : n.errorClasses.sum ≤ n.totalRequests := hops ▸ summary_classes scale runId table ops
      refine lt_of_le_of_ne hle fun hall => ?_
      cases hlimit : cfg.profile.seeksLimit with
      | true => exact hserved ⟨hlimit, rfl, n, rfl, hgen, hall.symm, (checks_of_limit hlimit hgen).1 hchecks⟩
      | false => exact served_of_checks hlimit hchecks hall

/-- Nine requests in ten seconds, for a rate of one a second, pass. -/
theorem pass_means_success_load :
    let cfg : PlanConfig := ⟨.load, .get, none, false, false, 1, 1, 10, 20, 10, by decide, by decide, by decide, rfl⟩
    let scale : LogScale := ⟨fun _ => 0, fun _ => 100⟩
    let feeds : List MeterOp := (List.range 9).map fun k =>
      .feed ⟨true, some ("Point", "http_req_duration", ⟨1000 + 1000 * k, 90, ⟨none, some (some 200), none⟩⟩)⟩
    let input : EvaluateInput :=
      ⟨cfg, none, some ((Metering.after scale 1 [] feeds).agg.summary scale), .completed, some "completed"⟩
    (evaluateRunSlo ⟨fun _ => "", fun _ => ""⟩ input).verdict = .pass ∧ PassMeansSuccess ⟨fun _ => "", fun _ => ""⟩ input := by
  intro cfg scale feeds input
  refine ⟨by decide +kernel, (pass_means_success_iff ⟨fun _ => "", fun _ => ""⟩ scale cfg .completed (some "completed") _ ?_).2 ?_⟩
  · rintro n hn
    obtain rfl := Option.some.inj hn
    exact ⟨1, [], feeds, rfl⟩
  · rintro ⟨hlimit, -⟩
    cases hlimit

/-- A BREAKPOINT run whose only request failed meets every objective. -/
theorem breakpoint_passes_unserved :
    let cfg : PlanConfig :=
      ⟨.breakpoint, .get, none, false, false, 1, 10, 60, 20, 10, by decide, by decide, by decide, rfl⟩
    let scale : LogScale := ⟨fun _ => 0, fun _ => 100⟩
    let line : K6Line := ⟨true, some ("Point", "http_req_duration", ⟨1000, 90, ⟨none, some (some 500), some "false"⟩⟩)⟩
    ¬ PassMeansSuccess ⟨fun _ => "", fun _ => ""⟩
      ⟨cfg, none, some ((Metering.after scale 1 [] [.feed line]).agg.summary scale), .completed, some "completed"⟩ := by
  intro cfg scale line hpass
  obtain ⟨-, n, hn, -, hlt⟩ := hpass (.inl (by decide +kernel))
  obtain rfl := Option.some.inj hn
  revert hlt
  decide +kernel

end CronMonitor.LoadTest
