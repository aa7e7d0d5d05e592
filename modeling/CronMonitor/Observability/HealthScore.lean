import Mathlib
import CronMonitor.Lib.Text

/-!
# `health-score.ts`

A number per service from four weighted sub-scores. Every share is rounded to a tenth before the shares are added, so the
score is the weighted mean and the rounding errors of its shares. `Number` of a text is a parameter: the finite number it
is, if it is one. The sub-score curves are here with the range that they keep to, and `Measures.subScores` is what
`serviceHealthScore` hands over. Numbers are exact rationals where the source rounds doubles.
-/

namespace CronMonitor.Observability.HealthScore

inductive Key
  | availability | latency | errorRate | dependencyHealth
deriving DecidableEq, Repr

def keys : List Key := [.availability, .latency, .errorRate, .dependencyHealth]

structure ScoreWeights where
  weight : Key → ℚ
  nonneg : ∀ k, 0 ≤ weight k

/-- The weights of a list of four. -/
def fromParts (availability latency errorRate dependencyHealth : ℚ) : Key → ℚ
  | .availability => availability
  | .latency => latency
  | .errorRate => errorRate
  | .dependencyHealth => dependencyHealth

def DEFAULT_SCORE_WEIGHTS : ScoreWeights where
  weight := fromParts 40 25 20 15
  nonneg k := by cases k <;> simp [fromParts]

/-- The numbers of the parts, all of them finite. -/
def numbers (number : String → Option ℚ) (raw : String) : Option (List ℚ) :=
  (raw.toList.splitOn ',').mapM fun p => number (Text.trim (String.ofList p))

def parseWeights (number : String → Option ℚ) (raw : Option String) : ScoreWeights :=
  match raw with
  | none => DEFAULT_SCORE_WEIGHTS
  | some raw =>
    if raw = "" then DEFAULT_SCORE_WEIGHTS
    else
      match numbers number raw with
      | some [a, l, e, d] =>
        if h : 0 ≤ a ∧ 0 ≤ l ∧ 0 ≤ e ∧ 0 ≤ d then
          ⟨fromParts a l e d, fun k => by cases k <;> simp only [fromParts, h]⟩
        else DEFAULT_SCORE_WEIGHTS
      | _ => DEFAULT_SCORE_WEIGHTS

/-- A sub-score. -/
abbrev SubScore := {x : ℚ // 0 ≤ x ∧ x ≤ 100}

/-- `none` where there is no data. -/
abbrev SubScores := Key → Option SubScore

inductive ScoreBand
  | healthy | degraded | critical | noData
deriving DecidableEq, Repr

structure Contribution where
  key : Key
  sub : Option SubScore
  weight : ℚ
  points : Option ℚ

structure HealthScoreResult where
  score : Option ℚ
  band : ScoreBand
  contributions : List Contribution

def band : Option ℚ → ScoreBand
  | none => .noData
  | some score => if 85 ≤ score then .healthy else if 60 ≤ score then .degraded else .critical

/-- `Number(x.toFixed(1))` of a number that is not negative. -/
def tenth (x : ℚ) : ℚ := ⌊10 * x + 1 / 2⌋ / 10

def totalWeight (subs : SubScores) (weights : ScoreWeights) : ℚ :=
  ((keys.filter fun k => (subs k).isSome).map weights.weight).sum

def contribution (subs : SubScores) (weights : ScoreWeights) (key : Key) : Contribution where
  key := key
  sub := subs key
  weight := weights.weight key
  points :=
    match subs key with
    | none => none
    | some sub =>
      if totalWeight subs weights = 0 then none else some (tenth (sub * weights.weight key / totalWeight subs weights))

/-- Weighted mean over the sub-scores that have data. -/
def computeHealthScore (subs : SubScores) (weights : ScoreWeights) : HealthScoreResult :=
  let contributions := keys.map (contribution subs weights)
  let score :=
    if totalWeight subs weights = 0 then none else some (tenth (contributions.map fun c => c.points.getD 0).sum)
  ⟨score, band score, contributions⟩

/-! ### The curves -/

section Curves

theorem clamp_range (x : ℚ) : 0 ≤ max 0 (min 100 x) ∧ max 0 (min 100 x) ≤ 100 :=
  ⟨le_max_left _ _, max_le (by norm_num) (min_le_left _ _)⟩

theorem tenth_mono {x y : ℚ} (h : x ≤ y) : tenth x ≤ tenth y :=
  div_le_div_of_nonneg_right (Int.cast_le.2 (Int.floor_le_floor (by linarith))) (by norm_num)

/-- A number of tenths stays. -/
theorem tenth_tenths (n : ℤ) : tenth (n / 10) = n / 10 := by
  have hfloor : ⌊10 * ((n : ℚ) / 10) + 1 / 2⌋ = n := by
    rw [mul_div_cancel₀ _ (by norm_num : (10 : ℚ) ≠ 0), Int.floor_eq_iff]
    constructor <;> linarith
  rw [tenth, hfloor]

theorem tenth_range {x : ℚ} (h : 0 ≤ x ∧ x ≤ 100) : 0 ≤ tenth x ∧ tenth x ≤ 100 := by
  have hzero : tenth 0 = 0 := by simpa using tenth_tenths 0
  have hhundred : tenth 100 = 100 := by
    have := tenth_tenths 1000
    norm_num at this
    exact this
  exact ⟨hzero ▸ tenth_mono h.1, hhundred ▸ tenth_mono h.2⟩

def availabilitySubScore (uptimePercent : Option ℚ) : Option SubScore :=
  uptimePercent.map fun x => ⟨max 0 (min 100 x), clamp_range x⟩

theorem latency_range {p95Ms normalMs criticalMs : ℚ} (hnormal : normalMs < p95Ms) (hcritical : p95Ms < criticalMs) :
    0 ≤ 100 * (1 - (p95Ms - normalMs) / (criticalMs - normalMs)) ∧
      100 * (1 - (p95Ms - normalMs) / (criticalMs - normalMs)) ≤ 100 := by
  have hpos : 0 < criticalMs - normalMs := by linarith
  have hlow : 0 ≤ (p95Ms - normalMs) / (criticalMs - normalMs) := div_nonneg (by linarith) hpos.le
  have hhigh : (p95Ms - normalMs) / (criticalMs - normalMs) ≤ 1 := (div_le_one hpos).2 (by linarith)
  constructor <;> linarith

def latencySubScore (p95Ms : Option ℚ) (normalMs criticalMs : ℚ) : Option SubScore :=
  p95Ms.map fun x =>
    if hnormal : x ≤ normalMs then ⟨100, by norm_num⟩
    else if hcritical : criticalMs ≤ x then ⟨0, by norm_num⟩
    else ⟨tenth (100 * (1 - (x - normalMs) / (criticalMs - normalMs))),
      tenth_range (latency_range (not_le.1 hnormal) (not_le.1 hcritical))⟩

theorem errorRate_range (x : ℚ) :
    0 ≤ 100 * (1 - max 0 (min 1 (x / 12))) ^ 2 ∧ 100 * (1 - max 0 (min 1 (x / 12))) ^ 2 ≤ 100 := by
  have hlow : 0 ≤ max 0 (min 1 (x / 12)) := le_max_left _ _
  have hhigh : max 0 (min 1 (x / 12)) ≤ 1 := max_le (by norm_num) (min_le_left _ _)
  constructor
  · positivity
  · nlinarith

def errorRateSubScore (errorRatePercent : Option ℚ) : Option SubScore :=
  errorRatePercent.map fun x => ⟨tenth (100 * (1 - max 0 (min 1 (x / 12))) ^ 2), tenth_range (errorRate_range x)⟩

structure DependencyInputs where
  openIncident : Bool
  openIncidentCategory : Option String
  dependencyIncidents24h : ℕ
  flapping24h : ℕ

/-- The penalties. -/
def penalty (i : DependencyInputs) : ℕ :=
  (if i.openIncident then
    if i.openIncidentCategory = some "DEPENDENCY" ∨ i.openIncidentCategory = some "DATABASE" then 55 else 25
  else 0) + min 30 (i.dependencyIncidents24h * 15) + min 20 (i.flapping24h * 10)

def dependencySubScore (i : DependencyInputs) : SubScore :=
  ⟨max 0 (100 - penalty i), le_max_left _ _, max_le (by norm_num) (by linarith [(penalty i).cast_nonneg (α := ℚ)])⟩

/-! A curve goes one way. -/

theorem SubScore.le_hundred (x : SubScore) : x ≤ ⟨100, by norm_num⟩ := x.2.2

theorem SubScore.zero_le (x : SubScore) : ⟨0, by norm_num⟩ ≤ x := x.2.1

theorem availability_mono {x y : Option ℚ} (h : Option.Rel (· ≤ ·) x y) :
    Option.Rel (· ≤ ·) (availabilitySubScore x) (availabilitySubScore y) := by
  cases h with
  | none => exact .none
  | some h => exact .some (Subtype.mk_le_mk.2 (max_le_max_left 0 (min_le_min_left 100 h)))

theorem latency_anti {normalMs criticalMs : ℚ} {x y : Option ℚ} (h : Option.Rel (· ≥ ·) x y) :
    Option.Rel (· ≤ ·) (latencySubScore x normalMs criticalMs) (latencySubScore y normalMs criticalMs) := by
  cases h with
  | none => exact .none
  | @some x y h =>
    refine .some ?_
    beta_reduce
    by_cases hy : y ≤ normalMs
    · rw [dif_pos hy]
      exact SubScore.le_hundred _
    · have hx : ¬ x ≤ normalMs := fun hx => hy (le_trans h hx)
      rw [dif_neg hx, dif_neg hy]
      by_cases hx' : criticalMs ≤ x
      · rw [dif_pos hx']
        exact SubScore.zero_le _
      · have hy' : ¬ criticalMs ≤ y := fun hy' => hx' (le_trans hy' h)
        rw [dif_neg hx', dif_neg hy']
        have hpos : 0 < criticalMs - normalMs := by linarith [not_le.1 hx, not_le.1 hx']
        have hle : (y - normalMs) / (criticalMs - normalMs) ≤ (x - normalMs) / (criticalMs - normalMs) :=
          div_le_div_of_nonneg_right (sub_le_sub_right h normalMs) hpos.le
        exact Subtype.mk_le_mk.2 (tenth_mono (by linarith))

theorem errorRate_anti {x y : Option ℚ} (h : Option.Rel (· ≥ ·) x y) :
    Option.Rel (· ≤ ·) (errorRateSubScore x) (errorRateSubScore y) := by
  cases h with
  | none => exact .none
  | @some x y h =>
    refine .some (Subtype.mk_le_mk.2 (tenth_mono (mul_le_mul_of_nonneg_left (pow_le_pow_left₀ ?_ ?_ 2) (by norm_num))))
    · exact sub_nonneg.2 (max_le zero_le_one (min_le_left _ _))
    · exact sub_le_sub_left (max_le_max_left 0 (min_le_min_left 1 (div_le_div_of_nonneg_right h (by norm_num)))) 1

theorem dependency_anti {i j : DependencyInputs} (h : penalty j ≤ penalty i) :
    dependencySubScore i ≤ dependencySubScore j := by
  have hcast : (penalty j : ℚ) ≤ penalty i := Nat.cast_le.2 h
  exact Subtype.mk_le_mk.2 (max_le_max_left 0 (sub_le_sub_left hcast 100))

end Curves

/-- What is measured of a service in the window of the score. -/
structure Measures where
  uptimePercent : Option ℚ
  currentP95 : Option ℚ
  errorPercent : Option ℚ
  deps : DependencyInputs

/-- The sub-scores of `serviceHealthScore`. -/
def Measures.subScores (m : Measures) (normalMs criticalMs : ℚ) : SubScores
  | .availability => availabilitySubScore m.uptimePercent
  | .latency => latencySubScore m.currentP95 normalMs criticalMs
  | .errorRate => errorRateSubScore m.errorPercent
  | .dependencyHealth => some (dependencySubScore m.deps)

/-- Nothing that is measured got worse. -/
structure Measures.NoWorse (m m' : Measures) : Prop where
  uptimePercent : Option.Rel (· ≤ ·) m.uptimePercent m'.uptimePercent
  currentP95 : Option.Rel (· ≥ ·) m.currentP95 m'.currentP95
  errorPercent : Option.Rel (· ≥ ·) m.errorPercent m'.errorPercent
  penalty : penalty m'.deps ≤ penalty m.deps

theorem Measures.NoWorse.subScores {m m' : Measures} (h : m.NoWorse m') (normalMs criticalMs : ℚ) (k : Key) :
    Option.Rel (· ≤ ·) (m.subScores normalMs criticalMs k) (m'.subScores normalMs criticalMs k) := by
  cases k with
  | availability => exact availability_mono h.uptimePercent
  | latency => exact latency_anti h.currentP95
  | errorRate => exact errorRate_anti h.errorPercent
  | dependencyHealth => exact .some (dependency_anti h.penalty)

/-! ### The score -/

section Score
variable (subs : SubScores) (weights : ScoreWeights)

/-- What a sub-score adds to the mean, before rounding. -/
def share (key : Key) : ℚ :=
  match subs key with
  | none => 0
  | some sub => sub * weights.weight key / totalWeight subs weights

def mean : ℚ := (keys.map (share subs weights)).sum

/-- What rounding to a tenth adds. -/
def roundingError (x : ℚ) : ℚ := tenth x - x

def errors : ℚ := (keys.map fun k => roundingError (share subs weights k)).sum

variable {subs weights}

theorem points_eq (htotal : totalWeight subs weights ≠ 0) (key : Key) :
    (contribution subs weights key).points.getD 0 = tenth (share subs weights key) := by
  rw [contribution, share]
  cases subs key with
  | none => simpa using (tenth_tenths 0).symm
  | some sub => simp only [if_neg htotal, Option.getD_some]

/-- A sum of tenths is a number of tenths. -/
theorem exists_tenths (xs : List ℚ) : ∃ n : ℤ, (xs.map tenth).sum = n / 10 := by
  induction xs with
  | nil => exact ⟨0, by simp⟩
  | cons x xs ih =>
    obtain ⟨n, hn⟩ := ih
    refine ⟨⌊10 * x + 1 / 2⌋ + n, ?_⟩
    rw [List.map_cons, List.sum_cons, hn, tenth, ← add_div, Int.cast_add]

theorem sum_tenth (xs : List ℚ) : (xs.map tenth).sum = xs.sum + (xs.map roundingError).sum := by
  induction xs with
  | nil => simp
  | cons x xs ih =>
    simp only [List.map_cons, List.sum_cons, ih, roundingError]
    ring

theorem score_eq (htotal : totalWeight subs weights ≠ 0) :
    (computeHealthScore subs weights).score = some ((keys.map (share subs weights)).map tenth).sum := by
  have hpoints : (keys.map (contribution subs weights)).map (fun c => c.points.getD 0) =
      (keys.map (share subs weights)).map tenth := by
    simp only [List.map_map]
    exact List.map_congr_left fun key _ => points_eq htotal key
  obtain ⟨n, hn⟩ := exists_tenths (keys.map (share subs weights))
  rw [computeHealthScore, hpoints, if_neg htotal, hn, tenth_tenths]

/-- The score is the mean and the errors of its shares. -/
theorem score_eq_mean (htotal : totalWeight subs weights ≠ 0) :
    (computeHealthScore subs weights).score = some (mean subs weights + errors subs weights) := by
  rw [score_eq htotal, sum_tenth, mean, errors, List.map_map]
  rfl

theorem score_eq_none_iff : (computeHealthScore subs weights).score = none ↔ totalWeight subs weights = 0 := by
  by_cases htotal : totalWeight subs weights = 0
  · simp [computeHealthScore, htotal]
  · simp [score_eq htotal, htotal]

/-! ### Sub-scores that increase -/

section Raise
variable {subs' : SubScores}

theorem isSome_of_rel {r : SubScore → SubScore → Prop} {x y : Option SubScore} (h : Option.Rel r x y) :
    y.isSome = x.isSome := by
  cases h <;> rfl

theorem totalWeight_congr (h : ∀ k, Option.Rel (· ≤ ·) (subs k) (subs' k)) :
    totalWeight subs' weights = totalWeight subs weights := by
  have hsame : (fun k => (subs' k).isSome) = fun k => (subs k).isSome := by
    funext k
    exact isSome_of_rel (h k)
  rw [totalWeight, hsame, totalWeight]

theorem totalWeight_nonneg : 0 ≤ totalWeight subs weights :=
  List.sum_nonneg fun x hx => by
    obtain ⟨k, -, rfl⟩ := List.mem_map.1 hx
    exact weights.nonneg k

theorem share_mono (h : ∀ k, Option.Rel (· ≤ ·) (subs k) (subs' k)) (k : Key) :
    share subs weights k ≤ share subs' weights k := by
  rw [share, share, totalWeight_congr h]
  generalize subs k = x, subs' k = y, h k = hk
  cases hk with
  | none => exact le_rfl
  | some hle => exact div_le_div_of_nonneg_right (mul_le_mul_of_nonneg_right hle (weights.nonneg k)) totalWeight_nonneg

theorem score_mono (h : ∀ k, Option.Rel (· ≤ ·) (subs k) (subs' k)) {score score' : ℚ}
    (hscore : (computeHealthScore subs weights).score = some score)
    (hscore' : (computeHealthScore subs' weights).score = some score') : score ≤ score' := by
  have htotal : totalWeight subs weights ≠ 0 := fun h => by simp [score_eq_none_iff.2 h] at hscore
  have htotal' : totalWeight subs' weights ≠ 0 := by rwa [totalWeight_congr h]
  rw [score_eq htotal] at hscore
  rw [score_eq htotal'] at hscore'
  obtain rfl := Option.some.inj hscore
  obtain rfl := Option.some.inj hscore'
  simp only [List.map_map]
  exact List.sum_le_sum fun k _ => tenth_mono (share_mono h k)

/-- A service of which nothing got worse has no lower score. -/
theorem score_noWorse {m m' : Measures} (h : m.NoWorse m') (normalMs criticalMs : ℚ) {score score' : ℚ}
    (hscore : (computeHealthScore (m.subScores normalMs criticalMs) weights).score = some score)
    (hscore' : (computeHealthScore (m'.subScores normalMs criticalMs) weights).score = some score') : score ≤ score' :=
  score_mono (h.subScores normalMs criticalMs) hscore hscore'

theorem rel_update {k : Key} {x y : SubScore} (hx : subs k = some x) (hxy : x ≤ y) (j : Key) :
    Option.Rel (· ≤ ·) (subs j) (Function.update subs k (some y) j) := by
  by_cases hj : j = k
  · rw [hj, Function.update_self, hx]
    exact .some hxy
  · rw [Function.update_of_ne hj]
    cases subs j with
    | none => exact .none
    | some sub => exact .some le_rfl

end Raise

/-! ### A true weighted mean -/

/-- The sub-scores with a positive weight. -/
def Counted (subs : SubScores) (weights : ScoreWeights) (x : ℚ) : Prop :=
  ∃ k sub, subs k = some sub ∧ 0 < weights.weight k ∧ x = sub

structure TrueMean (subs : SubScores) (weights : ScoreWeights) : Prop where
  none_iff : (computeHealthScore subs weights).score = none ↔ totalWeight subs weights = 0
  between : ∀ score, (computeHealthScore subs weights).score = some score →
    ∃ least greatest, IsLeast {x | Counted subs weights x} least ∧ IsGreatest {x | Counted subs weights x} greatest ∧
      least - 1 / 20 ≤ score ∧ score ≤ greatest + 1 / 20
  le_hundred : ∀ score, (computeHealthScore subs weights).score = some score → score ≤ 100
  monotone : ∀ k x y, subs k = some x → x ≤ y → ∀ score score', (computeHealthScore subs weights).score = some score →
    (computeHealthScore (Function.update subs k (some y)) weights).score = some score' → score ≤ score'

/-- A score is a number of tenths, so half a tenth above 100 is out of its reach. -/
theorem score_le_hundred {score : ℚ} (hscore : (computeHealthScore subs weights).score = some score)
    (hle : score ≤ 100 + 1 / 20) : score ≤ 100 := by
  have htotal : totalWeight subs weights ≠ 0 := fun h => by simp [score_eq_none_iff.2 h] at hscore
  obtain ⟨n, hn⟩ := exists_tenths (keys.map (share subs weights))
  rw [score_eq htotal, hn] at hscore
  obtain rfl := Option.some.inj hscore
  have hlt : (n : ℚ) < 1001 := by linarith
  have hint : n < 1001 := by exact_mod_cast hlt
  have hint' : (n : ℚ) ≤ 1000 := by exact_mod_cast Int.le_of_lt_add_one hint
  linarith

/-- The score is a true weighted mean exactly if the rounding errors of the shares together do not lead from the exact mean
out of the range of the sub-scores by more than half a tenth. -/
theorem trueMean_iff (number : String → Option ℚ) (raw : Option String) (subs : SubScores) :
    TrueMean subs (parseWeights number raw) ↔ totalWeight subs (parseWeights number raw) = 0 ∨
      ∃ least greatest, IsLeast {x | Counted subs (parseWeights number raw) x} least ∧
        IsGreatest {x | Counted subs (parseWeights number raw) x} greatest ∧
        least - mean subs (parseWeights number raw) - 1 / 20 ≤ errors subs (parseWeights number raw) ∧
        errors subs (parseWeights number raw) ≤ greatest - mean subs (parseWeights number raw) + 1 / 20 := by
  generalize parseWeights number raw = weights
  constructor
  · intro h
    by_cases htotal : totalWeight subs weights = 0
    · exact .inl htotal
    · obtain ⟨least, greatest, hleast, hgreatest, hlow, hhigh⟩ := h.between _ (score_eq_mean htotal)
      exact .inr ⟨least, greatest, hleast, hgreatest, by linarith, by linarith⟩
  · intro h
    have hbetween : ∀ score, (computeHealthScore subs weights).score = some score →
        ∃ least greatest, IsLeast {x | Counted subs weights x} least ∧ IsGreatest {x | Counted subs weights x} greatest ∧
          least - 1 / 20 ≤ score ∧ score ≤ greatest + 1 / 20 := by
      intro score hscore
      have htotal : totalWeight subs weights ≠ 0 := fun h => by simp [score_eq_none_iff.2 h] at hscore
      obtain ⟨least, greatest, hleast, hgreatest, hlow, hhigh⟩ := h.resolve_left htotal
      obtain rfl := Option.some.inj ((score_eq_mean htotal).symm.trans hscore)
      exact ⟨least, greatest, hleast, hgreatest, by linarith, by linarith⟩
    refine ⟨score_eq_none_iff, hbetween, fun score hscore => ?_, fun k x y hx hxy _ _ => score_mono (rel_update hx hxy)⟩
    obtain ⟨-, greatest, -, ⟨⟨k, sub, -, -, rfl⟩, -⟩, -, hhigh⟩ := hbetween score hscore
    exact score_le_hundred hscore (by linarith [sub.2.2])

/-- `Number` of a text of digits. -/
def wholeNumber (text : String) : Option ℚ :=
  if text.toList.all Char.isDigit then some ((text.toList.foldl (fun n c => 10 * n + (c.toNat - 0x30)) 0 : ℕ) : ℚ) else none

/-- Weights 1, 1 and 4 and three sub-scores of 100 make a score of 100.1. -/
theorem hundred_exceeded :
    ¬ TrueMean (fun _ => some ⟨100, by norm_num⟩) (parseWeights wholeNumber (some "1,1,4,0")) := by
  intro h
  have hscore : (computeHealthScore (fun _ => some ⟨100, by norm_num⟩)
      (parseWeights wholeNumber (some "1,1,4,0"))).score = some (1001 / 10) := by decide +kernel
  exact absurd (h.le_hundred _ hscore) (by norm_num)

end Score

end CronMonitor.Observability.HealthScore
