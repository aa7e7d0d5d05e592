import CronMonitor.LoadTest.Domain

/-!
# The stages of a plan

What the rounding of `rate` and `split` leaves of the targets and the seconds, and the rate that k6 schedules along the
stages.
-/

namespace CronMonitor.LoadTest

theorem rate_natCast (n : Nat) (h : 0 < n) : rate n = n := by
  have hfloor : ⌊(n : ℚ) + 1 / 2⌋ = (n : Int) := by
    rw [Int.floor_eq_iff]
    constructor <;> push_cast <;> linarith
  rw [rate, hfloor, Int.toNat_natCast]
  omega

theorem rate_mono {x y : ℚ} (h : x ≤ y) : rate x ≤ rate y := by
  have hfloor : ⌊x + 1 / 2⌋ ≤ ⌊y + 1 / 2⌋ := Int.floor_le_floor (by linarith)
  unfold rate
  omega

theorem split_length (d : Nat) (fractions : List ℚ) : (split d fractions).length = fractions.length := by
  simp [split]

/-- The targets of a plan do not depend on how its time is split. -/
theorem makeStages_targets {d : Nat} {fractions : List ℚ} {targets : List Nat} (h : fractions.length = targets.length) :
    (makeStages d fractions targets).map (·.target) = targets := by
  refine List.ext_getElem? fun i => ?_
  have hlen : (split d fractions).length = targets.length := (split_length d fractions).trans h
  simp only [makeStages, List.map_map, List.getElem?_map, List.getElem?_zipIdx, Option.map_map]
  rcases Nat.lt_or_ge i targets.length with hi | hi
  · rw [List.getElem?_eq_getElem (hlen ▸ hi), List.getElem?_eq_getElem hi]
    simp [List.getElem?_eq_getElem hi]
  · rw [List.getElem?_eq_none (hlen ▸ hi), List.getElem?_eq_none hi]
    rfl

theorem split_pos {total p : Nat} {fractions : List ℚ} (h : p ∈ split total fractions) : 1 ≤ p := by
  obtain ⟨i, hi⟩ := List.mem_iff_getElem?.1 h
  rw [split, List.getElem?_modify] at hi
  obtain ⟨q, hq, rfl⟩ := Option.map_eq_some_iff.1 hi
  rw [List.getElem?_map] at hq
  obtain ⟨f, -, rfl⟩ := Option.map_eq_some_iff.1 hq
  split <;> omega

/-- The first stage lasts at least a second and ends at the first target. -/
theorem makeStages_head (d : Nat) (f : ℚ) (fractions : List ℚ) (t : Nat) (targets : List Nat) :
    ∃ s rest, makeStages d (f :: fractions) (t :: targets) = s :: rest ∧ 1 ≤ s.durationSeconds ∧ s.target = t := by
  cases hsplit : split d (f :: fractions) with
  | nil =>
    have hlen : (split d (f :: fractions)).length = fractions.length + 1 := by simp [split]
    rw [hsplit] at hlen
    cases hlen
  | cons p parts =>
    have hp : 1 ≤ p := split_pos (hsplit ▸ List.mem_cons_self : p ∈ split d (f :: fractions))
    exact ⟨⟨p, t⟩, _, by rw [makeStages, hsplit]; rfl, hp, rfl⟩

theorem one_le_rate (x : ℚ) : 1 ≤ rate x := le_max_left 1 _

/-- Every plan starts with a ramp of at least a second to at least one request/s. -/
theorem buildStages_head (cfg : PlanConfig) :
    ∃ s rest, buildStages cfg = s :: rest ∧ 1 ≤ s.durationSeconds ∧ 1 ≤ s.target := by
  have head (f : ℚ) (fractions : List ℚ) (x : ℚ) (targets : List Nat) : ∃ s rest,
      makeStages cfg.durationSeconds (f :: fractions) (rate x :: targets) = s :: rest ∧ 1 ≤ s.durationSeconds ∧
        1 ≤ s.target := by
    obtain ⟨s, rest, hs, hd, ht⟩ := makeStages_head cfg.durationSeconds f fractions (rate x) targets
    exact ⟨s, rest, hs, hd, ht ▸ one_le_rate x⟩
  unfold buildStages
  cases cfg.profile <;> exact head ..

/-- The arrival rate `t` seconds after the start, ramping linearly from `prev` to the target of each stage. -/
def scheduledRate (prev : ℚ) : List Stage → ℚ → ℚ
  | [], _ => 0
  | s :: rest, t =>
    if t ≤ s.durationSeconds then prev + (s.target - prev) * t / s.durationSeconds
    else scheduledRate s.target rest (t - s.durationSeconds)

theorem makeStages_duration {d : Nat} {fractions : List ℚ} {targets : List Nat} {s : Stage}
    (h : s ∈ makeStages d fractions targets) : 1 ≤ s.durationSeconds := by
  obtain ⟨p, hp, rfl⟩ := List.mem_map.1 h
  exact split_pos (List.fst_mem_of_mem_zipIdx hp)

theorem buildStages_duration {cfg : PlanConfig} {s : Stage} (h : s ∈ buildStages cfg) : 1 ≤ s.durationSeconds := by
  unfold buildStages at h
  cases hp : cfg.profile <;> rw [hp] at h <;> exact makeStages_duration h

theorem foldl_max_le_iff {ns : List Nat} {a k : Nat} : ns.foldl max a ≤ k ↔ a ≤ k ∧ ∀ n ∈ ns, n ≤ k := by
  induction ns generalizing a with
  | nil => simp
  | cons n rest ih => rw [List.foldl_cons, ih, max_le_iff, List.forall_mem_cons, and_assoc]

theorem target_le_peakRps {cfg : PlanConfig} {s : Stage} (h : s ∈ buildStages cfg) : s.target ≤ peakRps cfg :=
  (foldl_max_le_iff.1 (le_refl (peakRps cfg))).2 _ (List.mem_map_of_mem h)

/-- Between two targets the rate stays under the higher one. -/
theorem scheduledRate_le {stages : List Stage} {prev peak t : ℚ} (hprev : prev ≤ peak) (hpeak : 0 ≤ peak)
    (hstages : ∀ s ∈ stages, 1 ≤ s.durationSeconds ∧ (s.target : ℚ) ≤ peak) (ht : 0 ≤ t) :
    scheduledRate prev stages t ≤ peak := by
  induction stages generalizing prev t with
  | nil => exact hpeak
  | cons s rest ih =>
    obtain ⟨⟨hd, htarget⟩, hrest⟩ := List.forall_mem_cons.1 hstages
    have hd' : (0 : ℚ) < s.durationSeconds := by exact_mod_cast hd
    rw [scheduledRate]
    split
    case isTrue hle =>
      -- a weighted mean of the two targets
      have hmean : prev + (s.target - prev) * t / s.durationSeconds =
          prev * (1 - t / s.durationSeconds) + s.target * (t / s.durationSeconds) := by
        field_simp
        ring
      have hw : 0 ≤ t / s.durationSeconds ∧ t / s.durationSeconds ≤ 1 :=
        ⟨div_nonneg ht hd'.le, (div_le_one hd').2 hle⟩
      rw [hmean]
      nlinarith [mul_le_mul_of_nonneg_right hprev (sub_nonneg.2 hw.2), mul_le_mul_of_nonneg_right htarget hw.1]
    case isFalse hgt => exact ih htarget hrest (by linarith)

/-- Every target is reached at the end of its stage. -/
theorem scheduledRate_reaches {stages : List Stage} (prev : ℚ) {s : Stage} (hs : s ∈ stages)
    (hstages : ∀ s ∈ stages, 1 ≤ s.durationSeconds) : ∃ t, 0 < t ∧ scheduledRate prev stages t = s.target := by
  induction stages generalizing prev with
  | nil => cases hs
  | cons s' rest ih =>
    obtain ⟨hd, hrest⟩ := List.forall_mem_cons.1 hstages
    have hd' : (0 : ℚ) < s'.durationSeconds := by exact_mod_cast hd
    rcases List.mem_cons.1 hs with rfl | hs
    · refine ⟨s.durationSeconds, hd', ?_⟩
      rw [scheduledRate, if_pos le_rfl, mul_div_cancel_right₀ _ hd'.ne']
      ring
    · obtain ⟨t, ht, hrate⟩ := ih s'.target hs hrest
      refine ⟨s'.durationSeconds + t, by linarith, ?_⟩
      rw [scheduledRate, if_neg (by linarith), add_sub_cancel_left, hrate]

end CronMonitor.LoadTest
