import Mathlib
import CronMonitor.LoadTest.Stages

/-!
# Fitting a tier under a ceiling

`programme.ts`: a tier says how much the service should see, `fitTier` makes a plan of it that stays under the ceiling of
a class and reports what it had to reduce. The peak of the plan is the one of its stages, in which the base rate comes
back rounded and multiplied. The theorem says for which tiers and ceilings that peak is under the ceiling, and is the
tier's own when nothing is reported.
-/

namespace CronMonitor.LoadTest

/-- The stages of a profile; `buildStages` reads no more of a plan. -/
def stagesOf (profile : LoadProfile) (t : ℚ) (d : Nat) (spikeMultiplier : ℚ) : List Stage :=
  match profile with
  | .smoke => makeStages d [1] [rate (min 2 t)]
  | .load => makeStages d [1 / 10, 8 / 10, 1 / 10] [rate t, rate t, 0]
  | .soak => makeStages d [5 / 100, 9 / 10, 5 / 100] [rate t, rate t, 0]
  | .stress =>
    let steps := [1 / 2, 1, 3 / 2, 2].map fun m : ℚ => rate (t * m)
    makeStages d [5 / 100, 2 / 10, 5 / 100, 2 / 10, 5 / 100, 2 / 10, 5 / 100, 2 / 10] (steps.flatMap fun s => [s, s])
  | .spike =>
    let peak := rate (t * spikeMultiplier)
    makeStages d [25 / 100, 5 / 100, 2 / 10, 5 / 100, 45 / 100] [rate t, peak, peak, rate t, rate t]
  | .breakpoint => makeStages d [1] [rate t]

theorem buildStages_eq (cfg : PlanConfig) :
    buildStages cfg = stagesOf cfg.profile cfg.targetRps cfg.durationSeconds cfg.spikeMultiplier := by
  unfold buildStages stagesOf
  cases cfg.profile <;> rfl

structure Tier where
  id : String
  label : String
  purpose : String
  profile : LoadProfile
  peakRps : Nat
  durationSeconds : Nat
  maxVus : Nat
  spikeFromRps : Option Nat
  requiredCapacityRps : Option ℚ
  peakRps_pos : 0 < peakRps
  durationSeconds_pos : 0 < durationSeconds
  maxVus_pos : 0 < maxVus
  spikeFromRps_ok : ∀ s ∈ spikeFromRps, 0 < s ∧ s ≤ peakRps

/-- A ceiling of whole numbers. -/
structure TierCeiling where
  maxRps : Nat
  maxVus : Nat
  maxDurationSeconds : Nat
  maxRps_pos : 0 < maxRps
  maxVus_pos : 0 < maxVus
  maxDurationSeconds_pos : 0 < maxDurationSeconds

structure FittedPlan where
  profile : LoadProfile
  targetRps : Nat
  durationSeconds : Nat
  maxVus : Nat
  spikeMultiplier : Option Nat
  requiredCapacityRps : Option ℚ

structure FittedTier where
  tier : Tier
  plan : FittedPlan
  fits : Bool
  reductions : List String

/-- `floor(peak / 2)`, and `round(peak / 3)` where a spike has no base of its own. -/
def baseRpsFor (profile : LoadProfile) (peakRps : Nat) (spikeFromRps : Option Nat) : Nat :=
  match profile with
  | .stress => max 1 (peakRps / 2)
  | .spike => max 1 (spikeFromRps.getD ((2 * peakRps + 3) / 6))
  | _ => peakRps

/-- `Math.round(seconds / 60)`. -/
def minutes (seconds : Nat) : Nat := (seconds + 30) / 60

def fitTier (numberText : ℚ → String) (t : Tier) (ceiling : TierCeiling) : FittedTier :=
  let peak := min t.peakRps ceiling.maxRps
  let vus := min t.maxVus ceiling.maxVus
  let dur := min t.durationSeconds ceiling.maxDurationSeconds
  let before := minutes t.durationSeconds
  let after := minutes ceiling.maxDurationSeconds
  let base := baseRpsFor t.profile peak t.spikeFromRps
  let spike := if t.profile = .spike then some (max 2 (peak / max 1 base)) else none
  let reductions :=
    (if t.peakRps > ceiling.maxRps then [s!"peak {t.peakRps} → {ceiling.maxRps} requests/s"] else []) ++
      (if t.maxVus > ceiling.maxVus then [s!"virtual users {t.maxVus} → {ceiling.maxVus}"] else []) ++
      (if t.durationSeconds > ceiling.maxDurationSeconds then [s!"duration {before} → {after} min"] else []) ++
      match t.requiredCapacityRps with
      | none => []
      | some required =>
        let text := numberText required
        if (peak : ℚ) < required then [s!"cannot prove the required {text} requests/s while capped at {peak}"] else []
  { tier := t
    fits := reductions.isEmpty
    reductions := reductions
    plan := ⟨t.profile, base, dur, vus, spike, t.requiredCapacityRps⟩ }

/-- `peakRps` of the plan; 10 is the schema's default multiplier. -/
def FittedPlan.peak (p : FittedPlan) : Nat :=
  ((stagesOf p.profile p.targetRps p.durationSeconds ((p.spikeMultiplier.getD 10 : Nat) : ℚ)).map (·.target)).foldl
    max 0

/-- The peak of the plan is the `peakRps` of every plan config with its values. -/
theorem peakRps_of_fitted {cfg : PlanConfig} {p : FittedPlan} (hprofile : cfg.profile = p.profile)
    (hrps : cfg.targetRps = p.targetRps) (hdur : cfg.durationSeconds = p.durationSeconds)
    (hspike : cfg.spikeMultiplier = (p.spikeMultiplier.getD 10 : Nat)) : peakRps cfg = p.peak := by
  rw [peakRps, buildStages_eq, hprofile, hrps, hdur, hspike, FittedPlan.peak]

/-! ### The peak of the stages -/

/-- The peak of a profile with base rate `n` and multiplier `m`, in whole numbers. -/
def profilePeak (profile : LoadProfile) (n m : Nat) : Nat :=
  match profile with
  | .smoke => min 2 n
  | .stress => 2 * n
  | .spike => n * m
  | _ => n

theorem stagesOf_peak (profile : LoadProfile) {n m : Nat} (d : Nat) (hn : 0 < n) (hm : 0 < m) :
    ((stagesOf profile n d m).map (·.target)).foldl max 0 = profilePeak profile n m := by
  have hbase : rate (n : ℚ) = n := rate_natCast n hn
  cases profile with
  | smoke =>
    have hrate : rate (min 2 (n : ℚ)) = min 2 n := by
      have hcast : min 2 (n : ℚ) = ((min 2 n : Nat) : ℚ) := by push_cast; rfl
      rw [hcast, rate_natCast _ (by omega)]
    simp only [stagesOf, profilePeak]
    rw [makeStages_targets rfl, hrate]
    exact Nat.zero_max _
  | load =>
    simp only [stagesOf, profilePeak]
    rw [makeStages_targets rfl, hbase]
    simp
  | soak =>
    simp only [stagesOf, profilePeak]
    rw [makeStages_targets rfl, hbase]
    simp
  | stress =>
    have hpos : (0 : ℚ) < n := Nat.cast_pos.2 hn
    have htop : rate ((n : ℚ) * 2) = 2 * n := by
      have hcast : (n : ℚ) * 2 = ((2 * n : Nat) : ℚ) := by push_cast; ring
      rw [hcast, rate_natCast _ (by omega)]
    have h1 : rate ((n : ℚ) * (1 / 2)) ≤ 2 * n := htop ▸ rate_mono (by linarith)
    have h2 : rate ((n : ℚ) * 1) ≤ 2 * n := htop ▸ rate_mono (by linarith)
    have h3 : rate ((n : ℚ) * (3 / 2)) ≤ 2 * n := htop ▸ rate_mono (by linarith)
    simp only [stagesOf, profilePeak]
    rw [makeStages_targets rfl]
    simp only [List.map_cons, List.map_nil, List.flatMap_cons, List.flatMap_nil, List.cons_append, List.nil_append,
      List.foldl_cons, List.foldl_nil, htop]
    omega
  | spike =>
    have hpeak : rate ((n : ℚ) * m) = n * m := by
      rw [← Nat.cast_mul, rate_natCast _ (Nat.mul_pos hn hm)]
    have hle : n ≤ n * m := Nat.le_mul_of_pos_right n hm
    simp only [stagesOf, profilePeak]
    rw [makeStages_targets rfl, hbase, hpeak]
    simp only [List.foldl_cons, List.foldl_nil]
    omega
  | breakpoint =>
    simp only [stagesOf, profilePeak]
    rw [makeStages_targets rfl, hbase]
    exact Nat.zero_max _

/-! ### The law -/

/-- Nothing of the tier has to be reduced. -/
def Uncut (t : Tier) (c : TierCeiling) : Prop :=
  t.peakRps ≤ c.maxRps ∧ t.maxVus ≤ c.maxVus ∧ t.durationSeconds ≤ c.maxDurationSeconds ∧
    ∀ required ∈ t.requiredCapacityRps, required ≤ t.peakRps

/-- The plan respects the ceiling, and is the full target where nothing is reported as reduced. -/
def FitsHonestly (numberText : ℚ → String) (t : Tier) (c : TierCeiling) : Prop :=
  let f := fitTier numberText t c
  f.plan.peak ≤ c.maxRps ∧ f.plan.maxVus ≤ c.maxVus ∧ f.plan.durationSeconds ≤ c.maxDurationSeconds ∧
    (f.fits = true →
      f.plan.peak = t.peakRps ∧ f.plan.maxVus = t.maxVus ∧ f.plan.durationSeconds = t.durationSeconds)

/-- The base of a spike under the ceiling. -/
def spikeBase (t : Tier) (c : TierCeiling) : Nat :=
  max 1 (t.spikeFromRps.getD ((2 * min t.peakRps c.maxRps + 3) / 6))

/-- The profile's shape can reach the tier's peak, and its smallest peak is under the ceiling. -/
def ShapeFits (t : Tier) (c : TierCeiling) : Prop :=
  match t.profile with
  | .smoke => Uncut t c → t.peakRps ≤ 2
  | .stress => 2 ≤ c.maxRps ∧ (Uncut t c → 2 ∣ t.peakRps)
  | .spike =>
    2 * spikeBase t c ≤ c.maxRps ∧ (Uncut t c → 2 * spikeBase t c ≤ t.peakRps ∧ spikeBase t c ∣ t.peakRps)
  | _ => True

section Law
variable {numberText : ℚ → String} {t : Tier} {c : TierCeiling}

theorem fits_iff : (fitTier numberText t c).fits = true ↔ Uncut t c := by
  unfold fitTier Uncut
  simp only [List.isEmpty_iff, List.append_eq_nil_iff, ite_eq_right_iff, reduceCtorEq, imp_false, gt_iff_lt, not_lt]
  constructor
  · rintro ⟨⟨⟨hpeak, hvus⟩, hdur⟩, hreq⟩
    refine ⟨hpeak, hvus, hdur, fun required hr => ?_⟩
    rw [Option.mem_def] at hr
    simp only [hr, min_eq_left hpeak, ite_eq_right_iff, reduceCtorEq, imp_false, not_lt] at hreq
    exact hreq
  · rintro ⟨hpeak, hvus, hdur, hreq⟩
    refine ⟨⟨⟨hpeak, hvus⟩, hdur⟩, ?_⟩
    cases hr : t.requiredCapacityRps with
    | none => rfl
    | some required =>
      simp only [min_eq_left hpeak]
      exact if_neg (not_lt.2 (hreq required hr))

/-- The peak of the fitted plan, by the tier's profile. -/
theorem fitted_peak : (fitTier numberText t c).plan.peak =
    match t.profile with
    | .smoke => min 2 (min t.peakRps c.maxRps)
    | .stress => max 2 (2 * (min t.peakRps c.maxRps / 2))
    | .spike => max (2 * spikeBase t c) (spikeBase t c * (min t.peakRps c.maxRps / spikeBase t c))
    | _ => min t.peakRps c.maxRps := by
  have hq : 0 < min t.peakRps c.maxRps := lt_min t.peakRps_pos c.maxRps_pos
  have hbase : 0 < (fitTier numberText t c).plan.targetRps := by
    show 0 < baseRpsFor t.profile (min t.peakRps c.maxRps) t.spikeFromRps
    unfold baseRpsFor
    split <;> omega
  have hm : 0 < (fitTier numberText t c).plan.spikeMultiplier.getD 10 := by
    show 0 < (if t.profile = .spike then some (max 2 _) else none).getD 10
    split
    · exact lt_of_lt_of_le (by decide) (le_max_left 2 _)
    · decide
  have hpeak : (fitTier numberText t c).plan.peak = profilePeak t.profile
      (fitTier numberText t c).plan.targetRps ((fitTier numberText t c).plan.spikeMultiplier.getD 10) :=
    stagesOf_peak t.profile _ hbase hm
  rw [hpeak]
  simp only [fitTier, baseRpsFor]
  cases t.profile with
  | smoke => rfl
  | load => rfl
  | soak => rfl
  | breakpoint => rfl
  | stress =>
    simp only [profilePeak]
    omega
  | spike =>
    have hone : max 1 (spikeBase t c) = spikeBase t c := max_eq_right (le_max_left 1 _)
    simp only [profilePeak, if_true, Option.getD_some]
    show spikeBase t c * max 2 (_ / max 1 (spikeBase t c)) = _
    rw [hone, ← Nat.mul_max_mul_left, Nat.mul_comm 2]

/-- The plan respects the ceiling and reports every reduction if and only if the shape fits. -/
theorem fitsHonestly_iff (numberText : ℚ → String) (t : Tier) (c : TierCeiling) :
    FitsHonestly numberText t c ↔ ShapeFits t c := by
  have hpos : 0 < t.peakRps ∧ 0 < c.maxRps := ⟨t.peakRps_pos, c.maxRps_pos⟩
  have hvus : (fitTier numberText t c).plan.maxVus = min t.maxVus c.maxVus := rfl
  have hdur : (fitTier numberText t c).plan.durationSeconds = min t.durationSeconds c.maxDurationSeconds := rfl
  have hrest : FitsHonestly numberText t c ↔ (fitTier numberText t c).plan.peak ≤ c.maxRps ∧
      (Uncut t c → (fitTier numberText t c).plan.peak = t.peakRps) := by
    unfold FitsHonestly
    simp only [fits_iff, hvus, hdur]
    constructor
    · rintro ⟨hpeak, -, -, hfull⟩
      exact ⟨hpeak, fun hu => (hfull hu).1⟩
    · rintro ⟨hpeak, hfull⟩
      exact ⟨hpeak, min_le_right _ _, min_le_right _ _, fun hu =>
        ⟨hfull hu, min_eq_left hu.2.1, min_eq_left hu.2.2.1⟩⟩
  have hcut (hu : Uncut t c) : min t.peakRps c.maxRps = t.peakRps := min_eq_left hu.1
  rw [hrest, fitted_peak, ShapeFits]
  cases t.profile with
  | smoke =>
    simp only
    constructor
    · rintro ⟨-, h⟩ hu
      have hu' := h hu
      omega
    · intro h
      refine ⟨by omega, fun hu => ?_⟩
      have hle := h hu
      rw [hcut hu]
      omega
  | load => exact iff_of_true ⟨min_le_right _ _, hcut⟩ trivial
  | soak => exact iff_of_true ⟨min_le_right _ _, hcut⟩ trivial
  | breakpoint => exact iff_of_true ⟨min_le_right _ _, hcut⟩ trivial
  | stress =>
    simp only
    constructor
    · rintro ⟨hle, h⟩
      refine ⟨by omega, fun hu => ?_⟩
      have hfull := h hu
      rw [hcut hu] at hfull
      omega
    · rintro ⟨hle, h⟩
      refine ⟨by omega, fun hu => ?_⟩
      have heven := h hu
      rw [hcut hu]
      omega
  | spike =>
    have hmul : spikeBase t c * (min t.peakRps c.maxRps / spikeBase t c) ≤ min t.peakRps c.maxRps :=
      Nat.mul_div_le _ _
    simp only
    constructor
    · rintro ⟨hle, h⟩
      refine ⟨le_trans (le_max_left _ _) hle, fun hu => ?_⟩
      have hfull := h hu
      rw [hcut hu] at hfull
      refine ⟨hfull ▸ le_max_left _ _, ?_⟩
      -- the larger of two multiples of the base is a multiple of the base
      rcases max_choice (2 * spikeBase t c) (spikeBase t c * (t.peakRps / spikeBase t c)) with hmax | hmax
      · exact Dvd.intro_left 2 (hmax.symm.trans hfull)
      · exact Dvd.intro _ (hmax.symm.trans hfull)
    · rintro ⟨hle, h⟩
      refine ⟨max_le hle (hmul.trans (min_le_right _ _)), fun hu => ?_⟩
      obtain ⟨htwo, hdvd⟩ := h hu
      rw [hcut hu, Nat.mul_div_cancel' hdvd]
      exact max_eq_right htwo

/-- A spike from 20 to 30 requests/s under a ceiling of 25 gets a plan that peaks at 40. -/
theorem spike_over_ceiling :
    ¬ FitsHonestly (fun _ => "") ⟨"t", "Spike", "burst", .spike, 30, 600, 50, some 20, none, by decide, by decide,
      by decide, by simp⟩ ⟨25, 100, 1800, by decide, by decide, by decide⟩ := by
  rintro ⟨hpeak, -⟩
  rw [fitted_peak] at hpeak
  revert hpeak
  decide

end Law

end CronMonitor.LoadTest
