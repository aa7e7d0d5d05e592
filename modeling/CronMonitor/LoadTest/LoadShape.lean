import Mathlib.Tactic.NormNum.BigOperators
import CronMonitor.Lib.Ramps
import CronMonitor.LoadTest.Slo
import CronMonitor.LoadTest.Stages

/-!
# The shape of a load

The plans that the schema accepts, the scenario of their script, and the arithmetic that the gate, the script and the
report share: the stages fill the time exactly, the rate stays under the judged peak, and the requests that are expected
are the area under it.
-/

namespace CronMonitor.LoadTest

open MeasureTheory

def MIN_DURATION_SECONDS : LoadProfile → Nat
  | .smoke => 10
  | .load => 20
  | .soak => 20
  | .breakpoint => 30
  | .spike => 30
  | .stress => 60

/-- What `PlanConfigSchema` lets through, of the fields that shape the load. -/
structure AcceptedPlan extends PlanConfig where
  targetRps_max : targetRps ≤ 100000
  durationSeconds_max : durationSeconds ≤ 86400
  spikeMultiplier_min : 2 ≤ spikeMultiplier
  spikeMultiplier_max : spikeMultiplier ≤ 50
  durationSeconds_room : MIN_DURATION_SECONDS profile ≤ durationSeconds

/-- A scenario of a script with the executor `ramping-arrival-rate`; the unit of its rates is a second. -/
structure ArrivalRate where
  startRate : Nat
  stages : List Stage
deriving DecidableEq, Repr

/-- The scenario of `renderK6Script`. -/
def mainScenario (plan : PlanConfig) : ArrivalRate := ⟨0, buildStages plan⟩

/-- A stage as the library of ramps has it. -/
noncomputable def Stage.ramp (s : Stage) : ℝ × ℝ := (s.durationSeconds, s.target)

/-- The arrival rate `t` seconds after the start, in a straight line to the target of each stage. -/
noncomputable def ArrivalRate.at (scenario : ArrivalRate) (t : ℝ) : ℝ :=
  rampRate scenario.startRate (scenario.stages.map Stage.ramp) t

section Split
variable {total i : Nat} {fractions : List ℚ}

theorem sum_modify {f : Nat → Nat} : ∀ {parts : List Nat} {i : Nat} (h : i < parts.length),
    (parts.modify i f).sum + parts[i] = parts.sum + f parts[i] := by
  intro parts
  induction parts with
  | nil => exact fun h => absurd h (Nat.not_lt_zero _)
  | cons p rest ih =>
    intro i h
    cases i with
    | zero => simp [List.modify_zero_cons]; omega
    | succ i =>
      have htail := ih (Nat.lt_of_succ_lt_succ h)
      simp only [List.modify_succ_cons, List.sum_cons, List.getElem_cons_succ]
      omega

theorem longestIndex_lt (h : fractions ≠ []) : longestIndex fractions < fractions.length := by
  obtain ⟨f, hf, hmax⟩ := fractions.toFinset.exists_max_image id (by simpa using h)
  refine List.findIdx_lt_length_of_exists ⟨f, List.mem_toFinset.1 hf, List.all_eq_true.2 fun g hg => ?_⟩
  exact decide_eq_true (hmax g (List.mem_toFinset.2 hg))

/-- The parts of `split` before the rest is given out. -/
def flooredParts (total : Nat) (fractions : List ℚ) : List Nat := fractions.map fun f => max 1 (⌊total * f⌋.toNat)

theorem sum_flooredParts_le (hroom : ∀ f ∈ fractions, 1 ≤ total * f) :
    ((flooredParts total fractions).sum : ℚ) ≤ total * fractions.sum := by
  induction fractions with
  | nil => simp [flooredParts]
  | cons f rest ih =>
    obtain ⟨hf, hrest⟩ := List.forall_mem_cons.1 hroom
    have hone : 1 ≤ ⌊(total : ℚ) * f⌋ := Int.le_floor.2 (by exact_mod_cast hf)
    have hnat : ((max 1 ⌊(total : ℚ) * f⌋.toNat : Nat) : Int) = ⌊(total : ℚ) * f⌋ := by omega
    have hpart : ((max 1 ⌊(total : ℚ) * f⌋.toNat : Nat) : ℚ) ≤ total * f := by
      rw [← Int.cast_natCast, hnat]
      exact Int.floor_le _
    rw [flooredParts, List.map_cons, List.sum_cons, List.sum_cons, mul_add, Nat.cast_add]
    exact add_le_add hpart (ih hrest)

/-- Where no part is stretched to a second, the parts make the whole. -/
theorem split_sum (hsum : fractions.sum = 1) (hroom : ∀ f ∈ fractions, 1 ≤ total * f) :
    (split total fractions).sum = total := by
  have hne : fractions ≠ [] := by
    rintro rfl
    exact absurd hsum (by norm_num)
  have hle : (flooredParts total fractions).sum ≤ total := by
    have hfloors := sum_flooredParts_le hroom
    rw [hsum, mul_one] at hfloors
    exact_mod_cast hfloors
  have hindex : longestIndex fractions < (flooredParts total fractions).length := by
    simpa [flooredParts] using longestIndex_lt hne
  have hone : 1 ≤ (flooredParts total fractions)[longestIndex fractions] := by simp [flooredParts]
  have hsplit : split total fractions = (flooredParts total fractions).modify (longestIndex fractions) fun p =>
    (max 1 ((p : Int) + ((total : Int) - (flooredParts total fractions).sum))).toNat := rfl
  have hmoved := sum_modify (f := fun p => (max 1 ((p : Int) + ((total : Int) - (flooredParts total fractions).sum))).toNat)
    hindex
  rw [← hsplit] at hmoved
  omega

end Split

theorem makeStages_durations (d : Nat) (fractions : List ℚ) (targets : List Nat) :
    (makeStages d fractions targets).map (·.durationSeconds) = split d fractions := by
  rw [makeStages, List.map_map]
  exact List.zipIdx_map_fst 0 _

/-- The shares of the time that the stages of a profile get. -/
def LoadProfile.shares : LoadProfile → List ℚ
  | .smoke => [1]
  | .load => [1 / 10, 8 / 10, 1 / 10]
  | .soak => [5 / 100, 9 / 10, 5 / 100]
  | .stress => [5 / 100, 2 / 10, 5 / 100, 2 / 10, 5 / 100, 2 / 10, 5 / 100, 2 / 10]
  | .spike => [25 / 100, 5 / 100, 2 / 10, 5 / 100, 45 / 100]
  | .breakpoint => [1]

theorem buildStages_durations (cfg : PlanConfig) :
    (buildStages cfg).map (·.durationSeconds) = split cfg.durationSeconds cfg.profile.shares := by
  unfold buildStages
  cases cfg.profile <;> exact makeStages_durations ..

/-- The shortest run of a profile leaves every stage its second. -/
theorem shares_room (profile : LoadProfile) : profile.shares.sum = 1 ∧
    ∀ f ∈ profile.shares, 0 < f ∧ 1 ≤ (MIN_DURATION_SECONDS profile : ℚ) * f := by
  cases profile <;> decide +kernel

/-- The stages of an accepted plan fill its time. -/
theorem durations_sum (plan : AcceptedPlan) :
    ((buildStages plan.toPlanConfig).map (·.durationSeconds)).sum = plan.durationSeconds := by
  obtain ⟨hone, hroom⟩ := shares_room plan.profile
  have hlong : (MIN_DURATION_SECONDS plan.profile : ℚ) ≤ plan.durationSeconds := Nat.cast_le.2 plan.durationSeconds_room
  rw [buildStages_durations]
  refine split_sum hone fun f hf => (hroom f hf).2.trans ?_
  exact mul_le_mul_of_nonneg_right hlong (hroom f hf).1.le

section Area
variable {stages : List Stage}

theorem ramp_pos (h : ∀ s ∈ stages, 1 ≤ s.durationSeconds) : ∀ r ∈ stages.map Stage.ramp, 0 < r.1 := by
  intro r hr
  obtain ⟨s, hs, rfl⟩ := List.mem_map.1 hr
  exact Nat.cast_pos.2 (h s hs)

theorem rampLength_ramp : rampLength (stages.map Stage.ramp) = ((stages.map (·.durationSeconds)).sum : Nat) := by
  induction stages with
  | nil => simp [rampLength]
  | cons s rest ih =>
    rw [List.map_cons, Stage.ramp, rampLength_cons, ih, List.map_cons, List.sum_cons, Nat.cast_add]

theorem trapezia_ramp : ∀ {stages : List Stage} {prev : Nat},
    trapezia prev (stages.map Stage.ramp) = (rampArea prev stages : ℚ) := by
  intro stages
  induction stages with
  | nil => simp [trapezia, rampArea]
  | cons s rest ih =>
    intro prev
    rw [List.map_cons, Stage.ramp, trapezia, ih, rampArea]
    push_cast
    ring

end Area

theorem loadShape (plan : AcceptedPlan) :
    (∀ s ∈ buildStages plan.toPlanConfig, 1 ≤ s.durationSeconds) ∧
      ((buildStages plan.toPlanConfig).map (·.durationSeconds)).sum = plan.durationSeconds ∧
      (∀ t : ℝ, 0 ≤ t → (mainScenario plan.toPlanConfig).at t ≤ peakRps plan.toPlanConfig) ∧
      IntervalIntegrable (mainScenario plan.toPlanConfig).at volume 0 plan.durationSeconds ∧
      (expectedRequests plan.toPlanConfig : Int) =
        ⌊(∫ t in (0 : ℝ)..plan.durationSeconds, (mainScenario plan.toPlanConfig).at t) + 1 / 2⌋ := by
  have hlast : ∀ s ∈ buildStages plan.toPlanConfig, 1 ≤ s.durationSeconds := fun s hs => buildStages_duration hs
  have hsum := durations_sum plan
  have hlength : rampLength ((buildStages plan.toPlanConfig).map Stage.ramp) = plan.durationSeconds := by
    rw [rampLength_ramp, hsum]
  obtain ⟨hintegrable, harea⟩ := integral_rampRate ((0 : Nat) : ℝ) (ramp_pos hlast)
  rw [hlength] at hintegrable harea
  refine ⟨hlast, hsum, fun t ht => ?_, hintegrable, ?_⟩
  · refine rampRate_le (Nat.cast_nonneg _) (Nat.cast_le.2 (Nat.zero_le _)) (fun r hr => ⟨ramp_pos hlast r hr, ?_⟩) ht
    obtain ⟨s, hs, rfl⟩ := List.mem_map.1 hr
    exact Nat.cast_le.2 (target_le_peakRps hs)
  · have hfloor : 0 ≤ ⌊rampArea 0 (buildStages plan.toPlanConfig) + 1 / 2⌋ :=
      Int.floor_nonneg.2 (by linarith [rampArea_nonneg 0 (buildStages plan.toPlanConfig)])
    have hreal : (rampArea 0 (buildStages plan.toPlanConfig) : ℝ) + 1 / 2 =
        ((rampArea 0 (buildStages plan.toPlanConfig) + 1 / 2 : ℚ) : ℝ) := by push_cast; rfl
    calc (expectedRequests plan.toPlanConfig : Int)
        = ⌊rampArea 0 (buildStages plan.toPlanConfig) + 1 / 2⌋ := Int.toNat_of_nonneg hfloor
      _ = ⌊(rampArea 0 (buildStages plan.toPlanConfig) : ℝ) + 1 / 2⌋ := by rw [hreal, Rat.floor_cast]
      _ = ⌊(∫ t in (0 : ℝ)..plan.durationSeconds, (mainScenario plan.toPlanConfig).at t) + 1 / 2⌋ := by
        rw [← trapezia_ramp, ← harea]
        rfl

/-- Half a minute of five requests a second, with a spike to ten times that. -/
def AcceptedPlan.spike : AcceptedPlan :=
  { PlanConfig.smallest with
    profile := .spike
    targetRps := 5
    durationSeconds := 30
    spikeMultiplier := 10
    targetRps_pos := by decide
    durationSeconds_min := by decide
    targetRps_max := by decide
    durationSeconds_max := by decide
    spikeMultiplier_min := by decide
    spikeMultiplier_max := by decide
    durationSeconds_room := by decide }

example : buildStages AcceptedPlan.spike.toPlanConfig = [⟨7, 5⟩, ⟨1, 50⟩, ⟨6, 50⟩, ⟨1, 5⟩, ⟨15, 5⟩] ∧
    expectedRequests AcceptedPlan.spike.toPlanConfig = 448 := by
  decide +kernel

end CronMonitor.LoadTest
