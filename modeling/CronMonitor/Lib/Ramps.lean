import Mathlib.Analysis.SpecialFunctions.Integrals.Basic

/-!
# Rates that go straight from one target to the next

A stage is a duration and the rate at its end; from stage to stage the rate goes in a straight line. It stays under every
bound of its targets (`rampRate_le`), and the area under it is that of the trapezia (`integral_rampRate`).
-/

open MeasureTheory

/-- The rate at `t`, from `start` on; after the last stage it is zero. -/
noncomputable def rampRate (start : ℝ) : List (ℝ × ℝ) → ℝ → ℝ
  | [], _ => 0
  | (d, target) :: rest, t => if t ≤ d then start + (target - start) * t / d else rampRate target rest (t - d)

def rampLength (stages : List (ℝ × ℝ)) : ℝ := (stages.map Prod.fst).sum

noncomputable def trapezia (start : ℝ) : List (ℝ × ℝ) → ℝ
  | [] => 0
  | (d, target) :: rest => d * (start + target) / 2 + trapezia target rest

variable {start bound t d target : ℝ} {stages rest : List (ℝ × ℝ)}

theorem rampLength_cons : rampLength ((d, target) :: rest) = d + rampLength rest := List.sum_cons

theorem rampLength_nonneg (h : ∀ s ∈ stages, 0 < s.1) : 0 ≤ rampLength stages :=
  List.sum_nonneg fun x hx => by
    obtain ⟨s, hs, rfl⟩ := List.mem_map.1 hx
    exact (h s hs).le

/-- On a stage the rate is a mean of the two targets. -/
theorem line_le (hd : 0 < d) (hstart : start ≤ bound) (htarget : target ≤ bound) (ht : 0 ≤ t) (htd : t ≤ d) :
    start + (target - start) * t / d ≤ bound := by
  have hw : 0 ≤ t / d ∧ t / d ≤ 1 := ⟨div_nonneg ht hd.le, (div_le_one hd).2 htd⟩
  have hmean : start + (target - start) * t / d = start * (1 - t / d) + target * (t / d) := by ring
  rw [hmean]
  nlinarith [mul_le_mul_of_nonneg_right hstart (sub_nonneg.2 hw.2), mul_le_mul_of_nonneg_right htarget hw.1]

theorem rampRate_le (hbound : 0 ≤ bound) : ∀ {stages : List (ℝ × ℝ)} {start t : ℝ}, start ≤ bound →
    (∀ s ∈ stages, 0 < s.1 ∧ s.2 ≤ bound) → 0 ≤ t → rampRate start stages t ≤ bound := by
  intro stages
  induction stages with
  | nil => exact fun _ _ _ => hbound
  | cons s rest ih =>
    intro start t hstart hstages ht
    obtain ⟨⟨hd, htarget⟩, hrest⟩ := List.forall_mem_cons.1 hstages
    rw [rampRate]
    split_ifs with htd
    · exact line_le hd hstart htarget ht htd
    · exact ih htarget hrest (by linarith)

theorem integral_line (hd : 0 < d) : ∫ t in (0 : ℝ)..d, start + (target - start) * t / d = d * (start + target) / 2 := by
  have hshape : ∀ t : ℝ, start + (target - start) * t / d = start + (target - start) / d * t := fun t => by ring
  simp only [hshape]
  rw [intervalIntegral.integral_add intervalIntegrable_const (intervalIntegral.intervalIntegrable_id.const_mul _),
    intervalIntegral.integral_const, intervalIntegral.integral_const_mul, integral_id, smul_eq_mul]
  field_simp
  ring

theorem intervalIntegrable_line : IntervalIntegrable (fun t : ℝ => start + (target - start) * t / d) volume 0 d :=
  (by fun_prop : Continuous fun t : ℝ => start + (target - start) * t / d).intervalIntegrable 0 d

/-- Within the first stage the rate is its line. -/
theorem rampRate_first (ht : t ≤ d) : rampRate start ((d, target) :: rest) t = start + (target - start) * t / d :=
  if_pos ht

/-- Past the first stage it is the rate of the stages that are left. -/
theorem rampRate_later (ht : d < t) : rampRate start ((d, target) :: rest) t = rampRate target rest (t - d) :=
  if_neg ht.not_ge

theorem integral_rampRate : ∀ {stages : List (ℝ × ℝ)} (start : ℝ), (∀ s ∈ stages, 0 < s.1) →
    IntervalIntegrable (rampRate start stages) volume 0 (rampLength stages) ∧
      ∫ t in (0 : ℝ)..rampLength stages, rampRate start stages t = trapezia start stages := by
  intro stages
  induction stages with
  | nil =>
    intro start _
    exact ⟨IntervalIntegrable.refl, intervalIntegral.integral_same⟩
  | cons s rest ih =>
    obtain ⟨d, target⟩ := s
    intro start hpos
    obtain ⟨hd, hrest⟩ := List.forall_mem_cons.1 hpos
    have hlater := rampLength_nonneg hrest
    obtain ⟨htail, harea⟩ := ih target hrest
    rw [rampLength_cons, trapezia]
    -- the first stage, up to its end
    have hfirst : IntervalIntegrable (rampRate start ((d, target) :: rest)) volume 0 d :=
      intervalIntegrable_line.congr_uIoo fun t ht => by
        rw [Set.uIoo_of_le hd.le] at ht
        exact (rampRate_first ht.2.le).symm
    have hline : ∫ t in (0 : ℝ)..d, rampRate start ((d, target) :: rest) t = d * (start + target) / 2 := by
      rw [← integral_line hd]
      exact intervalIntegral.integral_congr_Ioo_of_le hd.le fun t ht => rampRate_first ht.2.le
    -- the others, moved back by its length
    have hshift : Set.EqOn (fun t => rampRate target rest (t - d)) (rampRate start ((d, target) :: rest))
        (Set.Ioo d (d + rampLength rest)) := fun t ht => (rampRate_later ht.1).symm
    have hmoved := htail.comp_sub_right d
    rw [zero_add, add_comm (rampLength rest)] at hmoved
    have hsecond : IntervalIntegrable (rampRate start ((d, target) :: rest)) volume d (d + rampLength rest) :=
      hmoved.congr_uIoo <| by
        rw [Set.uIoo_of_le (by linarith)]
        exact hshift
    have hothers : ∫ t in d..d + rampLength rest, rampRate start ((d, target) :: rest) t = trapezia target rest := by
      rw [← harea, ← intervalIntegral.integral_congr_Ioo_of_le (by linarith) hshift,
        intervalIntegral.integral_comp_sub_right, sub_self, add_sub_cancel_left]
    exact ⟨hfirst.trans hsecond, by rw [← intervalIntegral.integral_add_adjacent_intervals hfirst hsecond, hline, hothers]⟩
