import CronMonitor.CronPattern
import CronMonitor.Targets.Service

/-!
# Frequency limits

A schedule is accepted by the one gap that follows the request. `assertScheduleAllowed` is of `target.service.ts`,
`validateCron` of `schedule.service.ts`.
-/

namespace CronMonitor
open Slots
open Targets (TargetEnv assertScheduleAllowed moneyMovingMinIntervalSeconds)

/-- Suites are not a monitoring probe; hourly is the floor. -/
def MIN_INTERVAL_SECONDS : Int := 3600

/-- `validateCron`; the error of an expression that does not parse is cron-parser's. -/
def validateCron (P : CronParser) (cronError : String → Option String) (cron : String) (from_ : Time) :
    Except String Time :=
  match cronError cron, P.intervalSeconds cron from_, P.next cron from_ with
  | some cause, _, _ => .error s!"Invalid cron expression \"{cron}\": {cause}"
  | none, some seconds, some next =>
    if seconds < MIN_INTERVAL_SECONDS then .error "Scheduled suites may run at most once an hour." else .ok next
  | none, _, _ => .error s!"Invalid cron expression \"{cron}\""

/-- The environment of a request at the time `t`. -/
def TargetEnv.reading (env : TargetEnv) (P : CronParser) (cronError : String → Option String) (t : Time) : TargetEnv :=
  { env with cronError, intervalSeconds := fun e => (P.intervalSeconds e t).getD 0 }

section Accepted

variable (env : TargetEnv) (P : CronParser) (cronError : String → Option String) (e : String) (t : Int)

/-- The schedule of a money-moving target, without a bypass. -/
def TargetAccepted : Prop := assertScheduleAllowed (TargetEnv.reading env P cronError t) e true false = .ok ()

def SuiteAccepted : Prop := ∃ next, validateCron P cronError e t = .ok next

/-- What is accepted keeps its limit through the whole schedule, and is accepted at any time. -/
def LimitsHold (S : Set Int) : Prop :=
  ∀ t,
    (TargetAccepted env P cronError e t → ∀ x y, Consecutive S x y → y - x ≤ 300000) ∧
    (SuiteAccepted P cronError e t → ∀ x y, Consecutive S x y → 3600000 ≤ y - x) ∧
    ∀ t', (TargetAccepted env P cronError e t ↔ TargetAccepted env P cronError e t') ∧
      (SuiteAccepted P cronError e t ↔ SuiteAccepted P cronError e t')

end Accepted

/-! ### One gap stands for all -/

/-- A verdict at a moment that depends on one gap, where each gap has its moment, is the verdict on the schedule exactly
if the gaps are all good or all bad. -/
theorem one_gap_iff {S : Set Int} {accepted : Int → Prop} {good : Int → Prop}
    (hgap : ∀ x y, Consecutive S x y → (accepted (x - 1) ↔ good (y - x)))
    (hmoment : ∀ t, ∃ x y, Consecutive S x y ∧ (accepted t ↔ good (y - x))) :
    (∀ t, (accepted t → ∀ x y, Consecutive S x y → good (y - x)) ∧ ∀ t', accepted t ↔ accepted t') ↔
      (∀ x y, Consecutive S x y → good (y - x)) ∨ ∀ x y, Consecutive S x y → ¬ good (y - x) := by
  constructor
  · intro h
    by_cases hall : ∀ x y, Consecutive S x y → good (y - x)
    · exact .inl hall
    · refine .inr fun x y hc hgood => hall ?_
      exact (h (x - 1)).1 ((hgap x y hc).2 hgood)
  · intro h t
    obtain ⟨x, y, hc, ht⟩ := hmoment t
    rcases h with hgood | hbad
    · refine ⟨fun _ => hgood, fun t' => ?_⟩
      obtain ⟨x', y', hc', ht'⟩ := hmoment t'
      exact iff_of_true (ht.2 (hgood x y hc)) (ht'.2 (hgood x' y' hc'))
    · refine ⟨fun hacc => absurd (ht.1 hacc) (hbad x y hc), fun t' => ?_⟩
      obtain ⟨x', y', hc', ht'⟩ := hmoment t'
      exact iff_of_false (fun hacc => hbad x y hc (ht.1 hacc)) fun hacc => hbad x' y' hc' (ht'.1 hacc)

variable {env : TargetEnv} {P : CronParser} {cronError : String → Option String} {e : String} {S : Set Int} {t x y : Int}

theorem targetAccepted_iff (hvalid : cronError e = none) {seconds : Int} (h : P.intervalSeconds e t = some seconds) :
    TargetAccepted env P cronError e t ↔ seconds ≤ 300 := by
  unfold TargetAccepted assertScheduleAllowed TargetEnv.reading
  by_cases hs : seconds ≤ 300
  · simp [hvalid, h, moneyMovingMinIntervalSeconds, hs, pure, Except.pure]
  · simp [hvalid, h, moneyMovingMinIntervalSeconds, hs, not_le.1 hs, throw, throwThe, MonadExceptOf.throw]

theorem suiteAccepted_iff (hvalid : cronError e = none) (hsome : (P.next e t).isSome) {seconds : Int}
    (h : P.intervalSeconds e t = some seconds) : SuiteAccepted P cronError e t ↔ 3600 ≤ seconds := by
  obtain ⟨next, hnext⟩ := Option.isSome_iff_exists.1 hsome
  unfold SuiteAccepted validateCron
  simp only [hvalid, h, hnext, MIN_INTERVAL_SECONDS]
  by_cases hs : seconds < 3600
  · simp [hs]
  · simp [hs, not_lt.1 hs]

theorem target_gap (h : P.Slotted e S) (hvalid : cronError e = none) (hc : Consecutive S x y)
    (ht : P.intervalSeconds e t = some ((y - x) / 1000)) :
    TargetAccepted env P cronError e t ↔ y - x ≤ 300000 := by
  have hdvd := h.gap_dvd hc
  rw [targetAccepted_iff hvalid ht]
  omega

theorem suite_gap (h : P.Slotted e S) (hvalid : cronError e = none) (hc : Consecutive S x y)
    (ht : P.intervalSeconds e t = some ((y - x) / 1000)) : SuiteAccepted P cronError e t ↔ 3600000 ≤ y - x := by
  have hdvd := h.gap_dvd hc
  obtain ⟨u, hu, -⟩ := h.next t
  rw [suiteAccepted_iff hvalid (by simp [hu]) ht]
  omega

/-- The limits hold exactly if the gaps of the schedule are all on one side of them. -/
theorem limitsHold_iff (env : TargetEnv) (h : P.Slotted e S) (hvalid : cronError e = none) :
    LimitsHold env P cronError e S ↔
      ((∀ x y, Consecutive S x y → y - x ≤ 300000) ∨ ∀ x y, Consecutive S x y → 300000 < y - x) ∧
        ((∀ x y, Consecutive S x y → 3600000 ≤ y - x) ∨ ∀ x y, Consecutive S x y → y - x < 3600000) := by
  have htarget := @one_gap_iff S (TargetAccepted env P cronError e) (· ≤ 300000)
    (fun x y hc => target_gap h hvalid hc (h.intervalSeconds_before hc))
    (fun t => by
      obtain ⟨x, y, hc, ht⟩ := h.exists_gap t
      exact ⟨x, y, hc, target_gap h hvalid hc ht⟩)
  have hsuite := @one_gap_iff S (SuiteAccepted P cronError e) (3600000 ≤ ·)
    (fun x y hc => suite_gap h hvalid hc (h.intervalSeconds_before hc))
    (fun t => by
      obtain ⟨x, y, hc, ht⟩ := h.exists_gap t
      exact ⟨x, y, hc, suite_gap h hvalid hc ht⟩)
  simp only [not_le] at htarget hsuite
  rw [← htarget, ← hsuite]
  constructor
  · exact fun hl => ⟨fun t => ⟨(hl t).1, fun t' => ((hl t).2.2 t').1⟩, fun t => ⟨(hl t).2.1, fun t' => ((hl t).2.2 t').2⟩⟩
  · exact fun hl t => ⟨(hl.1 t).1, (hl.2 t).1, fun t' => ⟨(hl.1 t).2 t', (hl.2 t).2 t'⟩⟩

/-! ### An hour in the morning -/

/-- Every five minutes from nine to ten. -/
def morningChecks : Pattern where
  period := 86400000
  first := 32400000
  rest := [32700000, 33000000, 33300000, 33600000, 33900000, 34200000, 34500000, 34800000, 35100000, 35400000, 35700000]
  sorted := by decide
  bounds := by decide

/-- At nine, and half an hour later. -/
def morningSuites : Pattern where
  period := 86400000
  first := 32400000
  rest := [34200000]
  sorted := by decide
  bounds := by decide

def mornings : CronParser :=
  CronParser.patterned fun e =>
    if e = "*/5 9 * * *" then some morningChecks
    else if e = "0,30 9 * * *" then some morningSuites
    else if e = "0 * * * *" then some CronParser.hourly
    else none

theorem hourly_limitsHold : LimitsHold .plain mornings (fun _ => none) "0 * * * *" CronParser.hourly.points := by
  have hgap : ∀ x y, Consecutive CronParser.hourly.points x y → y - x = 3600000 := by
    intro x y hc
    obtain ⟨q, o, ho, rfl⟩ := Pattern.mem_points_iff.1 hc.1
    obtain rfl : o = 0 := List.mem_singleton.1 ho
    have hnone : CronParser.hourly.offsets.find? ((q * (3600000 : Nat) + 0) % (3600000 : Nat) < ·) = none := by
      rw [Int.mul_add_emod_self_right]
      rfl
    have hdiv : (q * (3600000 : Nat) + 0) / (3600000 : Nat) = q := by omega
    rw [Pattern.eq_next hc, Pattern.next, show CronParser.hourly.period = 3600000 from rfl, hnone, hdiv]
    show (q + 1) * (3600000 : Nat) + 0 - _ = _
    omega
  refine (limitsHold_iff .plain (CronParser.patterned_iterated rfl (by decide) (by decide)).toSlotted rfl).2 ⟨.inr ?_, .inl ?_⟩
  · intro x y hc
    have := hgap x y hc
    omega
  · intro x y hc
    have := hgap x y hc
    omega

/-- At ten past nine a money-moving target is accepted that goes unchecked through the night, and which is refused at
eight minutes to ten; and so is a suite that runs twice in half an hour. -/
theorem morning_schedules_accepted :
    TargetAccepted .plain mornings (fun _ => none) "*/5 9 * * *" 33000000 ∧
      ¬ TargetAccepted .plain mornings (fun _ => none) "*/5 9 * * *" 35520000 ∧
      ¬ LimitsHold .plain mornings (fun _ => none) "*/5 9 * * *" morningChecks.points ∧
      SuiteAccepted mornings (fun _ => none) "0,30 9 * * *" 33000000 ∧
      ¬ LimitsHold .plain mornings (fun _ => none) "0,30 9 * * *" morningSuites.points := by
  have hchecks : TargetAccepted .plain mornings (fun _ => none) "*/5 9 * * *" 33000000 :=
    (targetAccepted_iff rfl (show _ = some 300 by decide +kernel)).2 (by decide)
  have hrefused : ¬ TargetAccepted .plain mornings (fun _ => none) "*/5 9 * * *" 35520000 := fun h =>
    absurd ((targetAccepted_iff rfl (show _ = some 83100 by decide +kernel)).1 h) (by decide)
  have hsuite : SuiteAccepted mornings (fun _ => none) "0,30 9 * * *" 33000000 := ⟨34200000, by decide +kernel⟩
  refine ⟨hchecks, hrefused, fun h => ?_, hsuite, fun h => ?_⟩
  · exact hrefused (((h 33000000).2.2 35520000).1.1 hchecks)
  · have hgap := (h 33000000).2.1 hsuite 32400000 34200000
      (Pattern.consecutive_next (p := morningSuites) (x := 32400000) (Pattern.mem_points_iff.2 ⟨0, 32400000, by decide, rfl⟩))
    omega

end CronMonitor
