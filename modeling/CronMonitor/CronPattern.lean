import CronMonitor.Cron
import CronMonitor.Lib.Gaps

/-!
# Slots at whole seconds

Cron fields name seconds at the least, so every slot is at a whole second and `intervalSeconds` rounds nothing.
`patterned` is a parser for expressions that name the times of a day.
-/

namespace CronMonitor.CronParser
open Slots

variable {P : CronParser} {e : String} {S : Set Int} {t a b x y : Int}

/-- A parseable expression with these slots, each at a whole second. -/
structure Slotted (P : CronParser) (e : String) (S : Set Int) : Prop where
  next : Enumerates (P.next e) S
  wholeSeconds : ∀ x ∈ S, 1000 ∣ x

namespace Slotted

theorem gap_dvd (h : P.Slotted e S) (hc : Consecutive S x y) : 1000 ∣ y - x :=
  Int.dvd_sub (h.wholeSeconds y hc.2.1.1) (h.wholeSeconds x hc.1)

/-- The gap is the one between the next two slots. -/
theorem intervalSeconds (h : P.Slotted e S) (ha : IsLeast {x ∈ S | t < x} a) (hb : IsLeast {x ∈ S | a < x} b) :
    P.intervalSeconds e t = some ((b - a) / 1000) := by
  have hdvd := h.gap_dvd ⟨ha.1.1, hb⟩
  simp only [CronParser.intervalSeconds, h.next.next_eq ha, h.next.next_eq hb, Option.bind_eq_bind, Option.bind_some,
    Option.pure_def, Option.some.injEq]
  show (b - a + 500) / 1000 = (b - a) / 1000
  omega

/-- Each gap is the one that some moment is judged by. -/
theorem intervalSeconds_before (h : P.Slotted e S) (hc : Consecutive S x y) :
    P.intervalSeconds e (x - 1) = some ((y - x) / 1000) := by
  refine h.intervalSeconds ⟨⟨hc.1, by omega⟩, ?_⟩ hc.2
  rintro z ⟨-, hz⟩
  omega

/-- Each moment is judged by a gap. -/
theorem exists_gap (h : P.Slotted e S) (t : Int) :
    ∃ x y, Consecutive S x y ∧ P.intervalSeconds e t = some ((y - x) / 1000) := by
  obtain ⟨x, -, hx⟩ := h.next t
  obtain ⟨y, -, hy⟩ := h.next x
  exact ⟨x, y, ⟨hx.1.1, hy⟩, h.intervalSeconds hx hy⟩

end Slotted

/-- Backwards, the iterator starts with the slot strictly before the date it was given. -/
structure Iterated (P : CronParser) (e : String) (S : Set Int) : Prop extends P.Slotted e S where
  prev : Precedes (P.prev e) S

/-! ### Expressions that name times of a day -/

def patterned (pattern : String → Option Pattern) : CronParser where
  next e t := (pattern e).map (·.next t)
  prev e t := (pattern e).map fun p => p.prev (t - 1)

theorem patterned_iterated {pattern : String → Option Pattern} {p : Pattern} (he : pattern e = some p)
    (hperiod : 1000 ∣ p.period) (hoffsets : ∀ o ∈ p.offsets, 1000 ∣ o) : (patterned pattern).Iterated e p.points where
  next t := ⟨p.next t, by simp [patterned, he], Pattern.isLeast_next t⟩
  prev t := ⟨p.prev (t - 1), by simp [patterned, he], Pattern.isGreatest_prev_sub_one t⟩
  wholeSeconds x hx := by
    obtain ⟨q, o, ho, rfl⟩ := Pattern.mem_points_iff.1 hx
    have hp : (1000 : Int) ∣ p.period := by exact_mod_cast hperiod
    exact Int.dvd_add (Dvd.dvd.mul_left hp q) (hoffsets o ho)

/-- Every hour, in milliseconds. -/
def hourly : Pattern where
  period := 3600000
  first := 0
  rest := []
  sorted := by decide
  bounds := by decide

end CronMonitor.CronParser
