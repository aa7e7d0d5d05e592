import CronMonitor.Domain
import CronMonitor.Lib.Slots

/-!
# `lib/cron.ts`

The iterator itself is cron-parser's. `next e t` and `prev e t` are the first occurrence it returns when it
parses `e` with `currentDate: t`, and `none` when it throws; an iterator goes on from the occurrence it
returned last.
-/

namespace CronMonitor

structure CronParser where
  next : String → Time → Option Time
  prev : String → Time → Option Time

namespace CronParser

variable (P : CronParser)

def previousSlot (expression : String) (at_ : Time) : Option Time := P.prev expression at_

/-- The gap between the two occurrences after `from_`, rounded to seconds. -/
def intervalSeconds (expression : String) (from_ : Time) : Option Int := do
  let a ← P.next expression from_
  let b ← P.next expression a
  return (b - a + 500) / 1000

/-- All slots in the half-open range `(after, until]`, capped at `limit`. -/
def slotsBetween (expression : String) (after til : Time) (limit : Nat) : Option (List Time) :=
  Slots.upTo (P.next expression) limit after til

/-- The default of `slotsBetween`'s last parameter. -/
def slotsLimit : Nat := 1000

/-- A parseable expression with these slots: occurrences come in order, and `previousSlot` gives the slot at or before
the date asked for, as its comment says. At a date that is a slot itself the iterator gives the one before it
(`Iterated`). -/
structure Parses (expression : String) (slots : Set Time) : Prop where
  next : Slots.Enumerates (P.next expression) slots
  prev : Slots.Floors (P.prev expression) slots

/-- Expressions that name a fixed period in milliseconds, with slots at or before a date. -/
def periodic (period : String → Option Nat) : CronParser where
  next e t := (period e).map fun p => (t / p + 1) * p
  prev e t := (period e).map fun p => t / p * p

/-- Every minute and every hour, and nothing else. -/
def minutesAndHours : CronParser :=
  periodic fun e => if e = "*/1 * * * *" then some 60000 else if e = "0 * * * *" then some 3600000 else none

theorem periodic_parses {period : String → Option Nat} {e : String} {p : Nat} (he : period e = some p)
    (hp : 0 < p) : (periodic period).Parses e {x | (p : Int) ∣ x} := by
  have hp' : (0 : Int) < p := by exact_mod_cast hp
  refine ⟨fun t => ⟨(t / p + 1) * p, by simp [periodic, he], ?_⟩, fun t => ⟨t / p * p, by simp [periodic, he], ?_⟩⟩
  · refine ⟨⟨Dvd.intro_left _ rfl, ?_⟩, ?_⟩
    · exact Int.lt_ediv_add_one_mul_self t hp'
    · rintro x ⟨⟨k, rfl⟩, hx⟩
      have hk : t / p < k := Int.ediv_lt_of_lt_mul hp' (by rwa [mul_comm])
      rw [mul_comm (p : Int) k]
      exact mul_le_mul_of_nonneg_right hk hp'.le
  · refine ⟨⟨Dvd.intro_left _ rfl, Int.ediv_mul_le t hp'.ne'⟩, ?_⟩
    rintro x ⟨⟨k, rfl⟩, hx⟩
    have hk : k ≤ t / p := (Int.le_ediv_iff_mul_le hp').2 (by rwa [mul_comm])
    rw [mul_comm (p : Int) k]
    exact mul_le_mul_of_nonneg_right hk hp'.le

def minuteAndHourSlots (expression : String) : Set Time :=
  {x | (if expression = "*/1 * * * *" then 60000 else 3600000 : Int) ∣ x}

theorem minutesAndHours_parses {e : String} (he : e = "*/1 * * * *" ∨ e = "0 * * * *") :
    minutesAndHours.Parses e (minuteAndHourSlots e) := by
  rcases he with rfl | rfl
  · exact periodic_parses rfl (by decide)
  · exact periodic_parses rfl (by decide)

end CronParser

end CronMonitor
