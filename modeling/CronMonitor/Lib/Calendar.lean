import Mathlib.Order.Interval.Set.SuccPred
import Mathlib.Tactic

/-!
# The UTC calendar

Days are numbered from 1970-01-01, times count milliseconds, and a month is numbered through all years: `12 * year +
month`. The day that a year or a month begins on is given by a formula; its inverses `yearOf` and `monthOf` are computed
digit by digit, over cycles of 400, 100, 4 years and one. Months partition time.
-/

namespace Calendar

/-- The day of January 1st. -/
def dayFromYear (y : Int) : Int := 365 * (y - 1970) + (y - 1969) / 4 - (y - 1901) / 100 + (y - 1601) / 400

/-- The year of a day. -/
def yearOf (d : Int) : Int :=
  let e := d + 719162
  let r := e % 146097
  let c := min 3 (r / 36524)
  let r' := r - 36524 * c
  400 * (e / 146097) + 100 * c + 4 * (r' / 1461) + min 3 (r' % 1461 / 365) + 1

/-- The days of a year beyond 365. -/
def leapDay (y : Int) : Int := dayFromYear (y + 1) - dayFromYear y - 365

/-- The days of a year before its month `m`, counted from 0. -/
def monthOffset (leap m : Int) : Int := if m < 2 then 31 * m else 59 + leap + (153 * (m - 2) + 2) / 5

/-- The first day of a month. -/
def dayFromMonth (k : Int) : Int := dayFromYear (k / 12) + monthOffset (leapDay (k / 12)) (k % 12)

/-- The month of a day within its year. -/
def monthIndex (leap doy : Int) : Int :=
  if doy < 59 + leap then doy / 31 else 2 + (5 * (doy - 59 - leap) + 2) / 153

def monthOf (d : Int) : Int := 12 * yearOf d + monthIndex (leapDay (yearOf d)) (d - dayFromYear (yearOf d))

/-! ### Years -/

section Digits

variable {q c f o : Int} (hc : 0 ≤ c ∧ c ≤ 3) (hf : 0 ≤ f ∧ f ≤ 24) (ho : 0 ≤ o ∧ o ≤ 3)
include hc hf ho

theorem dayFromYear_digits : dayFromYear (400 * q + 100 * c + 4 * f + o + 1) =
    146097 * q + 36524 * c + 1461 * f + 365 * o - 719162 := by
  have h4 : (400 * q + 100 * c + 4 * f + o + 1 - 1969) / 4 = 100 * q + 25 * c + f - 492 := by omega
  have h100 : (400 * q + 100 * c + 4 * f + o + 1 - 1901) / 100 = 4 * q + c - 19 := by omega
  have h400 : (400 * q + 100 * c + 4 * f + o + 1 - 1601) / 400 = q - 4 := by omega
  rw [dayFromYear, h4, h100, h400]
  omega

/-- Every fourth year is a leap year, but not the last of a century unless it is the last of four. -/
theorem leapDay_digits : leapDay (400 * q + 100 * c + 4 * f + o + 1) = if o = 3 ∧ (f ≠ 24 ∨ c = 3) then 1 else 0 := by
  have h4 : (400 * q + 100 * c + 4 * f + o + 1 + 1 - 1969) / 4 =
      100 * q + 25 * c + f - 492 + (if o = 3 then 1 else 0) := by
    split_ifs <;> omega
  have h100 : (400 * q + 100 * c + 4 * f + o + 1 + 1 - 1901) / 100 =
      4 * q + c - 19 + (if o = 3 ∧ f = 24 then 1 else 0) := by
    split_ifs <;> omega
  have h400 : (400 * q + 100 * c + 4 * f + o + 1 + 1 - 1601) / 400 =
      q - 4 + (if o = 3 ∧ f = 24 ∧ c = 3 then 1 else 0) := by
    split_ifs <;> omega
  rw [leapDay, dayFromYear_digits hc hf ho, dayFromYear, h4, h100, h400]
  split_ifs <;> omega

end Digits

theorem leapDay_bounds (y : Int) : 0 ≤ leapDay y ∧ leapDay y ≤ 1 := by
  have hy : y = 400 * ((y - 1) / 400) + 100 * ((y - 1) % 400 / 100) + 4 * ((y - 1) % 100 / 4) + (y - 1) % 4 + 1 := by
    omega
  rw [hy, leapDay_digits (by omega) (by omega) (by omega)]
  split_ifs <;> omega

theorem yearOf_spec (d : Int) : dayFromYear (yearOf d) ≤ d ∧ d < dayFromYear (yearOf d) + 365 + leapDay (yearOf d) := by
  unfold yearOf
  simp only
  generalize hr : (d + 719162) % 146097 = r
  generalize hc : min 3 (r / 36524) = c
  generalize hf : (r - 36524 * c) / 1461 = f
  generalize hr' : (r - 36524 * c) % 1461 = r'
  generalize ho : min 3 (r' / 365) = o
  have hc' : 0 ≤ c ∧ c ≤ 3 := by omega
  have hrest : 0 ≤ r - 36524 * c ∧ (c < 3 → r - 36524 * c < 36524) ∧ r - 36524 * c < 36525 := by omega
  have hf' : 0 ≤ f ∧ f ≤ 24 := by omega
  have ho' : 0 ≤ o ∧ o ≤ 3 := by omega
  rw [dayFromYear_digits hc' hf' ho', leapDay_digits hc' hf' ho']
  constructor
  · omega
  · split_ifs <;> omega

/-! ### Months -/

/-- A month has 28 to 31 days. -/
theorem dayFromMonth_succ (k : Int) :
    dayFromMonth k + 28 ≤ dayFromMonth (k + 1) ∧ dayFromMonth (k + 1) ≤ dayFromMonth k + 31 := by
  have hleap := leapDay_bounds (k / 12)
  by_cases hlast : k % 12 = 11
  · have hdiv : (k + 1) / 12 = k / 12 + 1 := by omega
    have hmod : (k + 1) % 12 = 0 := by omega
    have hnext : dayFromYear (k / 12 + 1) = dayFromYear (k / 12) + 365 + leapDay (k / 12) := by
      rw [leapDay]
      omega
    rw [dayFromMonth, dayFromMonth, hdiv, hmod, hlast, hnext, monthOffset, monthOffset]
    norm_num
    omega
  · have hdiv : (k + 1) / 12 = k / 12 := by omega
    have hmod : (k + 1) % 12 = k % 12 + 1 := by omega
    have hm : 0 ≤ k % 12 ∧ k % 12 < 11 := by omega
    rw [dayFromMonth, dayFromMonth, hdiv, hmod]
    generalize k % 12 = m at hm hlast
    generalize leapDay (k / 12) = leap at hleap
    unfold monthOffset
    split_ifs <;> omega

theorem dayFromMonth_strictMono : StrictMono dayFromMonth :=
  strictMono_int_of_lt_succ fun k => by
    have := dayFromMonth_succ k
    omega

theorem monthIndex_spec {leap doy : Int} (hleap : 0 ≤ leap ∧ leap ≤ 1) (hdoy : 0 ≤ doy) (hyear : doy < 365 + leap) :
    (0 ≤ monthIndex leap doy ∧ monthIndex leap doy ≤ 11) ∧ monthOffset leap (monthIndex leap doy) ≤ doy ∧
      (monthIndex leap doy < 11 → doy < monthOffset leap (monthIndex leap doy + 1)) := by
  unfold monthIndex monthOffset
  split_ifs <;> omega

theorem monthOf_spec (d : Int) : dayFromMonth (monthOf d) ≤ d ∧ d < dayFromMonth (monthOf d + 1) := by
  obtain ⟨hyear, hnext⟩ := yearOf_spec d
  obtain ⟨hm, hle, hlt⟩ := monthIndex_spec (leapDay_bounds (yearOf d)) (Int.sub_nonneg_of_le hyear)
    (show d - dayFromYear (yearOf d) < 365 + leapDay (yearOf d) by omega)
  have hstart : dayFromMonth (monthOf d) = dayFromYear (yearOf d) +
      monthOffset (leapDay (yearOf d)) (monthIndex (leapDay (yearOf d)) (d - dayFromYear (yearOf d))) := by
    have hdiv : monthOf d / 12 = yearOf d := by
      rw [monthOf]
      omega
    have hmod : monthOf d % 12 = monthIndex (leapDay (yearOf d)) (d - dayFromYear (yearOf d)) := by
      rw [monthOf]
      omega
    rw [dayFromMonth, hdiv, hmod]
  refine ⟨by omega, ?_⟩
  by_cases hlast : monthIndex (leapDay (yearOf d)) (d - dayFromYear (yearOf d)) < 11
  · have hdiv : (monthOf d + 1) / 12 = yearOf d := by
      rw [monthOf]
      omega
    have hmod : (monthOf d + 1) % 12 = monthIndex (leapDay (yearOf d)) (d - dayFromYear (yearOf d)) + 1 := by
      rw [monthOf]
      omega
    rw [dayFromMonth, hdiv, hmod]
    have := hlt hlast
    omega
  · have hdiv : (monthOf d + 1) / 12 = yearOf d + 1 := by
      rw [monthOf]
      omega
    have hmod : (monthOf d + 1) % 12 = 0 := by
      rw [monthOf]
      omega
    rw [dayFromMonth, hdiv, hmod, monthOffset, if_pos (by decide)]
    rw [leapDay] at hnext
    omega

/-- A day lies in one month only. -/
theorem monthOf_eq {d k : Int} (hle : dayFromMonth k ≤ d) (hlt : d < dayFromMonth (k + 1)) : monthOf d = k := by
  obtain ⟨hle', hlt'⟩ := monthOf_spec d
  have h₁ : k < monthOf d + 1 := dayFromMonth_strictMono.lt_iff_lt.1 (lt_of_le_of_lt hle hlt')
  have h₂ : monthOf d < k + 1 := dayFromMonth_strictMono.lt_iff_lt.1 (lt_of_le_of_lt hle' hlt)
  omega

/-! ### Months of time -/

/-- The first moment of the month that a time lies in. -/
def monthStart (t : Int) : Int := dayFromMonth (monthOf (t / 86400000)) * 86400000

/-- The first moment of the next month. -/
def monthEnd (t : Int) : Int := dayFromMonth (monthOf (t / 86400000) + 1) * 86400000

variable {t t' : Int}

theorem monthStart_le (t : Int) : monthStart t ≤ t := by
  have h := (monthOf_spec (t / 86400000)).1
  unfold monthStart
  omega

theorem lt_monthEnd (t : Int) : t < monthEnd t := by
  have h := (monthOf_spec (t / 86400000)).2
  unfold monthEnd
  omega

theorem month_length (t : Int) : monthStart t + 28 * 86400000 ≤ monthEnd t := by
  have h := (dayFromMonth_succ (monthOf (t / 86400000))).1
  unfold monthStart monthEnd
  omega

theorem same_month (hle : monthStart t ≤ t') (hlt : t' < monthEnd t) :
    monthStart t' = monthStart t ∧ monthEnd t' = monthEnd t := by
  have hmonth : monthOf (t' / 86400000) = monthOf (t / 86400000) := by
    unfold monthStart at hle
    unfold monthEnd at hlt
    exact monthOf_eq (by omega) (by omega)
  unfold monthStart monthEnd
  rw [hmonth]
  exact ⟨rfl, rfl⟩

/-- Months do not overlap: a time after the end of one is in a later one. -/
theorem monthEnd_le_monthStart (h : monthEnd t ≤ t') : monthEnd t ≤ monthStart t' := by
  by_contra hlt
  have hlast := lt_monthEnd t
  have hin : monthStart t' ≤ monthEnd t - 1 ∧ monthEnd t - 1 < monthEnd t' :=
    ⟨by omega, by have := lt_monthEnd t'; omega⟩
  have hin' : monthStart t ≤ monthEnd t - 1 ∧ monthEnd t - 1 < monthEnd t :=
    ⟨by have := monthStart_le t; omega, by omega⟩
  have heq := (same_month hin.1 hin.2).2
  rw [(same_month hin'.1 hin'.2).2] at heq
  have := lt_monthEnd t'
  omega

theorem monthStart_mono (h : t ≤ t') : monthStart t ≤ monthStart t' := by
  rcases lt_or_ge t' (monthEnd t) with hlt | hge
  · exact (same_month ((monthStart_le t).trans h) hlt).1.ge
  · have hstart := monthStart_le t
    have hend := lt_monthEnd t
    have hnext := monthEnd_le_monthStart hge
    omega

end Calendar
