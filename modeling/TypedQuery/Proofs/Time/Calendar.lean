import Mathlib.Tactic.IntervalCases
import TypedQuery.Time.Instant

/-!
# Days and seconds of the calendar

The day number of a date is a closed formula over eras that begin in March. What it means
is said here by counting: the days of all years between 1970 and the year of the date, of
the months before its own, and of its own month before it. The formula moves from one year,
month and day to the next by as many days as they have, and so the two agree.

A date together with a time of day is a `Moment`. Not every moment is one of the
calendar (`Moment.Valid`).
-/

namespace TypedQuery.Calendar

/-! ## Counting days -/

/-- The days of so many years from one on. -/
def daysInYears (first : Int) : Nat → Nat
  | 0 => 0
  | count + 1 => daysInYears first count + daysInYear (first + count)

/-- The days of the first months of a year. -/
def daysInMonths (year : Int) : Nat → Nat
  | 0 => 0
  | count + 1 => daysInMonths year count + daysInMonth year (count + 1)

/-- The days from 1970-01-01 to a date; years before 1970 count back from it. -/
def Date.daysSinceEpoch (d : Date) : Int :=
  daysInYears 1970 (d.year - 1970).toNat - daysInYears d.year (1970 - d.year).toNat
    + daysInMonths d.year (d.month - 1)
    + (d.day - 1)

theorem isLeap_iff {year : Int} :
    isLeap year = true ↔ year % 4 = 0 ∧ (year % 100 ≠ 0 ∨ year % 400 = 0) := by
  simp [isLeap]

/-- The days of the years before one that begin in March. -/
def daysBeforeMarch (year : Int) : Int :=
  year / 400 * 146097 + (year % 400 * 365 + year % 400 / 4 - year % 400 / 100)

/-- A leap day ends the year that begins in March before it. -/
theorem daysBeforeMarch_eq (year : Int) :
    daysBeforeMarch year = daysBeforeMarch (year - 1) + daysInYear year := by
  have hleap := @isLeap_iff year
  unfold daysBeforeMarch daysInYear
  split
  · next hl =>
      have hyear := hleap.1 hl
      omega
  · next hl =>
      have hyear := mt hleap.2 hl
      omega

namespace Date

theorem toDays_early (year : Int) {month : Nat} (h : month ≤ 2) (day : Nat) :
    (mk year month day).toDays
      = daysBeforeMarch (year - 1) + ((153 * (month + 9) + 2) / 5 + day - 1) - 719468 := by
  simp only [toDays, daysBeforeMarch, if_pos h]
  omega

theorem toDays_late (year : Int) {month : Nat} (h : 2 < month) (day : Nat) :
    (mk year month day).toDays
      = daysBeforeMarch year + ((153 * (month - 3) + 2) / 5 + day - 1) - 719468 := by
  simp only [toDays, daysBeforeMarch, if_neg (Nat.not_le.2 h)]
  omega

theorem toDays_day (year : Int) (month day : Nat) :
    (mk year month day).toDays = (mk year month 1).toDays + (day - 1) := by
  rcases Nat.lt_or_ge 2 month with h | h
  · rw [toDays_late year h, toDays_late year h]
    omega
  · rw [toDays_early year h, toDays_early year h]
    omega

theorem toDays_next_month (year : Int) {month : Nat} (hpos : 1 ≤ month) (hlt : month < 12) :
    (mk year (month + 1) 1).toDays = (mk year month 1).toDays + daysInMonth year month := by
  have hyear := daysBeforeMarch_eq year
  unfold daysInYear at hyear
  unfold daysInMonth
  rcases Nat.lt_trichotomy month 2 with h | rfl | h
  · obtain rfl : month = 1 := by omega
    rw [toDays_early year (by decide), toDays_early year (by decide)]
    split_ifs <;> omega
  · rw [toDays_late year (by decide), toDays_early year (by decide)]
    split_ifs at hyear ⊢ <;> omega
  · have hnext := toDays_late year (show 2 < month + 1 by omega) 1
    rw [hnext, toDays_late year h]
    interval_cases month <;> split_ifs <;> omega

theorem toDays_next_year (year : Int) :
    (mk (year + 1) 1 1).toDays = (mk year 1 1).toDays + daysInYear year := by
  have hyear := daysBeforeMarch_eq year
  rw [toDays_early (year + 1) (by decide), toDays_early year (by decide), Int.add_sub_cancel]
  omega

theorem toDays_years (year : Int) (count : Nat) :
    (mk (year + count) 1 1).toDays = (mk year 1 1).toDays + daysInYears year count := by
  induction count with
  | zero =>
      rw [daysInYears, Int.natCast_zero, Int.add_zero, Int.add_zero]
  | succ count ih =>
      rw [Int.natCast_succ, ← Int.add_assoc, toDays_next_year, ih, daysInYears,
        Int.natCast_add, Int.add_assoc]

theorem toDays_months (year : Int) {count : Nat} (h : count < 12) :
    (mk year (count + 1) 1).toDays = (mk year 1 1).toDays + daysInMonths year count := by
  induction count with
  | zero => rw [daysInMonths, Int.natCast_zero, Int.add_zero]
  | succ count ih =>
      rw [toDays_next_month year (by omega) h, ih (by omega), daysInMonths,
        Int.natCast_add, Int.add_assoc]

/-- The first day of a year is as far from 1970 as the years between have days. -/
theorem toDays_new_year (year : Int) : (mk year 1 1).toDays
    = daysInYears 1970 (year - 1970).toNat - daysInYears year (1970 - year).toNat := by
  have hepoch : (mk 1970 1 1).toDays = 0 := rfl
  rcases Int.le_total 1970 year with h | h
  · have hyears := toDays_years 1970 (year - 1970).toNat
    rw [Int.toNat_of_nonneg (by omega), show 1970 + (year - 1970) = year by omega] at hyears
    rw [hyears, hepoch, Int.toNat_eq_zero.2 (show 1970 - year ≤ 0 by omega), daysInYears]
    omega
  · have hyears := toDays_years year (1970 - year).toNat
    rw [Int.toNat_of_nonneg (by omega), show year + (1970 - year) = 1970 by omega,
      hepoch] at hyears
    rw [Int.toNat_eq_zero.2 (show year - 1970 ≤ 0 by omega), daysInYears]
    omega

/-- The number of a day counts the days since 1970-01-01. -/
theorem toDays_eq (d : Date) (hpos : 1 ≤ d.month) (hle : d.month ≤ 12) :
    d.toDays = d.daysSinceEpoch := by
  obtain ⟨year, month, day⟩ := d
  change 1 ≤ month at hpos
  change month ≤ 12 at hle
  obtain ⟨count, rfl⟩ : ∃ count, month = count + 1 := ⟨month - 1, by omega⟩
  rw [toDays_day, toDays_months year (by omega), toDays_new_year, daysSinceEpoch]
  rfl

end Date

/-! ## Moments -/

/-- The parts of a date and a time of day. -/
structure Moment where
  year : Int
  month : Int
  day : Int
  hour : Int
  minute : Int
  second : Int
  deriving DecidableEq

namespace Moment

def parts (m : Moment) : List Int := [m.year, m.month, m.day, m.hour, m.minute, m.second]

def date (m : Moment) : Date := ⟨m.year, m.month.toNat, m.day.toNat⟩

/-- The parts are those of a date of the calendar, in the years that dates may have,
and of a time of day. -/
structure Valid (m : Moment) : Prop where
  year : yearInRange m.year = true
  month : 1 ≤ m.month ∧ m.month ≤ 12
  day : 1 ≤ m.day ∧ m.day ≤ daysInMonth m.year m.month.toNat
  hour : 0 ≤ m.hour ∧ m.hour < 24
  minute : 0 ≤ m.minute ∧ m.minute < 60
  second : 0 ≤ m.second ∧ m.second < 60

/-- The seconds from 1970-01-01T00:00:00 to the moment. -/
def elapsed (m : Moment) : Int :=
  m.date.daysSinceEpoch * 86400 + m.hour * 3600 + m.minute * 60 + m.second

variable {m : Moment}

theorem valid_iff : m.Valid ↔ (yearInRange m.year && 1 ≤ m.month && m.month ≤ 12 && 1 ≤ m.day
      && m.day ≤ (daysInMonth m.year m.month.toNat : Int)) = true
    ∧ (0 ≤ m.hour && m.hour < 24 && 0 ≤ m.minute && m.minute < 60 && 0
      ≤ m.second && m.second < 60) = true := by
  simp only [Bool.and_eq_true, decide_eq_true_eq]
  constructor
  · rintro ⟨hyear, ⟨hmonth, hmonth'⟩, ⟨hday, hday'⟩, ⟨hhour, hhour'⟩, ⟨hminute, hminute'⟩,
      ⟨hsecond, hsecond'⟩⟩
    exact ⟨⟨⟨⟨⟨hyear, hmonth⟩, hmonth'⟩, hday⟩, hday'⟩,
      ⟨⟨⟨⟨⟨hhour, hhour'⟩, hminute⟩, hminute'⟩, hsecond⟩, hsecond'⟩⟩
  · rintro ⟨⟨⟨⟨⟨hyear, hmonth⟩, hmonth'⟩, hday⟩, hday'⟩,
      ⟨⟨⟨⟨⟨hhour, hhour'⟩, hminute⟩, hminute'⟩, hsecond⟩, hsecond'⟩⟩
    exact ⟨hyear, ⟨hmonth, hmonth'⟩, ⟨hday, hday'⟩, ⟨hhour, hhour'⟩, ⟨hminute, hminute'⟩,
      ⟨hsecond, hsecond'⟩⟩

instance (m : Moment) : Decidable m.Valid := decidable_of_iff _ valid_iff.symm

theorem ofParts?_of_valid (h : m.Valid) :
    Date.ofParts? m.year m.month m.day = some m.date := if_pos (valid_iff.1 h).1

theorem clock?_of_valid (h : m.Valid) :
    Instant.clock? m.hour m.minute m.second
      = some (m.hour * 3600 + m.minute * 60 + m.second).toNat :=
  if_pos (valid_iff.1 h).2

theorem none_of_not_valid (h : ¬ m.Valid) :
    Date.ofParts? m.year m.month m.day = none
      ∨ Instant.clock? m.hour m.minute m.second = none := by
  rw [valid_iff, not_and_or] at h
  exact h.imp (if_neg ·) (if_neg ·)

theorem toDays_of_valid (h : m.Valid) : m.date.toDays = m.date.daysSinceEpoch := by
  obtain ⟨hpos, hle⟩ := h.month
  refine m.date.toDays_eq ?_ ?_ <;> simp only [date] <;> omega

end Moment

end TypedQuery.Calendar
