import Mathlib.Order.Bounds.Defs
import TypedQuery.Proofs.Time.Calendar

/-!
# Periods of time

A period of the calendar or of the clock starts again and again, and every instant lies in
one of each kind. What it is to start a period is said by dates (`Period.Starts`): a year
starts with the first of January, a week with a Monday. The start that an instant goes
back to is computed from the date that it is on (`Period.floor`), and it is the greatest
start that is not later.

Two things are needed of the calendar for that. The date of a day number is the one whose
day number it is (`Date.ofDays_spec`), and the first days of the months, taken one after
the other over all years, come later and later (`firstOfMonth`).
-/

namespace TypedQuery.Calendar

/-! ## The date of a day

In years that begin in March, of which an era has 400. -/

/-- The year of an era that a day of it falls in. -/
def yearOfEra (d : Int) : Int := (d - d / 1460 + d / 36524 - d / 146096) / 365

/-- The year from March on that a day falls in, the days counted from the first of the
eras. -/
def yearFromMarch (z : Int) : Int := yearOfEra (z % 146097) + z / 146097 * 400

theorem yearOfEra_range {d : Int} (hnonneg : 0 ≤ d) (hlt : d < 146097) :
    0 ≤ yearOfEra d ∧ yearOfEra d < 400 := by
  unfold yearOfEra
  omega

/-- A day is not before its year; no more leap days are taken off than there were, by
centuries. -/
theorem yearOfEra_le {d : Int} (hnonneg : 0 ≤ d) (hlt : d < 146097) :
    yearOfEra d * 365 + yearOfEra d / 4 - yearOfEra d / 100 ≤ d := by
  have hyear : 365 * yearOfEra d ≤ d - d / 1460 + d / 36524 - d / 146096 := by
    unfold yearOfEra
    omega
  generalize yearOfEra d = y at hyear ⊢
  by_contra hgt
  have hcentury : d / 36524 - d / 146096 ≤ y / 100 := by omega
  omega

/-- A day is before the next year, if that is one of the era. -/
theorem lt_next_yearOfEra {d : Int} (hnonneg : 0 ≤ d) (hlt : d < 146097)
    (hlast : yearOfEra d < 399) :
    d < (yearOfEra d + 1) * 365 + (yearOfEra d + 1) / 4 - (yearOfEra d + 1) / 100 := by
  have hyear : d - d / 1460 + d / 36524 - d / 146096 < 365 * (yearOfEra d + 1) := by
    unfold yearOfEra
    omega
  generalize yearOfEra d = y at hyear hlast ⊢
  by_contra hge
  have hcentury : (y + 1) / 100 ≤ d / 36524 := by omega
  have hera : d / 146096 = 0 := by omega
  omega

theorem daysBeforeMarch_add {y : Int} (hnonneg : 0 ≤ y) (hlt : y < 400) (era : Int) :
    daysBeforeMarch (y + era * 400) = era * 146097 + (y * 365 + y / 4 - y / 100) := by
  unfold daysBeforeMarch
  rw [Int.add_mul_ediv_right _ _ (by decide), Int.add_mul_emod_self_right,
    Int.ediv_eq_zero_of_lt hnonneg hlt, Int.emod_eq_of_lt hnonneg hlt, Int.zero_add]

theorem daysBeforeMarch_yearFromMarch (z : Int) :
    daysBeforeMarch (yearFromMarch z) = z / 146097 * 146097
    + (yearOfEra (z % 146097) * 365 + yearOfEra (z % 146097) / 4
      - yearOfEra (z % 146097) / 100) := by
  obtain ⟨hnonneg, hlt⟩ := yearOfEra_range (d := z % 146097) (by omega) (by omega)
  exact daysBeforeMarch_add hnonneg hlt _

theorem yearFromMarch_spec (z : Int) :
    daysBeforeMarch (yearFromMarch z) ≤ z ∧ z < daysBeforeMarch (yearFromMarch z + 1) := by
  have hnonneg : 0 ≤ z % 146097 := by omega
  have hlt : z % 146097 < 146097 := by omega
  have hrange := yearOfEra_range hnonneg hlt
  have hle := yearOfEra_le hnonneg hlt
  constructor
  · rw [daysBeforeMarch_yearFromMarch]
    omega
  · rw [yearFromMarch, Int.add_right_comm]
    by_cases hlast : yearOfEra (z % 146097) < 399
    · have hgt := lt_next_yearOfEra hnonneg hlt hlast
      rw [daysBeforeMarch_add (by omega) (by omega)]
      omega
    · -- The year after the last of an era is the first of the next; the era has a day more.
      rw [show yearOfEra (z % 146097) + 1 + z / 146097 * 400
        = 0 + (z / 146097 + 1) * 400 by omega, daysBeforeMarch_add (by decide) (by decide)]
      omega

namespace Date

/-- A date of the calendar, in any year. -/
structure Proper (d : Date) : Prop where
  month_pos : 1 ≤ d.month
  month_le : d.month ≤ 12
  day_pos : 1 ≤ d.day
  day_le : d.day ≤ daysInMonth d.year d.month

/-- The date of a day by its place in the year from March on. -/
theorem ofDays_eq {days z k s month : Int} (hz : z = days + 719468)
    (hk : k = z - daysBeforeMarch (yearFromMarch z)) (hs : s = (5 * k + 2) / 153)
    (hmonth : month = if s < 10 then s + 3 else s - 9) :
    ofDays days = ⟨if month ≤ 2 then yearFromMarch z + 1 else yearFromMarch z, month.toNat,
      (k - (153 * s + 2) / 5 + 1).toNat⟩ := by
  have hplace : k = z % 146097
      - (365 * yearOfEra (z % 146097) + yearOfEra (z % 146097) / 4
        - yearOfEra (z % 146097) / 100) := by
    rw [hk, daysBeforeMarch_yearFromMarch]
    omega
  rw [hmonth, hs, hplace, hz]
  rfl

/-- Every day has a date, and that date has the number of the day. -/
theorem ofDays_spec (days : Int) : (ofDays days).Proper ∧ (ofDays days).toDays = days := by
  obtain ⟨z, hz⟩ : ∃ z, z = days + 719468 := ⟨_, rfl⟩
  obtain ⟨k, hk⟩ : ∃ k, k = z - daysBeforeMarch (yearFromMarch z) := ⟨_, rfl⟩
  obtain ⟨s, hs⟩ : ∃ s, s = (5 * k + 2) / 153 := ⟨_, rfl⟩
  obtain ⟨month, hmonth⟩ : ∃ month, month = if s < 10 then s + 3 else s - 9 := ⟨_, rfl⟩
  rw [ofDays_eq hz hk hs hmonth]
  obtain ⟨hle, hlt⟩ := yearFromMarch_spec z
  generalize yearFromMarch z = y at *
  have hyear := daysBeforeMarch_eq (y + 1)
  rw [Int.add_sub_cancel] at hyear
  have hplace : 0 ≤ k ∧ k < 366 := by
    have hdays : daysInYear (y + 1) ≤ 366 := by
      unfold daysInYear
      split <;> decide
    omega
  by_cases hsame : s < 10
  · rw [if_pos hsame] at hmonth
    rw [if_neg (by omega)]
    have hlate :=
      toDays_late y (show 2 < month.toNat by omega) (k - (153 * s + 2) / 5 + 1).toNat
    refine ⟨⟨by simp only; omega, by simp only; omega, by simp only; omega, ?_⟩,
      by rw [hlate]; omega⟩
    simp only [daysInMonth]
    split_ifs <;> omega
  · -- January and February are the last months of the year before.
    rw [if_neg hsame] at hmonth
    rw [if_pos (by omega)]
    have hearly :=
      toDays_early (y + 1) (show month.toNat ≤ 2 by omega) (k - (153 * s + 2) / 5 + 1).toNat
    rw [Int.add_sub_cancel] at hearly
    refine ⟨⟨by simp only; omega, by simp only; omega, by simp only; omega, ?_⟩,
      by rw [hearly]; omega⟩
    simp only [daysInMonth]
    unfold daysInYear at hyear
    split_ifs at hyear ⊢ <;> omega

end Date

/-! ## The first days of the months -/

/-- The first day of a month, the months counted on from January of the year zero. -/
def firstOfMonth (m : Int) : Int := (Date.mk (m / 12) ((m % 12).toNat + 1) 1).toDays

/-- The month that a day falls in. -/
def monthOfDay (days : Int) : Int :=
  (Date.ofDays days).year * 12 + ((Date.ofDays days).month - 1)

theorem firstOfMonth_eq (year : Int) {month : Nat} (hpos : 1 ≤ month) (hle : month ≤ 12) :
    firstOfMonth (year * 12 + (month - 1)) = (Date.mk year month 1).toDays := by
  rw [firstOfMonth, show (year * 12 + ((month : Int) - 1)) / 12 = year by omega,
    show ((year * 12 + ((month : Int) - 1)) % 12).toNat + 1 = month by omega]

/-- The next month begins as many days later as this one has. -/
theorem firstOfMonth_next (year : Int) {month : Nat} (hpos : 1 ≤ month) (hle : month ≤ 12) :
    firstOfMonth (year * 12 + (month - 1) + 1)
      = (Date.mk year month 1).toDays + daysInMonth year month := by
  by_cases hlast : month = 12
  · subst hlast
    rw [show year * 12 + (((12 : Nat) : Int) - 1) + 1
      = (year + 1) * 12 + (((1 : Nat) : Int) - 1) by omega, firstOfMonth_eq _ (by decide)
      (by decide), Date.toDays_early _ (by decide), Date.toDays_late _ (by decide),
        Int.add_sub_cancel, show daysInMonth year 12 = 31 from rfl]
    omega
  · rw [← Date.toDays_next_month year hpos (by omega),
      ← firstOfMonth_eq year (by omega) (by omega)]
    congr 1
    omega

theorem firstOfMonth_lt_next (m : Int) : firstOfMonth m < firstOfMonth (m + 1) := by
  obtain ⟨year, month, hpos, hle, rfl⟩ : ∃ (year : Int) (month : Nat),
      1 ≤ month ∧ month ≤ 12 ∧ m = year * 12 + (month - 1) :=
    ⟨m / 12, (m % 12).toNat + 1, by omega, by omega, by omega⟩
  rw [firstOfMonth_next year hpos hle, firstOfMonth_eq year hpos hle]
  have hdays : 28 ≤ daysInMonth year month := by
    unfold daysInMonth
    split_ifs <;> decide
  omega

theorem firstOfMonth_mono {m m' : Int} (h : m ≤ m') : firstOfMonth m ≤ firstOfMonth m' := by
  induction m', h using Int.leInduction with
  | base => exact Int.le_refl _
  | succ m' _ ih => exact Int.le_of_lt (Int.lt_of_le_of_lt ih (firstOfMonth_lt_next m'))

theorem monthOfDay_spec (days : Int) :
    firstOfMonth (monthOfDay days) ≤ days ∧ days < firstOfMonth (monthOfDay days + 1) := by
  obtain ⟨hproper, hdays⟩ := Date.ofDays_spec days
  rw [monthOfDay, firstOfMonth_next _ hproper.month_pos hproper.month_le,
    firstOfMonth_eq _ hproper.month_pos hproper.month_le]
  rw [Date.toDays_day] at hdays
  have hpos := hproper.day_pos
  have hle := hproper.day_le
  omega

/-- A month begins by some day if and only if it is not after the month of that day. -/
theorem firstOfMonth_le_iff {m days : Int} :
    firstOfMonth m ≤ days ↔ m ≤ monthOfDay days := by
  obtain ⟨hle, hlt⟩ := monthOfDay_spec days
  constructor
  · intro h
    by_contra hafter
    have hmono := firstOfMonth_mono (show monthOfDay days + 1 ≤ m by omega)
    omega
  · exact fun h => Int.le_trans (firstOfMonth_mono h) hle

/-! ## Periods -/

/-- A day in nanoseconds. -/
def nanosPerDay : Int := 86400000000000

/-- The midnight with which a date starts, in nanoseconds since 1970. -/
def midnight (d : Date) : Int := d.daysSinceEpoch * nanosPerDay

inductive Period where
  | year
  | quarter
  | month
  /-- From Monday to Sunday. -/
  | week
  | day
  | hour
  | minute
  | second
  | millisecond
  | microsecond
  deriving DecidableEq

namespace Period

def code : Period → String
  | year => "Y"
  | quarter => "Q"
  | month => "M"
  | week => "W"
  | day => "D"
  | hour => "h"
  | minute => "m"
  | second => "s"
  | millisecond => "ms"
  | microsecond => "us"

/-- A period of the kind starts at the instant that is so many nanoseconds after 1970
began. The fifth of January 1970 was a Monday. -/
def Starts : Period → Int → Prop
  | year, n => ∃ y : Int, n = midnight ⟨y, 1, 1⟩
  | quarter, n => ∃ y : Int, ∃ m ∈ [1, 4, 7, 10], n = midnight ⟨y, m, 1⟩
  | month, n => ∃ y : Int, ∃ m : Nat, 1 ≤ m ∧ m ≤ 12 ∧ n = midnight ⟨y, m, 1⟩
  | week, n => ∃ weeks : Int, n = midnight ⟨1970, 1, 5⟩ + weeks * (7 * nanosPerDay)
  | day, n => nanosPerDay ∣ n
  | hour, n => 3600000000000 ∣ n
  | minute, n => 60000000000 ∣ n
  | second, n => 1000000000 ∣ n
  | millisecond, n => 1000000 ∣ n
  | microsecond, n => 1000 ∣ n

/-- The starts of a kind of period that are not after an instant. -/
def startsUpTo (p : Period) (n : Int) : Set Int := {s | p.Starts s ∧ s ≤ n}

/-- The periods that a period consists of. -/
def parts : Period → List Period
  | year => [quarter, month, day, hour, minute, second, millisecond, microsecond]
  | quarter => [month, day, hour, minute, second, millisecond, microsecond]
  | month | week => [day, hour, minute, second, millisecond, microsecond]
  | day => [hour, minute, second, millisecond, microsecond]
  | hour => [minute, second, millisecond, microsecond]
  | minute => [second, millisecond, microsecond]
  | second => [millisecond, microsecond]
  | millisecond => [microsecond]
  | microsecond => []

/-- The first day of the period that a day is in, for the periods of the calendar. -/
def firstDay (p : Period) (days : Int) : Int :=
  match p with
  | year => firstOfMonth (monthOfDay days / 12 * 12)
  | quarter => firstOfMonth (monthOfDay days / 3 * 3)
  | month => firstOfMonth (monthOfDay days)
  | week => days - (days + 3) % 7
  | _ => days

/-- The start of the period that an instant is in. -/
def floor (p : Period) (n : Int) : Int :=
  match p with
  | hour => n / 3600000000000 * 3600000000000
  | minute => n / 60000000000 * 60000000000
  | second => n / 1000000000 * 1000000000
  | millisecond => n / 1000000 * 1000000
  | microsecond => n / 1000 * 1000
  | _ => p.firstDay (n / nanosPerDay) * nanosPerDay

/-! ### The last start -/

variable {p q : Period} {n m : Int}

theorem isGreatest_multiple {length : Int} (hpos : 0 < length) (n : Int) :
    IsGreatest {s | length ∣ s ∧ s ≤ n} (n / length * length) := by
  refine ⟨⟨Int.dvd_mul_left _ _, Int.ediv_mul_le n (Int.ne_of_gt hpos)⟩, ?_⟩
  rintro s ⟨⟨k, rfl⟩, hle⟩
  rw [Int.mul_comm length k] at hle ⊢
  exact Int.mul_le_mul_of_nonneg_right ((Int.le_ediv_iff_mul_le hpos).2 hle)
    (Int.le_of_lt hpos)

theorem midnight_eq (y : Int) {m : Nat} (hpos : 1 ≤ m) (hle : m ≤ 12) :
    midnight ⟨y, m, 1⟩ = firstOfMonth (y * 12 + (m - 1)) * nanosPerDay := by
  rw [midnight, ← Date.toDays_eq _ hpos hle, firstOfMonth_eq y hpos hle]

/-- Of every so many months, the last first day up to an instant. -/
theorem isGreatest_firstOfMonth {count : Int} (hcount : 0 < count) {S : Int → Prop}
    (hS : ∀ n, S n ↔ ∃ k, n = firstOfMonth (k * count) * nanosPerDay) (n : Int) :
    IsGreatest {s | S s ∧ s ≤ n}
      (firstOfMonth (monthOfDay (n / nanosPerDay) / count * count) * nanosPerDay) := by
  have hday (d : Int) : d * nanosPerDay ≤ n ↔ d ≤ n / nanosPerDay :=
    (Int.le_ediv_iff_mul_le (by decide)).symm
  refine ⟨⟨(hS _).2 ⟨_, rfl⟩, ?_⟩, ?_⟩
  · rw [hday, firstOfMonth_le_iff]
    exact Int.ediv_mul_le _ (Int.ne_of_gt hcount)
  · rintro s ⟨hs, hle⟩
    obtain ⟨k, rfl⟩ := (hS s).1 hs
    rw [hday, firstOfMonth_le_iff, ← Int.le_ediv_iff_mul_le hcount] at hle
    refine Int.mul_le_mul_of_nonneg_right (firstOfMonth_mono ?_) (by decide)
    exact Int.mul_le_mul_of_nonneg_right hle (Int.le_of_lt hcount)

theorem starts_year : year.Starts n ↔ ∃ k, n = firstOfMonth (k * 12) * nanosPerDay := by
  have hyear (y : Int) : midnight ⟨y, 1, 1⟩ = firstOfMonth (y * 12) * nanosPerDay := by
    rw [midnight_eq y (by decide) (by decide)]
    congr 2
    omega
  exact exists_congr fun y => by rw [hyear]

theorem starts_quarter : quarter.Starts n ↔ ∃ k, n = firstOfMonth (k * 3) * nanosPerDay := by
  constructor
  · rintro ⟨y, m, hm, rfl⟩
    simp only [List.mem_cons, List.not_mem_nil, or_false] at hm
    refine ⟨y * 4 + (m - 1) / 3, ?_⟩
    rw [midnight_eq y (by omega) (by omega)]
    congr 2
    omega
  · rintro ⟨k, rfl⟩
    refine ⟨k / 4, (k % 4 * 3 + 1).toNat, ?_, ?_⟩
    · simp only [List.mem_cons, List.not_mem_nil, or_false]
      omega
    · rw [midnight_eq _ (by omega) (by omega)]
      congr 2
      omega

theorem starts_month : month.Starts n ↔ ∃ k, n = firstOfMonth (k * 1) * nanosPerDay := by
  constructor
  · rintro ⟨y, m, hpos, hle, rfl⟩
    exact ⟨y * 12 + (m - 1), by rw [midnight_eq y hpos hle, Int.mul_one]⟩
  · rintro ⟨k, rfl⟩
    refine ⟨k / 12, (k % 12).toNat + 1, by omega, by omega, ?_⟩
    rw [midnight_eq _ (by omega) (by omega)]
    congr 2
    omega

theorem starts_week : week.Starts n ↔ ∃ k, n = (4 + k * 7) * nanosPerDay := by
  refine exists_congr fun k => ?_
  rw [midnight, show (Date.mk 1970 1 5).daysSinceEpoch = 4 from rfl,
    Int.add_mul, Int.mul_assoc]

theorem isGreatest_week (n : Int) :
    IsGreatest (week.startsUpTo n)
      ((n / nanosPerDay - (n / nanosPerDay + 3) % 7) * nanosPerDay) := by
  have hday (d : Int) : d * nanosPerDay ≤ n ↔ d ≤ n / nanosPerDay :=
    (Int.le_ediv_iff_mul_le (by decide)).symm
  refine ⟨⟨starts_week.2 ⟨(n / nanosPerDay + 3) / 7 - 1, ?_⟩, ?_⟩, ?_⟩
  · congr 1
    omega
  · rw [hday]
    omega
  · rintro s ⟨hs, hle⟩
    obtain ⟨k, rfl⟩ := starts_week.1 hs
    rw [hday] at hle
    refine Int.mul_le_mul_of_nonneg_right ?_ (by decide)
    omega

/-- An instant goes back to the last start that is not after it. -/
theorem isGreatest_floor (p : Period) (n : Int) :
    IsGreatest (p.startsUpTo n) (p.floor n) := by
  cases p with
  | year => exact isGreatest_firstOfMonth (by decide) (fun _ => starts_year) n
  | quarter => exact isGreatest_firstOfMonth (by decide) (fun _ => starts_quarter) n
  | month =>
      have hmonth := isGreatest_firstOfMonth (by decide) (fun _ => starts_month) n
      rwa [Int.ediv_one, Int.mul_one] at hmonth
  | week => exact isGreatest_week n
  | day | hour | minute | second | millisecond | microsecond =>
      exact isGreatest_multiple (by decide) n

theorem starts_floor (p : Period) (n : Int) : p.Starts (p.floor n) :=
  (p.isGreatest_floor n).1.1

theorem floor_le (p : Period) (n : Int) : p.floor n ≤ n := (p.isGreatest_floor n).1.2

theorem le_floor {s : Int} (hs : p.Starts s) (hle : s ≤ n) :
    s ≤ p.floor n := (p.isGreatest_floor n).2 ⟨hs, hle⟩

theorem floor_mono (h : n ≤ m) : p.floor n ≤ p.floor m :=
  le_floor (p.starts_floor n) (Int.le_trans (p.floor_le n) h)

/-! ### Periods within periods -/

/-- Everything that starts on a day starts a day. -/
theorem starts_day (hp : day ∈ p.parts) (h : p.Starts n) : nanosPerDay ∣ n := by
  cases p with
  | year =>
      obtain ⟨k, rfl⟩ := starts_year.1 h
      exact Int.dvd_mul_left _ _
  | quarter =>
      obtain ⟨k, rfl⟩ := starts_quarter.1 h
      exact Int.dvd_mul_left _ _
  | month =>
      obtain ⟨k, rfl⟩ := starts_month.1 h
      exact Int.dvd_mul_left _ _
  | week =>
      obtain ⟨k, rfl⟩ := starts_week.1 h
      exact Int.dvd_mul_left _ _
  | _ => exact absurd hp (by decide)

/-- Where a period starts, each period that it consists of does. -/
theorem starts_part (hq : q ∈ p.parts) (h : p.Starts n) : q.Starts n := by
  by_cases hday : day ∈ p.parts
  · have hn := starts_day hday h
    cases q with
    | year | week => cases p <;> exact absurd hq (by decide)
    | quarter =>
        cases p with
        | year =>
            obtain ⟨k, rfl⟩ := starts_year.1 h
            exact starts_quarter.2 ⟨k * 4, by rw [Int.mul_assoc]; rfl⟩
        | _ => exact absurd hq (by decide)
    | month =>
        cases p with
        | year =>
            obtain ⟨k, rfl⟩ := starts_year.1 h
            exact starts_month.2 ⟨k * 12, by rw [Int.mul_one]⟩
        | quarter =>
            obtain ⟨k, rfl⟩ := starts_quarter.1 h
            exact starts_month.2 ⟨k * 3, by rw [Int.mul_one]⟩
        | _ => exact absurd hq (by decide)
    | day | hour | minute | second | millisecond | microsecond =>
        exact Int.dvd_trans (by decide) hn
  · cases p with
    | year | quarter | month | week => exact absurd (by decide) hday
    | day | hour | minute | second | millisecond | microsecond =>
        cases q <;> first | exact absurd hq (by decide) | exact Int.dvd_trans (by decide) h

/-- Going back to the start of a part first makes no difference. -/
theorem floor_floor (hq : q = p ∨ q ∈ p.parts) (n : Int) :
    p.floor (q.floor n) = p.floor n := by
  have hpart {s : Int} (hs : p.Starts s) : q.Starts s := by
    rcases hq with rfl | hq
    · exact hs
    · exact starts_part hq hs
  refine Int.le_antisymm (floor_mono (q.floor_le n)) (le_floor (p.starts_floor n) ?_)
  exact le_floor (hpart (p.starts_floor n)) (p.floor_le n)

theorem floor_of_starts (h : p.Starts n) :
    p.floor n = n := Int.le_antisymm (p.floor_le n) (le_floor h (Int.le_refl n))

/-- From a whole number of ticks one goes back to a whole number of ticks: either every
start is one, or the periods are so short that every tick starts one. -/
theorem dvd_floor {tick : Int} (htick : tick ∈ [nanosPerDay, 1000000000, 1000000, 1000, 1])
    (hn : tick ∣ n) :
    tick ∣ p.floor n := by
  have hstart := p.starts_floor n
  have hself (h : p.Starts n) : tick ∣ p.floor n := by rwa [floor_of_starts h]
  simp only [List.mem_cons, List.not_mem_nil, or_false] at htick
  by_cases hday : day ∈ p.parts
  · refine Int.dvd_trans ?_ (starts_day hday hstart)
    rcases htick with rfl | rfl | rfl | rfl | rfl <;> decide
  · cases p with
    | year | quarter | month | week => exact absurd (by decide) hday
    | day | hour | minute | second | millisecond | microsecond =>
        rcases htick with rfl | rfl | rfl | rfl | rfl
        all_goals first
          | exact Int.dvd_trans (by decide) hstart
          | exact hself (Int.dvd_trans (by decide) hn)

end Period

end TypedQuery.Calendar
