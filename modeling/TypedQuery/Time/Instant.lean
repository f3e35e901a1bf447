import TypedQuery.Time.Unit

/-!
# Dates and instants

Dates of the calendar, instants within a day, and how both are written.
-/

namespace TypedQuery.Calendar

/-!
## The proleptic Gregorian calendar

Days are counted from 1970-01-01. A year begins in March for the arithmetic, so
that the leap day comes last and both directions are closed formulas over eras of
400 years (146097 days).
-/

/-- A calendar date; the month and the day count from one. -/
structure Date where
  year : Int
  month : Nat
  day : Nat
  deriving DecidableEq

def isLeap (year : Int) : Bool := year % 4 = 0 && (year % 100 ≠ 0 || year % 400 = 0)

def daysInMonth (year : Int) (month : Nat) : Nat :=
  if month = 2 then (if isLeap year then 29 else 28)
  else if month = 4 ∨ month = 6 ∨ month = 9 ∨ month = 11 then 30
  else 31

def daysInYear (year : Int) : Nat := if isLeap year then 366 else 365

/-- Day number of a date. -/
def Date.toDays (d : Date) : Int :=
  let y := if d.month ≤ 2 then d.year - 1 else d.year
  let era := y / 400
  let yearOfEra := y % 400
  let shifted : Int := if d.month ≤ 2 then d.month + 9 else d.month - 3
  let dayOfYear := (153 * shifted + 2) / 5 + d.day - 1
  let dayOfEra := yearOfEra * 365 + yearOfEra / 4 - yearOfEra / 100 + dayOfYear
  era * 146097 + dayOfEra - 719468

def Date.ofDays (days : Int) : Date :=
  let z := days + 719468
  let era := z / 146097
  let dayOfEra := z % 146097
  let yearOfEra := (dayOfEra - dayOfEra / 1460 + dayOfEra / 36524 - dayOfEra / 146096) / 365
  let dayOfYear := dayOfEra - (365 * yearOfEra + yearOfEra / 4 - yearOfEra / 100)
  let shifted := (5 * dayOfYear + 2) / 153
  let day := dayOfYear - (153 * shifted + 2) / 5 + 1
  let month := if shifted < 10 then shifted + 3 else shifted - 9
  let year := yearOfEra + era * 400
  ⟨if month ≤ 2 then year + 1 else year, month.toNat, day.toNat⟩

/-- The years that dates may have. -/
def leastYear : Int := -262143

def greatestYear : Int := 262142

def yearInRange (year : Int) : Bool := leastYear ≤ year && year ≤ greatestYear

/-- Whether a day number lies in the years that dates may have. -/
def daysInRange (days : Int) : Bool :=
  (Date.mk leastYear 1 1).toDays ≤ days && days ≤ (Date.mk greatestYear 12 31).toDays

/-- The date with the given parts, if the calendar has it. -/
def Date.ofParts? (year : Int) (month day : Int) : Option Date :=
  if yearInRange year && 1 ≤ month && month ≤ 12 && 1 ≤ day
      && day ≤ (daysInMonth year month.toNat : Int) then
    some ⟨year, month.toNat, day.toNat⟩
  else none

/-- Days since Monday. -/
def weekday (days : Int) : Nat := ((days + 3) % 7).toNat

/-- Day of the year, counted from one. -/
def Date.ordinal (d : Date) : Nat := (d.toDays - (Date.mk d.year 1 1).toDays).toNat + 1

/-- The day with the given place in a year, counted from one. -/
def ofOrdinal? (year : Int) (ordinal : Int) : Option Int :=
  if yearInRange year && 1 ≤ ordinal && ordinal ≤ (daysInYear year : Int) then
    some ((Date.mk year 1 1).toDays + ordinal - 1)
  else none

/-- Year and number of the week that a day belongs to: a week starts on Monday and belongs
to the year that holds its Thursday. -/
def isoWeek (days : Int) : Int × Nat :=
  let thursday := days - (weekday days : Int) + 3
  let d := Date.ofDays thursday
  (d.year, (d.ordinal - 1) / 7 + 1)

/-- Number of such weeks in a year. -/
def isoWeeks (year : Int) : Nat := (isoWeek (Date.mk year 12 28).toDays).2

/-- The day with the given place in a numbered week; the weekday counts from Monday as
zero. -/
def ofIsoWeek? (year : Int) (week weekday : Nat) : Option Int :=
  if 1 ≤ week && week ≤ isoWeeks year then
    let fourth := (Date.mk year 1 4).toDays
    let days := fourth - (Calendar.weekday fourth : Int) + 7 * ((week : Int) - 1) + weekday
    if daysInRange days then some days else none
  else none

end TypedQuery.Calendar

/-!
## Instants without a time zone

An instant is a day number, a second of that day and a nanosecond of that second. Counts
since the epoch divide to the floor, so the parts inside the day are never negative.
`Instant.nanos?` gives nothing when the count does not fit 64 bits.
-/

namespace TypedQuery

structure Instant where
  days : Int
  second : Nat
  nanosecond : Nat
  deriving DecidableEq

namespace Instant

def secondsPerDay : Int := 86400

def nanosPerSecond : Int := 1000000000

def fitsInt64 (n : Int) : Bool := Int64.minValue.toInt ≤ n && n ≤ Int64.maxValue.toInt

def fitsInt32 (n : Int) : Bool := Int32.minValue.toInt ≤ n && n ≤ Int32.maxValue.toInt

def date (t : Instant) : Calendar.Date := Calendar.Date.ofDays t.days

def hour (t : Instant) : Nat := t.second / 3600

def minute (t : Instant) : Nat := t.second / 60 % 60

def secondOfMinute (t : Instant) : Nat := t.second % 60

/-- Seconds since the epoch, rounded down. -/
def seconds (t : Instant) : Int := t.days * secondsPerDay + t.second

/-- Nanoseconds since the epoch, without a bound. -/
def exactNanos (t : Instant) : Int := t.seconds * nanosPerSecond + t.nanosecond

/-- Nanoseconds since the epoch if they fit 64 bits. -/
def nanos? (t : Instant) : Option Int :=
  if fitsInt64 t.exactNanos then some t.exactNanos else none

def ofNanos (n : Int) : Instant :=
  let seconds := n / nanosPerSecond
  ⟨seconds / secondsPerDay, (seconds % secondsPerDay).toNat, (n % nanosPerSecond).toNat⟩

/-- Midnight at the start of a day. -/
def ofDays (days : Int) : Instant := ⟨days, 0, 0⟩

def atClock (days : Int) (hour minute second : Nat) : Instant :=
  ⟨days, hour * 3600 + minute * 60 + second, 0⟩

/-- The time of day with the given parts, in seconds; a leap second is refused. -/
def clock? (hour minute second : Int) : Option Nat :=
  if 0 ≤ hour && hour < 24 && 0 ≤ minute && minute < 60 && 0 ≤ second && second < 60 then
    some (hour * 3600 + minute * 60 + second).toNat
  else none

/-- The instant that many ticks after the epoch. -/
def ofTicks (ticks : Int) (unit : TimeUnit) : Instant := ofNanos (ticks * unit.nanos)

theorem exactNanos_ofNanos (n : Int) : (ofNanos n).exactNanos = n := by
  simp only [ofNanos, exactNanos, seconds, secondsPerDay, nanosPerSecond]
  omega

end Instant

end TypedQuery

/-!
## Written dates and times

Dates are written `YYYY-MM-DD`; years outside 0 to 9999 carry a sign. Fractions of a
second are written with three, six or nine digits, the fewest that lose nothing, and not
at all when there is none.
-/

namespace TypedQuery.Time

/-- A number with leading zeros up to the given width. -/
def padded (width n : Nat) : String :=
  let digits := Nat.toDigits 10 n
  String.ofList (List.replicate (width - digits.length) '0' ++ digits)

/-- Four digits, or a sign and at least four digits when four do not suffice. -/
def writtenYear (year : Int) : String :=
  if 0 ≤ year ∧ year ≤ 9999 then padded 4 year.toNat
  else (if year < 0 then "-" else "+") ++ padded 4 year.natAbs

def writtenDate (d : Calendar.Date) : String :=
  writtenYear d.year ++ "-" ++ padded 2 d.month ++ "-" ++ padded 2 d.day

def writtenClock (t : Instant) : String :=
  padded 2 t.hour ++ ":" ++ padded 2 t.minute ++ ":" ++ padded 2 t.secondOfMinute

def writtenFraction (nanosecond : Nat) : String :=
  if nanosecond = 0 then ""
  else if nanosecond % 1000000 = 0 then "." ++ padded 3 (nanosecond / 1000000)
  else if nanosecond % 1000 = 0 then "." ++ padded 6 (nanosecond / 1000)
  else "." ++ padded 9 nanosecond

/-- Date and time with the given separator between them. -/
def writtenInstant (separator : String) (t : Instant) : String :=
  writtenDate t.date ++ separator ++ writtenClock t ++ writtenFraction t.nanosecond

end TypedQuery.Time
