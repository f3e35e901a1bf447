import TypedQuery.Time.Pattern

/-!
# Dates and times from fields

What has been read of a date is a list of fields, each with a number. Fields that say the
same thing in different ways may all be there as long as they agree. `Fields.days` looks
for a group of fields that determines the day and holds the others against it;
`Fields.clock` does the same for the time of day, and `Fields.instant` falls back on a
count of seconds since the epoch where the one or the other is not determined.
-/

namespace TypedQuery.Time

/-- What a number that was read can tell. The hour is kept as half of the day
and hour in that half. -/
inductive Slot where
  | year
  | century
  | yearOfCentury
  | isoYear
  | isoYearOfCentury
  | quarter
  | month
  | day
  | weekFromSunday
  | weekFromMonday
  | isoWeek
  | weekday
  | ordinal
  | half
  | hourOfHalf
  | minute
  | second
  | nanosecond
  | timestamp
  | offset
  deriving DecidableEq

abbrev Fields := List (Slot × Int)

/-- Why fields give no date: some are missing, or they cannot all be right. -/
inductive FieldFailure where
  | missing
  | wrong
  deriving DecidableEq

namespace Fields

def get? (fields : Fields) (slot : Slot) : Option Int :=
  (fields.find? (·.1 = slot)).map (·.2)

/-- Adds a field; one that is there already must have the same value. -/
def set? (fields : Fields) (slot : Slot) (n : Int) : Option Fields :=
  match fields.get? slot with
  | some m => if m = n then some fields else none
  | none => some ((slot, n) :: fields)

def setIn? (fields : Fields) (slot : Slot) (least most n : Int) : Option Fields :=
  if least ≤ n && n ≤ most then fields.set? slot n else none

def setHour? (fields : Fields) (n : Int) : Option Fields := do
  if n < 0 || 23 < n then none
  else (← fields.set? .half (n / 12)).set? .hourOfHalf (n % 12)

/-- Records a number that was read for a part. -/
def record? (fields : Fields) (part : Part) (n : Int) : Option Fields :=
  match part with
  | .year => fields.setIn? .year Int32.minValue.toInt Int32.maxValue.toInt n
  | .century => fields.setIn? .century 0 Int32.maxValue.toInt n
  | .yearOfCentury => fields.setIn? .yearOfCentury 0 99 n
  | .isoYear => fields.setIn? .isoYear Int32.minValue.toInt Int32.maxValue.toInt n
  | .isoYearOfCentury => fields.setIn? .isoYearOfCentury 0 99 n
  | .quarter => fields.setIn? .quarter 1 4 n
  | .month => fields.setIn? .month 1 12 n
  | .day => fields.setIn? .day 1 31 n
  | .weekFromSunday => fields.setIn? .weekFromSunday 0 53 n
  | .weekFromMonday => fields.setIn? .weekFromMonday 0 53 n
  | .isoWeek => fields.setIn? .isoWeek 1 53 n
  | .daysFromSunday => if 0 ≤ n && n ≤ 6 then fields.set? .weekday ((n + 6) % 7) else none
  | .weekdayNumber => fields.setIn? .weekday 0 6 (n - 1)
  | .ordinal => fields.setIn? .ordinal 1 366 n
  | .hour => fields.setHour? n
  | .hour12 => if 1 ≤ n && n ≤ 12 then fields.set? .hourOfHalf (n % 12) else none
  | .minute => fields.setIn? .minute 0 59 n
  | .second => fields.setIn? .second 0 60 n
  | .nanosecond => fields.setIn? .nanosecond 0 999999999 n
  | .timestamp => fields.set? .timestamp n

/-! ## The day -/

/-- Whether a field, if it is there, has the value. -/
def agrees (fields : Fields) (slot : Slot) (n : Int) : Bool := (fields.get? slot).all (· = n)

/-- Fields that only years from zero on have. -/
def agreesIfCommon (fields : Fields) (slot : Slot) (year n : Int) : Bool :=
  if 0 ≤ year then fields.agrees slot n else (fields.get? slot).isNone

/-- A year given in full, by century and year in it, or by the latter alone,
which means 1970 to 2069. -/
def resolveYear (year century yearOfCentury : Option Int) :
    Except FieldFailure (Option Int) :=
  match year, century, yearOfCentury with
  | y, none, none => .ok y
  | some y, q, r =>
    if 0 ≤ y && q.all (· = y / 100) && r.all (· = y % 100) then .ok (some y)
      else .error .wrong
  | none, some q, some r =>
    if q * 100 + r ≤ Int32.maxValue.toInt then .ok (some (q * 100 + r)) else .error .wrong
  | none, none, some r => .ok (some (if r < 70 then 2000 + r else 1900 + r))
  | none, some _, none => .error .missing

/-- The day of a week of a year: weeks start on `start`, and the first of them is week one.
-/
def weekDay (year week weekday start : Int) : Except FieldFailure Int :=
  match Calendar.ofOrdinal? year 1 with
  | none => .error .wrong
  | some first =>
    let firstWeek := 1 + (start - (Calendar.weekday first : Int)) % 7
    let ordinal := firstWeek + (week - 1) * 7 + (weekday - start) % 7
    match Calendar.ofOrdinal? year ordinal with
    | some days => .ok days
    | none => .error .wrong

def agreesWithDate (fields : Fields) (days : Int) : Bool :=
  let d := Calendar.Date.ofDays days
  fields.agrees .year d.year && fields.agreesIfCommon .century d.year (d.year / 100)
    && fields.agreesIfCommon .yearOfCentury d.year (d.year % 100)
    && fields.agrees .month d.month && fields.agrees .day d.day

def agreesWithIsoWeek (fields : Fields) (days : Int) : Bool :=
  let (year, week) := Calendar.isoWeek days
  fields.agrees .isoYear year && fields.agreesIfCommon .isoYearOfCentury year (year % 100)
    && fields.agrees .isoWeek week && fields.agrees .weekday (Calendar.weekday days)

def agreesWithOrdinal (fields : Fields) (days : Int) : Bool :=
  fields.agrees .ordinal (Calendar.Date.ofDays days).ordinal
    && fields.agrees .weekFromSunday (weeksFrom 6 days)
      && fields.agrees .weekFromMonday (weeksFrom 0 days)

def orWrong : Option Int → Except FieldFailure Int
  | some days => .ok days
  | none => .error .wrong

/-- The day that some of the fields determine. -/
def candidate (fields : Fields) (year isoYear : Option Int) : Except FieldFailure Int :=
  match year, fields.get? .month, fields.get? .day with
  | some y, some m,
    some d => orWrong ((Calendar.Date.ofParts? y m d).map Calendar.Date.toDays)
  | _, _, _ =>
    match year, fields.get? .ordinal with
    | some y, some n => orWrong (Calendar.ofOrdinal? y n)
    | _, _ =>
      match year, fields.get? .weekFromSunday, fields.get? .weekFromMonday,
        fields.get? .weekday with
      | some y, some week, _, some weekday => weekDay y week weekday 6
      | some y, none, some week, some weekday => weekDay y week weekday 0
      | _, _, _, weekday =>
        match isoYear, fields.get? .isoWeek, weekday with
        | some y, some week,
          some weekday => orWrong (Calendar.ofIsoWeek? y week.toNat weekday.toNat)
        | _, _, _ => .error .missing

def days (fields : Fields) : Except FieldFailure Int := do
  let year ← resolveYear (fields.get? .year) (fields.get? .century)
    (fields.get? .yearOfCentury)
  let isoYear ← resolveYear (fields.get? .isoYear) none (fields.get? .isoYearOfCentury)
  let days ← candidate fields year isoYear
  if fields.agreesWithDate days && fields.agreesWithIsoWeek days
      && fields.agreesWithOrdinal days
      && fields.agrees .quarter (quarter (Calendar.Date.ofDays days).month) then .ok days
  else .error .wrong

/-! ## The time of day -/

/-- Second of the day and nanosecond. Minutes are needed, seconds are not; a sixtieth
second is told by nanoseconds past the fifty-ninth. -/
def clock (fields : Fields) : Except FieldFailure (Nat × Nat) :=
  match fields.get? .half, fields.get? .hourOfHalf, fields.get? .minute with
  | some half, some hour, some minute =>
    let second := (fields.get? .second).getD 0
    let (second, leap) := if second = 60 then (59, 1000000000) else (second, 0)
    let seconds := ((half * 12 + hour) * 3600 + minute * 60 + second).toNat
    match fields.get? .nanosecond, fields.get? .second with
    | some _, none => .error .missing
    | nano, _ => .ok (seconds, leap + (nano.getD 0).toNat)
  | _, _, _ => .error .missing

/-! ## Both -/

/-- Fills in what a count of seconds tells. -/
def fill? (fields : Fields) (seconds : Int) : Option Fields := do
  let t := Instant.ofNanos (seconds * Instant.nanosPerSecond)
  let leap := fields.get? .second = some 60
  if !Calendar.daysInRange t.days then none
  let t ← if !leap || t.secondOfMinute = 59 then some t
    else if t.secondOfMinute = 0 then
      some (Instant.ofNanos ((seconds - 1) * Instant.nanosPerSecond))
    else none
  let fields ← if leap then some fields else fields.set? .second t.secondOfMinute
  let fields ← fields.set? .year t.date.year
  let fields ← fields.set? .ordinal t.date.ordinal
  let fields ← fields.setHour? t.hour
  fields.set? .minute t.minute

def instant? (fields : Fields) : Option Instant :=
  match fields.days, fields.clock, fields.get? .timestamp with
  | .ok days, .ok (second, nanosecond), given =>
    let t : Instant := ⟨days, second, nanosecond⟩
    let leap := 1000000000 ≤ nanosecond
    if given.all fun n => n = t.seconds || (leap && n = t.seconds + 1) then some t else none
  | .error .wrong, _, _ | _, .error .wrong, _ => none
  | _, _, none => none
  | _, _, some seconds => do
    let fields ← fields.fill? seconds
    match fields.days, fields.clock with
    | .ok days, .ok (second, nanosecond) => some ⟨days, second, nanosecond⟩
    | _, _ => none

/-- The start of the day, if no more than the day is known. -/
def midnight? (fields : Fields) : Option Instant :=
  match fields.days with
  | .ok days => some (Instant.ofDays days)
  | .error _ => none

end Fields

end TypedQuery.Time
