import TypedQuery.Columnar.Function
import TypedQuery.Columnar.Texts
import TypedQuery.Time.Parsed

/-!
# Dates and timestamps in columns

Calendar computations go through instants. A date is the instant at which it
starts. A timestamp counts only if it is within 64-bit nanoseconds of the epoch;
one that is not becomes null.
-/

namespace TypedQuery.Column

/-! ## Instants -/

def instantOfDay (days : Int) : Option Instant :=
  if Calendar.daysInRange days then some (Instant.ofDays days) else none

def instantOfTicks (unit : TimeUnit) (ticks : Int) : Option Instant :=
  if Instant.fitsInt64 (ticks * unit.nanos) then some (Instant.ofTicks ticks unit) else none

def instants (c : Column) : Except Error (List (Option Instant)) :=
  match c.type with
  | .date => .ok (c.cells.map fun cell => cell.int?.bind instantOfDay)
  | .timestamp unit => .ok (c.cells.map fun cell => cell.int?.bind (instantOfTicks unit))
  | other => .error (.type ("expected a temporal array, got " ++ other.describe))

/-- An instant in a type for dates or timestamps; the fraction below a tick is dropped. -/
def instantCell : Physical → Instant → Cell
  | .date, t => .int t.days
  | .timestamp unit, t => .ofOption (fun n => .int (n.tdiv unit.nanos)) t.nanos?
  | _, _ => .null

def ofInstants (type : Physical) (ts : List (Option Instant)) : Column :=
  ⟨type, ts.map fun t => (t.map (instantCell type)).getD .null⟩

/-! ## Fields -/

def fieldOf (t : Instant) : TemporalField → Int
  | .year => t.date.year
  | .quarter => Time.quarter t.date.month
  | .month => t.date.month
  | .week => (Calendar.isoWeek t.days).2
  | .dayOfYear => t.date.ordinal
  | .day => t.date.day
  | .hour => t.hour
  | .minute => t.minute
  | .second => t.secondOfMinute
  | .millisecond => t.nanosecond / 1000000
  | .weekday => Calendar.weekday t.days

def isClockField : TemporalField → Bool
  | .hour | .minute | .second | .millisecond => true
  | _ => false

def fieldCell (field : TemporalField) (t : Instant) : Cell :=
  if Calendar.daysInRange t.days then .int (fieldOf t field) else .null

/-- A field of every date or timestamp. The clock of a date stands at zero, whatever the
date. -/
def temporalField (field : TemporalField) (c : Column) : Except Error Column :=
  match c.type with
  | .date =>
    .ok ⟨.int32, c.cells.map fun
      | .int days => if isClockField field then .int 0
        else fieldCell field (Instant.ofDays days)
      | _ => .null⟩
  | .timestamp unit =>
    .ok ⟨.int32, c.cells.map fun
      | .int ticks => fieldCell field (Instant.ofTicks ticks unit)
      | _ => .null⟩
  | _ => .error (.compute .unsupported)

def epochSeconds (c : Column) : Except Error Column := do
  (← c.cast (.timestamp .second)).cast .int64

/-! ## Patterns -/

/-- Instants in the form of a pattern; a pattern that cannot be printed gives empty texts. -/
def strftime (format : String) (c : Column) : Except Error Column :=
  match Time.Pattern.read? format with
  | none => .error (.value ("invalid format string " ++ Text.quote format))
  | some pattern => do
    .ok (.texts ((← c.instants).map (Option.map fun t => (pattern.print? t).getD "")))

/-- Texts in the form of a pattern; all others become null. -/
def strptime (format : String) (c : Column) : Except Error Column := do
  let parse (s : String) : Option Instant :=
    (Time.Pattern.read? format).bind fun p => p.parse? s
  .ok (ofInstants (.timestamp .nanosecond) ((← c.toTexts).map fun s => s.bind parse))

/-! ## Truncation -/

/-- The start of a day if the calendar has it. -/
def startOf (days : Int) : Option Instant := instantOfDay days

/-- The start of the unit that an instant lies in; no unit has another code than those
here. -/
def truncated? (unit : String) (t : Instant) : Option (Option Instant) :=
  let d := t.date
  match unit with
  | "Y" => some (startOf (Calendar.Date.mk d.year 1 1).toDays)
  | "Q" => some (startOf (Calendar.Date.mk d.year ((d.month - 1) / 3 * 3 + 1) 1).toDays)
  | "M" => some (startOf (Calendar.Date.mk d.year d.month 1).toDays)
  | "W" => some (startOf (t.days - (Calendar.weekday t.days : Int)))
  | "D" => some (startOf t.days)
  | "h" => some (some (Instant.atClock t.days t.hour 0 0))
  | "m" => some (some (Instant.atClock t.days t.hour t.minute 0))
  | "s" => some (some { t with nanosecond := 0 })
  | "ms" => some (some { t with nanosecond := t.nanosecond / 1000000 * 1000000 })
  | "us" => some (some { t with nanosecond := t.nanosecond / 1000 * 1000 })
  | _ => none

def truncateInstant (unit : String) (t : Instant) : Except Error Instant :=
  match truncated? unit t with
  | some (some t) => .ok t
  | some none =>
    .error (.value ("cannot truncate " ++ Time.writtenInstant " " t ++ " to " ++ unit))
  | none => .error (.value ("unsupported truncation unit " ++ Text.quote unit))

def truncateAll (unit : String) :
    List (Option Instant) → Except Error (List (Option Instant))
  | [] => .ok []
  | none :: rest => do .ok (none :: (← truncateAll unit rest))
  | some t :: rest => do
    let here ← truncateInstant unit t
    .ok (some here :: (← truncateAll unit rest))

def truncate (unit : String) (c : Column) : Except Error Column := do
  .ok (ofInstants c.type (← truncateAll unit (← c.instants)))

/-! ## Parts -/

def allInts : List Column → Except Error (List (List (Option Int)))
  | [] => .ok []
  | c :: rest => do
    let here ← c.toInts
    .ok (here :: (← allInts rest))

/-- The instant with the given year, month and day, and maybe hour, minute and second. -/
def instantOfParts : List Int → Option Instant
  | [year, month, day] => (Calendar.Date.ofParts? year month day).map fun d =>
    Instant.ofDays d.toDays
  | [year, month, day, hour, minute, second] => do
    let d ← Calendar.Date.ofParts? year month day
    some ⟨d.toDays, ← Instant.clock? hour minute second, 0⟩
  | _ => none

def ofParts (type : Physical) (parts : List Column) : Except Error Column := do
  .ok (ofInstants type
    ((rowsOf (← allInts parts)).map fun row => (row.mapM id).bind instantOfParts))

def dateFromParts (parts : List Column) : Except Error Column :=
  if parts.length = 3 then ofParts .date parts
  else .error (.execution "date expects year, month and day")

def timestampFromParts (parts : List Column) : Except Error Column :=
  if parts.length = 6 then ofParts (.timestamp .second) parts
  else .error (.execution "datetime expects year, month, day, hour, minute and second")

end TypedQuery.Column
