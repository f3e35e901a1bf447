/-!
# Units of time

A timestamp counts ticks of a `TimeUnit` since 1970-01-01T00:00:00; an interval counts
steps of an `IntervalUnit`. Every unit has a short code, which is how it is written inside
type names and literals. Years and months have no fixed length, so
`IntervalUnit.fixedNanos` gives nothing for exactly those two.
-/

namespace TypedQuery

inductive TimeUnit where
  | second
  | millisecond
  | microsecond
  | nanosecond
  deriving DecidableEq

namespace TimeUnit

/-- Nanoseconds in one tick. -/
def nanos : TimeUnit → Int
  | second => 1000000000
  | millisecond => 1000000
  | microsecond => 1000
  | nanosecond => 1

def code : TimeUnit → String
  | second => "s"
  | millisecond => "ms"
  | microsecond => "us"
  | nanosecond => "ns"

def all : List TimeUnit := [second, millisecond, microsecond, nanosecond]

def ofCode? (text : String) : Option TimeUnit := all.find? (·.code == text)

/-- The name of the unit in written-out form. -/
def name : TimeUnit → String
  | second => "Second"
  | millisecond => "Millisecond"
  | microsecond => "Microsecond"
  | nanosecond => "Nanosecond"

def ofName? (text : String) : Option TimeUnit := all.find? (·.name == text)

theorem nanos_pos (u : TimeUnit) : 0 < u.nanos := by cases u <;> decide

theorem ofCode?_code (u : TimeUnit) : ofCode? u.code = some u := by cases u <;> rfl

theorem ofName?_name (u : TimeUnit) : ofName? u.name = some u := by cases u <;> rfl

/-- The unit with the shorter tick. -/
def finer (u v : TimeUnit) : TimeUnit := if u.nanos ≤ v.nanos then u else v

end TimeUnit

inductive IntervalUnit where
  | year
  | month
  | week
  | day
  | hour
  | minute
  | second
  | millisecond
  | microsecond
  | nanosecond
  deriving DecidableEq

namespace IntervalUnit

/-- Nanoseconds in one step; calendar units have no fixed length. -/
def fixedNanos : IntervalUnit → Option Int
  | year | month => none
  | week => some (7 * 86400000000000)
  | day => some 86400000000000
  | hour => some 3600000000000
  | minute => some 60000000000
  | second => some 1000000000
  | millisecond => some 1000000
  | microsecond => some 1000
  | nanosecond => some 1

def code : IntervalUnit → String
  | year => "Y"
  | month => "M"
  | week => "W"
  | day => "D"
  | hour => "h"
  | minute => "m"
  | second => "s"
  | millisecond => "ms"
  | microsecond => "us"
  | nanosecond => "ns"

def all : List IntervalUnit :=
  [year, month, week, day, hour, minute, second, millisecond, microsecond, nanosecond]

def ofCode? (text : String) : Option IntervalUnit := all.find? (·.code == text)

def name : IntervalUnit → String
  | year => "Year"
  | month => "Month"
  | week => "Week"
  | day => "Day"
  | hour => "Hour"
  | minute => "Minute"
  | second => "Second"
  | millisecond => "Millisecond"
  | microsecond => "Microsecond"
  | nanosecond => "Nanosecond"

def ofName? (text : String) : Option IntervalUnit := all.find? (·.name == text)

/-- The SQL keyword of the unit. -/
def sqlName : IntervalUnit → String
  | year => "YEAR"
  | month => "MONTH"
  | week => "WEEK"
  | day => "DAY"
  | hour => "HOUR"
  | minute => "MINUTE"
  | second => "SECOND"
  | millisecond => "MILLISECOND"
  | microsecond => "MICROSECOND"
  | nanosecond => "NANOSECOND"

theorem ofCode?_code (u : IntervalUnit) : ofCode? u.code = some u := by cases u <;> rfl

theorem ofName?_name (u : IntervalUnit) : ofName? u.name = some u := by cases u <;> rfl

end IntervalUnit

end TypedQuery
