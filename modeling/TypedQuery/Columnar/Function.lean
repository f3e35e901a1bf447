/-!
# Functions on columns

The functions that work row by row with constants for everything but their columns.
Constants that shape the computation, such as patterns and widths, are part of
the function.
-/

namespace TypedQuery

/-- Fields of the calendar and the clock. -/
inductive TemporalField where
  | year
  | quarter
  | month
  /-- Number of the week, weeks starting on Monday. -/
  | week
  | dayOfYear
  | day
  | hour
  | minute
  | second
  | millisecond
  /-- Days since Monday. -/
  | weekday
  deriving DecidableEq

inductive Function where
  | lowercase
  | uppercase
  | strip
  | stripStart
  | stripEnd
  | capitalize
  | reverse
  /-- Length in characters. -/
  | length
  /-- Characters from a position on, which counts from the end when it is negative. -/
  | slice (start : Int) (length : Option Int)
  /-- The last characters. -/
  | tail (count : Nat)
  /-- First position of a text at or after a start, and -1 when there is none. -/
  | find (needle : String) (start : Nat)
  /-- Position in a list, and -1 when the text is not in it. -/
  | findInSet (values : List String)
  | contains (needle : String)
  | startsWith (start : String)
  | endsWith (ending : String)
  | replace (pattern replacement : String)
  | regexMatch (pattern : String)
  | regexExtract (pattern : String) (group : Nat)
  | regexReplace (pattern replacement : String)
  | split (separator : String)
  | padStart (width : Nat) (fill : String)
  | padEnd (width : Nat) (fill : String)
  | repeated (times : Nat)
  /-- Joins all columns with a separator. -/
  | concat (separator : String)
  | temporal (field : TemporalField)
  | epochSeconds
  | strftime (format : String)
  /-- Reads texts as timestamps in nanoseconds. -/
  | strptime (format : String)
  /-- Cuts off what is finer than a unit, which is named by its code. -/
  | truncate (unit : String)
  | dateFromParts
  | timestampFromParts
  | atan2
  | listLength
  | listConcat
  | listFromColumns
  deriving DecidableEq

namespace Function

/-- The name in written expressions. -/
def name : Function → String
  | lowercase => "to_lowercase"
  | uppercase => "to_uppercase"
  | strip => "strip_chars"
  | stripStart => "strip_chars_start"
  | stripEnd => "strip_chars_end"
  | capitalize => "capitalize"
  | reverse => "reverse"
  | length => "len_chars"
  | slice .. => "slice"
  | tail _ => "tail"
  | find .. => "find"
  | findInSet _ => "find_in_set"
  | contains _ => "contains"
  | startsWith _ => "starts_with"
  | endsWith _ => "ends_with"
  | replace .. => "replace"
  | regexMatch _ => "regex_match"
  | regexExtract .. => "extract"
  | regexReplace .. => "replace_all"
  | split _ => "split"
  | padStart .. => "pad_start"
  | padEnd .. => "pad_end"
  | repeated _ => "repeat"
  | concat _ => "concat_str"
  | temporal _ => "date_part"
  | epochSeconds => "epoch"
  | strftime _ => "strftime"
  | strptime _ => "strptime"
  | truncate _ => "truncate"
  | dateFromParts => "date"
  | timestampFromParts => "datetime"
  | atan2 => "arctan2"
  | listLength => "list.len"
  | listConcat => "list.concat"
  | listFromColumns => "concat_list"

end Function

end TypedQuery
