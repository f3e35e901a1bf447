import TypedQuery.Columnar.Function
import TypedQuery.Columnar.Lists
import TypedQuery.Columnar.Operator
import TypedQuery.Columnar.Times

/-!
# Applying functions

Most functions take one column. All columns that a function takes have the same number
of rows.
-/

namespace TypedQuery.Function

/-- The angle is computed from the contents of missing cells too. -/
def atan2Cells : Cell → Cell → Cell
  | .float y, .float x => .float (Double.lift₂ Float.atan2 y x)
  | y, x => .missing (.float (Double.lift₂ Float.atan2 y.floatContent x.floatContent))

def atan2Columns (y x : Column) : Except Error Column := do
  let ys ← y.cast .float64
  let xs ← x.cast .float64
  .ok ⟨.float64, List.zipWith atan2Cells ys.cells xs.cells⟩

/-- Applies a function of one column. -/
def applyOne (c : Column) : Function → Except Error Column
  | lowercase => c.editTexts Text.lower
  | uppercase => c.editTexts Text.upper
  | strip => c.editTexts Text.trim
  | stripStart => c.editTexts Text.trimStart
  | stripEnd => c.editTexts Text.trimEnd
  | capitalize => c.editTexts Text.capitalize
  | reverse => c.editTexts List.reverse
  | length => c.textLength
  | slice start count => c.editTexts (Text.slice start count)
  | tail count => c.editTexts (Text.tail count)
  | find needle start => c.countTexts (Text.find needle.toList start)
  | findInSet values => c.findInSet values
  | contains needle => c.testTexts (Text.contains needle.toList)
  | startsWith start => c.testTexts start.toList.isPrefixOf
  | endsWith ending => c.testTexts ending.toList.isSuffixOf
  | replace pattern replacement =>
    c.editTexts (Text.replace pattern.toList replacement.toList)
  | regexMatch pattern => c.regexMatch pattern
  | regexExtract pattern group => c.regexExtract pattern group
  | regexReplace pattern replacement => c.regexReplace pattern replacement
  | split separator => c.splitTexts separator
  | padStart width fill => c.editTexts (Text.padStart width fill.toList)
  | padEnd width fill => c.editTexts (Text.padEnd width fill.toList)
  | repeated times => c.repeated times
  | temporal field => c.temporalField field
  | epochSeconds => c.epochSeconds
  | strftime format => c.strftime format
  | strptime format => c.strptime format
  | truncate unit => c.truncate unit
  | listLength => c.listLength
  | concat _ | dateFromParts | timestampFromParts | atan2 | listConcat | listFromColumns =>
    .error (.internal "variadic function reached the unary path")

def apply (f : Function) (columns : List Column) : Except Error Column :=
  match f with
  | concat separator => Column.concatTexts separator columns
  | dateFromParts => Column.dateFromParts columns
  | timestampFromParts => Column.timestampFromParts columns
  | atan2 =>
    match columns with
    | [y, x] => atan2Columns y x
    | _ => .error (.execution "arctan2 expects two arguments")
  | listConcat =>
    match columns with
    | [left, right] => Column.listConcat left right
    | _ => .error (.execution "list.concat expects two arguments")
  | listFromColumns => Column.listFromColumns columns
  | f =>
    match columns with
    | [c] => applyOne c f
    | _ =>
      .error (.execution
        (f.name ++ " expects one argument, got " ++ toString columns.length))

end TypedQuery.Function
