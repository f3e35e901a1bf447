import TypedQuery.Error
import TypedQuery.Time.Instant
import TypedQuery.Value.Basic

/-!
# SQL literals

`literal` writes a value so that the text denotes it in SQL, and refuses dates and
timestamps outside the calendar. A quoted text doubles its quote character, so the first
quote that stands alone ends it. `typeName` names the types a value can be cast to.
-/

namespace TypedQuery.Sql

/-- Doubles every occurrence of the quote character. -/
def doubled (quote : Char) : List Char → List Char
  | [] => []
  | c :: rest => if c = quote then c :: c :: doubled quote rest else c :: doubled quote rest

def quoted (quote : Char) (s : String) : String :=
  String.ofList (quote :: doubled quote s.toList ++ [quote])

def quotedText (s : String) : String := quoted '\'' s

def hexByte (b : UInt8) : String :=
  let digit (n : Nat) := (Nat.digitChar n).toUpper
  String.ofList [digit (b.toNat / 16), digit (b.toNat % 16)]

def floatLiteral (x : Float) : String :=
  if x.isNaN then "CAST('NaN' AS double)"
  else if x.isInf then
    (if x > 0.0 then "CAST('Infinity' AS double)" else "CAST('-Infinity' AS double)")
  else Decimal.Style.plain.render x

def dateText (days : Int32) : Except Error String :=
  if Instant.fitsInt32 (days.toInt + 719163) && Calendar.daysInRange days.toInt then
    .ok (Time.writtenDate (Calendar.Date.ofDays days.toInt))
  else .error (.value ("date out of range: " ++ toString days.toInt ++ " days"))

def timestampText (ticks : Int64) (unit : TimeUnit) : Except Error String :=
  let nanos := ticks.toInt * unit.nanos
  if Instant.fitsInt64 nanos then .ok (Time.writtenInstant " " (Instant.ofNanos nanos))
  else .error (.value ("timestamp out of range: " ++ toString ticks.toInt ++ unit.code))

mutual

def literal : Value → Except Error String
  | .null => .ok "NULL"
  | .bool b => .ok (if b then "TRUE" else "FALSE")
  | .int64 n => .ok (toString n.toInt)
  | .float64 x => .ok (floatLiteral x.toFloat)
  | .string s => .ok (quotedText s)
  | .binary bytes => .ok ("unhex('" ++ String.join (bytes.map hexByte) ++ "')")
  | .date days => (dateText days).map fun text => "DATE '" ++ text ++ "'"
  | .timestamp ticks unit => (timestampText ticks unit).map fun text =>
    "TIMESTAMP '" ++ text ++ "'"
  | .interval steps unit => .ok ("INTERVAL " ++ toString steps.toInt ++ " " ++ unit.sqlName)
  | .array items => (literals items).map fun texts =>
    "array(" ++ ", ".intercalate texts ++ ")"

def literals : List Value → Except Error (List String)
  | [] => .ok []
  | v :: rest => do
    let text ← literal v
    let texts ← literals rest
    .ok (text :: texts)

end

def typeName : DataType → Except Error String
  | .boolean => .ok "boolean"
  | .int32 => .ok "int"
  | .int64 => .ok "bigint"
  | .float64 => .ok "double"
  | .string => .ok "string"
  | .binary => .ok "binary"
  | .date => .ok "date"
  | .timestamp _ => .ok "timestamp"
  | .array element => (typeName element).map fun text => "array<" ++ text ++ ">"
  | t@.null | t@(.interval _) =>
    .error (.inexpressible ("cannot cast to " ++ t.name ++ " in SQL"))

end TypedQuery.Sql
