import TypedQuery.Json.Decode
import TypedQuery.Value.Basic

/-!
# Values in JSON

A value is written as a variant named for its kind. JSON has no spelling for doubles that
are not finite: they become `null`, which does not read back.
-/

namespace TypedQuery.Value

mutual

def toJson : Value → Json
  | null => .string "Null"
  | bool b => .object [("Bool", .bool b)]
  | int64 n => .object [("Int64", .ofInt n.toInt)]
  | float64 x =>
    .object [("Float64", if x.isFinite then
      .number (Decimal.Style.json.render x.toFloat) else .null)]
  | string s => .object [("String", .string s)]
  | binary bytes => .object [("Binary", .array (bytes.map fun b => .ofNat b.toNat))]
  | date days => .object [("Date", .ofInt days.toInt)]
  | timestamp ticks unit =>
    .object [("Timestamp", .array [.ofInt ticks.toInt, .string unit.name])]
  | interval steps unit =>
    .object [("Interval", .array [.ofInt steps.toInt, .string unit.name])]
  | array items => .object [("Array", .array (toJsonList items))]

def toJsonList : List Value → List Json
  | [] => []
  | v :: rest => v.toJson :: toJsonList rest

end

mutual

def ofJson? : Json → Option Value
  | .string "Null" => some null
  | .object [(kind, content)] => ofContent? kind content
  | _ => none

/-- The value of a kind with the given content. -/
def ofContent? (kind : String) : Json → Option Value
  | .null => if kind == "Null" then some null else none
  | .bool b => if kind == "Bool" then some (bool b) else none
  | .number text =>
    if kind == "Int64" then (Json.number text).int64?.map int64
    else if kind == "Float64" then (Json.number text).float?.map fun x => float64 x
    else if kind == "Date" then (Json.number text).int32?.map date
    else none
  | .string s => if kind == "String" then some (string s) else none
  | .array items =>
    if kind == "Binary" then (items.mapM Json.byte?).map binary
    else if kind == "Timestamp" then
      match items with
      | [ticks, unit] => do
        some (timestamp (← ticks.int64?) (← TimeUnit.ofName? (← unit.unitVariant?)))
      | _ => none
    else if kind == "Interval" then
      match items with
      | [steps, unit] => do
        some (interval (← steps.int64?) (← IntervalUnit.ofName? (← unit.unitVariant?)))
      | _ => none
    else if kind == "Array" then (ofJsonList? items).map array
    else none
  | .object _ => none

def ofJsonList? : List Json → Option (List Value)
  | [] => some []
  | j :: rest =>
    match ofJson? j, ofJsonList? rest with
    | some v, some vs => some (v :: vs)
    | _, _ => none

end

end TypedQuery.Value
