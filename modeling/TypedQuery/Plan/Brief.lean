import TypedQuery.Columnar.Column
import TypedQuery.Json.Basic
import TypedQuery.Plan.Basic

/-!
# Plans and results in brief JSON

The brief form of values, columns, expressions and plans, which shows them as JSON. Names
of operators, reductions and functions stand in tables, which serve for reading as well.
-/

namespace TypedQuery

/-! ## Values

Nulls, booleans, texts and whole numbers stand for themselves, and any other value is an
object with a tag of its own. Doubles are texts, so that none of them is lost.
-/

/-- Whole numbers that every reader of JSON keeps exactly are numbers, greater ones
are texts with a tag. -/
def Json.ofWhole (n : Int) : Json :=
  if n.natAbs ≤ 9007199254740992 then .ofInt n else .object [("int", .string (toString n))]

def Json.ofDouble (x : Double) : Json := .string (Decimal.Style.plain.render x.toFloat)

/-- Bytes as pairs of hexadecimal digits. -/
def Json.ofBytes (bytes : List UInt8) : Json :=
  .string (String.ofList
    (bytes.flatMap fun b => [Nat.digitChar (b.toNat / 16), Nat.digitChar (b.toNat % 16)]))

def Json.ofOption (f : α → Json) : Option α → Json
  | some a => f a
  | none => .null

namespace Value

mutual

def brief : Value → Json
  | null => .null
  | bool b => .bool b
  | int64 n => .ofWhole n.toInt
  | float64 x => .object [("f", .ofDouble x)]
  | string s => .string s
  | binary bytes => .object [("b", .ofBytes bytes)]
  | date days => .object [("date", .ofWhole days.toInt)]
  | timestamp ticks unit =>
    .object [("ts", .array [.ofWhole ticks.toInt, .string unit.code])]
  | interval steps unit => .object [("iv", .array [.ofWhole steps.toInt, .string unit.code])]
  | array items => .object [("arr", .array (briefList items))]

def briefList : List Value → List Json
  | [] => []
  | v :: rest => v.brief :: briefList rest

end

end Value

/-! ## Columns

A column is shown by its type and its cells. What a cell stands for is told by
the type alone, so cells have no tags: dates and timestamps are counts, and
doubles and bytes are texts.
-/

def Physical.brief : Physical → String
  | null => "null"
  | boolean => "bool"
  | int32 => "int32"
  | int64 => "int64"
  | float64 => "float64"
  | text => "utf8"
  | binary => "binary"
  | date => "date32"
  | timestamp unit => "timestamp[" ++ unit.code ++ "]"
  | list element => "list<" ++ element.brief ++ ">"

namespace Cell

mutual

def brief : Cell → Json
  | missing _ => .null
  | bool b => .bool b
  | int n => .ofWhole n
  | float x => .ofDouble x
  | text s => .string s
  | bytes bs => .ofBytes bs
  | list items => .array (briefList items)

def briefList : List Cell → List Json
  | [] => []
  | c :: rest => c.brief :: briefList rest

end

end Cell

def Column.brief (c : Column) : List (String × Json) :=
  [("type", .string c.type.brief), ("values", .array (c.cells.map Cell.brief))]

def Batch.brief (b : Batch) : Json :=
  .object [
    ("rows", .ofNat b.rows),
    ("columns", .array
      (b.columns.map fun (name, c) => .object (("name", .string name) :: c.brief)))]

/-! ## Operators and reductions -/

def BinaryOp.briefNames : List (String × BinaryOp) :=
  [("add", arithmetic .add), ("subtract", arithmetic .subtract),
    ("multiply", arithmetic .multiply), ("divide", arithmetic .divide),
    ("modulo", arithmetic .remainder), ("power", power), ("eq", compare .equal),
    ("not_eq", compare .notEqual), ("lt", compare .less), ("lt_eq", compare .lessEqual),
    ("gt", compare .greater), ("gt_eq", compare .greaterEqual), ("and", logic .and),
    ("or", logic .or), ("xor", logic .xor), ("bit_and", bitwise .and),
    ("bit_or", bitwise .or), ("bit_xor", bitwise .xor), ("shift_left", bitwise .shiftLeft),
    ("shift_right", bitwise .shiftRight)]

def UnaryOp.briefNames : List (String × UnaryOp) :=
  [("negate", negate), ("not", not), ("bit_not", complement), ("is_null", isNull),
    ("is_not_null", isNotNull), ("is_nan", isNan), ("is_infinite", isInfinite),
    ("abs", abs), ("ceil", ceil), ("floor", floor), ("round", round), ("exp", exp),
    ("ln", ln), ("log2", log2), ("log10", log10), ("sqrt", sqrt), ("sign", sign),
    ("acos", acos), ("asin", asin), ("atan", atan), ("cos", cos), ("sin", sin), ("tan", tan)]

/-- The degrees of freedom that a spread gives up are part of its name. -/
def Reduction.briefNames : List (String × Reduction) :=
  [("count", count), ("count_distinct", countDistinct), ("sum", sum), ("mean", mean),
    ("min", min), ("max", max), ("median", median), ("std0", std 0), ("std1", std 1),
    ("var0", variance 0), ("var1", variance 1), ("collect", collect)]

def TemporalField.briefNames : List (String × TemporalField) :=
  [("year", year), ("quarter", quarter), ("month", month), ("week", week),
    ("day_of_year", dayOfYear), ("day", day), ("hour", hour), ("minute", minute),
    ("second", second), ("millisecond", millisecond), ("weekday", weekday)]

/-- What a name stands for in a table. -/
def ofBriefName? (table : List (String × α)) (name : String) : Option α :=
  (table.find? (·.1 == name)).map (·.2)

def briefName [DecidableEq α] (table : List (String × α)) (a : α) : Json :=
  .string (((table.find? fun entry => decide (entry.2 = a)).map (·.1)).getD "")

/-! ## Functions -/

namespace Function

/-- The functions without constants of their own. -/
def plainNames : List (String × Function) :=
  [("lowercase", lowercase), ("uppercase", uppercase), ("strip", strip),
    ("lstrip", stripStart), ("rstrip", stripEnd), ("capitalize", capitalize),
    ("reverse", reverse), ("length", length), ("epoch_seconds", epochSeconds),
    ("date_from_parts", dateFromParts), ("timestamp_from_parts", timestampFromParts),
    ("atan2", atan2), ("list_length", listLength), ("list_concat", listConcat),
    ("list_from_columns", listFromColumns)]

/-- The functions whose only constant is a text. -/
def textNames : List (String × (String → Function)) :=
  [("contains", contains), ("starts_with", startsWith), ("ends_with", endsWith),
    ("regex_match", regexMatch), ("split", split), ("concat", concat),
    ("strftime", strftime), ("strptime", strptime), ("truncate", truncate)]

def tagged (name : String) (constants : List Json) : Json :=
  .array (.string name :: constants)

/-- A function is an array of its name and its constants. -/
def brief : Function → Json
  | slice start size => tagged "slice" [.ofWhole start, .ofOption .ofWhole size]
  | tail count => tagged "tail" [.ofWhole count]
  | find needle start => tagged "find" [.string needle, .ofWhole start]
  | findInSet values => tagged "find_in_set" [.array (values.map .string)]
  | contains s => tagged "contains" [.string s]
  | startsWith s => tagged "starts_with" [.string s]
  | endsWith s => tagged "ends_with" [.string s]
  | replace pattern replacement => tagged "replace" [.string pattern, .string replacement]
  | regexMatch pattern => tagged "regex_match" [.string pattern]
  | regexExtract pattern group => tagged "regex_extract" [.string pattern, .ofWhole group]
  | regexReplace pattern replacement =>
    tagged "regex_replace" [.string pattern, .string replacement]
  | split separator => tagged "split" [.string separator]
  | padStart width fill => tagged "pad_start" [.ofWhole width, .string fill]
  | padEnd width fill => tagged "pad_end" [.ofWhole width, .string fill]
  | repeated times => tagged "repeat" [.ofWhole times]
  | concat separator => tagged "concat" [.string separator]
  | temporal field => tagged "temporal" [briefName TemporalField.briefNames field]
  | strftime format => tagged "strftime" [.string format]
  | strptime format => tagged "strptime" [.string format]
  | truncate unit => tagged "truncate" [.string unit]
  | f => .array [briefName plainNames f]

end Function

/-! ## Expressions

An expression is an array that begins with a tag for its form.
-/

namespace Expr

mutual

def brief : Expr → Json
  | column name => .array [.string "col", .string name]
  | literal v type => .array [.string "lit", v.brief, .string type.name]
  | named e name => .array [.string "alias", brief e, .string name]
  | cast e type => .array [.string "cast", brief e, .string type.name]
  | binary l op r =>
    .array [.string "bin", briefName BinaryOp.briefNames op, brief l, brief r]
  | unary op e => .array [.string "un", briefName UnaryOp.briefNames op, brief e]
  | choose p a b => .array [.string "when", brief p, brief a, brief b]
  | fillNull e fill => .array [.string "fill_null", brief e, brief fill]
  | fillNan e fill => .array [.string "fill_nan", brief e, brief fill]
  | isIn e items => .array [.string "in", brief e, .array (briefList items)]
  | between e low high => .array [.string "between", brief e, brief low, brief high]
  | coalesce items => .array [.string "coalesce", .array (briefList items)]
  | least items => .array [.string "min_h", .array (briefList items)]
  | greatest items => .array [.string "max_h", .array (briefList items)]
  | call f items => .array [.string "fn", f.brief, .array (briefList items)]
  | reduce f e none =>
    .array [.string "agg", briefName Reduction.briefNames f, brief e, .null]
  | reduce f e (some p) =>
    .array [.string "agg", briefName Reduction.briefNames f, brief e, brief p]
  | countRows none => .array [.string "count_rows", .null]
  | countRows (some p) => .array [.string "count_rows", brief p]

def briefList : List Expr → List Json
  | [] => []
  | e :: rest => brief e :: briefList rest

end

end Expr

/-! ## Plans

A step is an array that begins with a tag; the plan it stands on comes next.
-/

namespace Plan

def exprs (items : List Expr) : Json := .array (Expr.briefList items)

def brief : Plan → Json
  | scan table => .array [.string "scan", .string table]
  | rows name batch => .array [.string "values", .string name, batch.brief]
  | filter input p => .array [.string "filter", brief input, p.brief]
  | select input items => .array [.string "select", brief input, exprs items]
  | extend input items => .array [.string "with_columns", brief input, exprs items]
  | sort input keys descending =>
    .array [.string "sort", brief input, exprs keys, .array (descending.map .bool)]
  | slice input offset length =>
    .array [.string "slice", brief input, .ofWhole offset,
      .ofOption (fun (n : Nat) => .ofWhole n) length]
  | aggregate input keys metrics =>
    .array [.string "aggregate", brief input, exprs keys, exprs metrics]
  | join left right leftKeys rightKeys kind suffix =>
    .array [.string "join", brief left, brief right, exprs leftKeys, exprs rightKeys,
      .string kind.name, .string suffix]
  | dropNulls input columns =>
    .array [.string "drop_nulls", brief input,
      .ofOption (fun names => .array (names.map .string)) columns]
  | unique input => .array [.string "unique", brief input]

end Plan

end TypedQuery
