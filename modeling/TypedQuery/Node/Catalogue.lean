import TypedQuery.Node.Rules
import TypedQuery.Node.Signature

/-!
# The catalogue of kinds

What each kind declares: its parameters and the attributes it derives. A kind also has
everything that the kinds above it declare; what it declares itself under the same name
takes precedence. `NodeKind.definition` puts both together.
-/

namespace TypedQuery

/-- How an attribute is derived from the fields and from the attributes before it. -/
abbrev Attribute := Fields → Except Error Arg

/-- A kind of node: whether there are nodes of that very kind, what they hold
and what they derive. -/
structure Definition where
  isAbstract : Bool := false
  signature : Signature := ⟨[]⟩
  attributes : List (String × Attribute) := []

namespace Catalogue

open Parameter Validator

/-! ## Words for declarations -/

def hasType (rule : Fields → Except Error DataType) : String × Attribute :=
  ("dtype", fun bound => (rule bound).map Arg.type)

def ofType (t : DataType) : String × Attribute := hasType fun _ => .ok t

def hasShape (rule : Fields → Except Error Shape) : String × Attribute :=
  ("shape", fun bound => (rule bound).map Arg.shape)

def hasSchema (rule : Fields → Except Error Schema) : String × Attribute :=
  ("schema", fun bound => (rule bound).map Arg.schema)

def declare (params : List Parameter) (attributes : List (String × Attribute)) :
    Definition :=
  ⟨false, ⟨params⟩, attributes⟩

def declareAbstract (params : List Parameter) (attributes : List (String × Attribute)) :
    Definition :=
  ⟨true, ⟨params⟩, attributes⟩

def numeric : Validator := valueOf .numeric

def integral : Validator := valueOf .integer

def text : Validator := valueOf .string

def condition : Validator := valueOf .boolean

def temporal : Validator := valueOf .temporal

def timestamp : Validator := valueOf .timestamp

def day : Validator := valueOf .date

def duration : Validator := valueOf .interval

def list : Validator := valueOf .array

/-- Parameters that are all mandatory. -/
def takes (params : List (String × Validator)) : List Parameter :=
  params.map fun (name, validator) => required name validator

/-- A sequence that is empty when left out. -/
def many (name : String) (each : Validator) : Parameter :=
  defaulted name (.seq []) (tupleOf each)

def urlParts : List String :=
  ["PROTOCOL", "AUTHORITY", "USERINFO", "HOST", "FILE", "PATH", "QUERY", "REF"]

def dateUnits : List String := ["Y", "Q", "M", "W", "D"]

def timestampUnits : List String := ["Y", "Q", "M", "W", "D", "h", "m", "s", "ms", "us"]

def unixUnits : List String := ["s", "ms", "us", "ns"]

def intervalUnits : List String := ["Y", "M", "W", "D", "h", "m", "s", "ms", "us", "ns"]

/-! ## Declarations -/

/-- What a kind declares besides what it takes from the kind above it. -/
def declaration : NodeKind → Definition
  | .node | .tableNode => declareAbstract [] []
  | .value => declareAbstract [] [hasShape fun bound => .ok (Rules.widestShape bound)]
  | .unary =>
    declareAbstract (takes [("arg", value)])
      [hasType (Rules.typeIn "arg"), hasShape (Rules.shapeIn "arg")]
  | .binary =>
    declareAbstract (takes [("left", value), ("right", value)])
      [hasType (Rules.commonType ["left", "right"]),
        hasShape (Rules.widerShape "left" "right")]
  | .nAry => declareAbstract [variadic "arg" value] [hasType (Rules.commonType ["arg"])]
  | .coalesce | .greatest | .least => declare [] []
  | .sortKey =>
    declare [required "expr" value, defaulted "ascending" (.bool true) boolean] []
  | .nodeList => declare [variadic "values" (instanceOf .node)] []
  -- Constants, columns and conditions
  | .literal =>
    declare
      [required "value" literalPayload,
        produced "dtype" (fun bound =>
          .type ((((Fields.field? bound "value").bind Arg.value?).map Value.dataType).getD
            .null)) dataType]
      [hasType fun bound => .ok (Rules.typeHeld "dtype" bound)]
  | .tableColumn =>
    declare (takes [("table", table), ("name", columnOf "table")])
      [hasType fun bound => .ok (Rules.columnType bound), hasShape fun _ => .ok .columnar]
  | .renamed =>
    declare (takes [("arg", value), ("name", string)])
      [hasType (Rules.typeIn "arg"), hasShape (Rules.shapeIn "arg")]
  | .cast =>
    declare (takes [("arg", value), ("to", dataType)])
      [hasType fun bound => .ok (Rules.typeHeld "to" bound)]
  | .ifNull =>
    declare (takes [("arg", value), ("ifnull_expr", comparableWith "arg")])
      [hasType (Rules.commonType ["arg", "ifnull_expr"])]
  | .nullIf =>
    declare (takes [("arg", value), ("null_if_expr", comparableWith "arg")])
      [hasType (Rules.typeIn "arg")]
  | .ifElse =>
    declare (takes
      [("bool_expr", condition), ("true_expr", value), ("false_null_expr", value)])
      [hasType (Rules.commonType ["true_expr", "false_null_expr"])]
  | .simpleCase =>
    declare
      (takes [("base", value), ("cases", tupleOf (comparableWith "base")),
        ("results", sameLengthAs "cases")]
        ++ [defaulted "default" (.value .null) value])
      [hasType (Rules.commonType ["results", "default"])]
  | .searchedCase =>
    declare
      (takes [("cases", tupleOf condition), ("results", sameLengthAs "cases")]
        ++ [defaulted "default" (.value .null) value])
      [hasType (Rules.commonType ["results", "default"])]
  | .between =>
    declare
      (takes [("arg", value), ("lower_bound", comparableWith "arg"),
        ("upper_bound", comparableWith "arg")])
      [ofType .boolean]
  | .contains | .notContains =>
    declare (takes [("value", value), ("options", tupleOf (comparableWith "value"))])
      [ofType .boolean]
  -- Arrays
  | .arrayLength => declare (takes [("arg", list)]) [ofType .int64]
  | .arrayConcat =>
    declare (takes [("left", list), ("right", comparableWith "left")])
      [hasType (Rules.commonType ["left", "right"])]
  | .arrayColumn => declare [variadic "cols" value] [hasType Rules.arrayType]
  -- Logic and comparison
  | .not => declare (takes [("arg", condition)]) [ofType .boolean]
  | .isNull | .notNull => declare [] [ofType .boolean]
  | .comparison =>
    declareAbstract (takes [("left", value), ("right", comparableWith "left")])
      [ofType .boolean]
  | .equals | .notEquals | .greater | .greaterEqual | .less | .lessEqual => declare [] []
  | .logicalBinary =>
    declareAbstract (takes [("left", condition), ("right", condition)]) [ofType .boolean]
  | .and | .or | .xor => declare [] []
  -- Numbers
  | .negate | .zeroIfNull | .nullIfZero => declare (takes [("arg", numeric)]) []
  | .bitwiseNot => declare (takes [("arg", integral)]) []
  | .isNan | .isInf => declare (takes [("arg", numeric)]) [ofType .boolean]
  | .mathUnary => declareAbstract (takes [("arg", numeric)]) [ofType .float64]
  | .exp | .ln | .log2 | .log10 | .sqrt | .acos | .asin | .atan | .cos | .sin | .tan | .cot
  | .radians
    | .degrees => declare [] []
  | .abs | .sign => declare [] [hasType (Rules.typeIn "arg")]
  | .ceil | .floor => declare [] [ofType .int64]
  | .numericBinary => declareAbstract (takes [("left", numeric), ("right", numeric)]) []
  | .add | .subtract | .multiply | .floorDivide | .modulus => declare [] []
  | .divide | .power | .atan2 => declare [] [ofType .float64]
  | .bitwiseBinary =>
    declareAbstract (takes [("left", integral), ("right", integral)])
      [hasType (Rules.commonType ["left", "right"])]
  | .bitwiseAnd | .bitwiseOr | .bitwiseXor | .bitwiseLeftShift
  | .bitwiseRightShift => declare [] []
  | .round =>
    declare [required "arg" numeric, optional "digits" integral] [hasType Rules.roundType]
  | .clip =>
    declare [required "arg" numeric, optional "lower" numeric, optional "upper" numeric]
      [hasType (Rules.typeIn "arg")]
  | .log => declare [required "arg" numeric, optional "base" numeric] [ofType .float64]
  -- Text
  | .stringUnary => declareAbstract (takes [("arg", text)]) [ofType .string]
  | .lowercase | .uppercase | .strip | .lStrip | .rStrip | .capitalize
  | .reverse => declare [] []
  | .stringLength => declare [] [ofType .int32]
  | .stringConcat => declare [variadic "arg" text] [ofType .string]
  | .substring =>
    declare [required "arg" text, required "start" integral, optional "length" integral]
      [ofType .string]
  | .strRight => declare (takes [("arg", text), ("nchars", integral)]) [ofType .string]
  | .stringFind =>
    declare
      [required "arg" text, required "substr" text, optional "start" integral,
        optional "end" integral]
      [ofType .int64]
  | .findInSet =>
    declare (takes [("needle", text), ("values", tupleOf text)]) [ofType .int64]
  | .stringJoin => declare (takes [("sep", text), ("arg", tupleOf text)]) [ofType .string]
  | .stringLike | .regexSearch => declare (takes [("arg", text), ("pattern", text)])
    [ofType .boolean]
  | .startsWith => declare (takes [("arg", text), ("start", text)]) [ofType .boolean]
  | .endsWith => declare (takes [("arg", text), ("end", text)]) [ofType .boolean]
  | .stringContains => declare (takes [("haystack", text), ("needle", text)])
    [ofType .boolean]
  | .stringReplace | .regexReplace =>
    declare (takes [("arg", text), ("pattern", text), ("replacement", text)])
      [ofType .string]
  | .stringSplit => declare (takes [("arg", text), ("delimiter", text)])
    [ofType (.array .string)]
  | .regexExtract =>
    declare (takes [("arg", text), ("pattern", text), ("index", integral)]) [ofType .string]
  | .lPad | .rPad =>
    declare [required "arg" text, required "length" integral,
      defaulted "pad" (.text " ") text]
      [ofType .string]
  | .repeated => declare (takes [("arg", text), ("times", integral)]) [ofType .string]
  | .parseUrl =>
    declare [required "arg" text, required "extract" (oneOf urlParts), optional "key" text]
      [ofType .string]
  -- Time
  | .extractTemporalField => declareAbstract (takes [("arg", temporal)]) [ofType .int32]
  | .extractYear | .extractQuarter | .extractMonth | .extractWeekOfYear | .extractDayOfYear
  | .extractDay =>
    declare [] []
  | .extractHour | .extractMinute | .extractSecond | .extractMillisecond =>
    declare (takes [("arg", timestamp)]) []
  | .extractEpochSeconds => declare (takes [("arg", temporal)]) [ofType .int64]
  | .dayOfWeekIndex => declare (takes [("arg", temporal)]) [ofType .int32]
  | .dayOfWeekName => declare (takes [("arg", temporal)]) [ofType .string]
  | .date => declare (takes [("arg", timestamp)]) [ofType .date]
  | .temporalBinary => declareAbstract (takes [("left", temporal)]) []
  | .timestampAdd | .timestampSub =>
    declare (takes [("left", timestamp), ("right", duration)])
      [hasType (Rules.typeIn "left")]
  | .dateAdd | .dateSub =>
    declare (takes [("left", day), ("right", duration)]) [ofType .date]
  | .timestampDiff =>
    declare (takes [("left", timestamp), ("right", timestamp)]) [ofType (.interval .second)]
  | .dateDiff => declare (takes [("left", day), ("right", day)]) [ofType (.interval .day)]
  | .intervalSubtract =>
    declare (takes [("left", duration), ("right", duration)]) [hasType (Rules.typeIn "left")]
  | .strftime => declare (takes [("arg", temporal), ("format_str", text)]) [ofType .string]
  | .stringToTimestamp =>
    declare (takes [("arg", text), ("format_str", text)]) [ofType (.timestamp .nanosecond)]
  | .dateTruncate => declare (takes [("arg", day), ("unit", oneOf dateUnits)]) [ofType .date]
  | .timestampTruncate =>
    declare (takes [("arg", timestamp), ("unit", oneOf timestampUnits)])
      [hasType (Rules.typeIn "arg")]
  | .dateFromYmd =>
    declare (takes [("year", integral), ("month", integral), ("day", integral)])
      [ofType .date]
  | .timestampFromYmdhms =>
    declare
      (takes [("year", integral), ("month", integral), ("day", integral),
        ("hours", integral), ("minutes", integral), ("seconds", integral)])
      [ofType (.timestamp .second)]
  | .timestampFromUnix =>
    declare [required "arg" integral, defaulted "unit" (.text "s") (oneOf unixUnits)]
      [hasType Rules.unixTimestampType]
  | .timestampNow =>
    declare [] [ofType (.timestamp .nanosecond), hasShape fun _ => .ok .scalar]
  | .intervalFromInteger =>
    declare (takes [("arg", integral), ("unit", oneOf intervalUnits)])
      [hasType Rules.intervalType]
  -- Reductions
  | .reduction =>
    declareAbstract [required "arg" value, optional "where" condition]
      [hasShape fun _ => .ok .scalar]
  | .count | .countDistinct => declare [] [ofType .int64]
  | .countStar => declare (takes [("arg", table)]) [ofType .int64]
  | .sum => declare (takes [("arg", numeric)]) [hasType Rules.sumType]
  | .mean | .approxMedian => declare (takes [("arg", numeric)]) [ofType .float64]
  | .min | .max => declare [] [hasType (Rules.typeIn "arg")]
  | .standardDev | .variance =>
    declare [required "arg" numeric, defaulted "how" (.text "sample")
      (oneOf ["sample", "pop"])]
      [ofType .float64]
  | .arrayCollect => declare [] [hasType fun bound => (Rules.typeIn "arg" bound).map .array]
  -- Tables
  | .databaseTable =>
    declare (takes [("name", string), ("schema", schema)])
      [hasSchema (Rules.declaredSchema .databaseTable)]
  | .inMemoryTable =>
    declare (takes [("name", string), ("schema", schema), ("data", rowsOf "schema")])
      [hasSchema (Rules.declaredSchema .inMemoryTable)]
  | .selection =>
    declare
      [required "table" table, many "selections" (either table value),
        many "predicates" condition, many "sort_keys" sortKey]
      [hasSchema Rules.selectionSchema]
  | .aggregation =>
    declare
      [required "table" table, many "metrics" scalarValue, many "by" value,
        many "predicates" condition]
      [hasSchema Rules.aggregationSchema]
  | .limit =>
    declare [required "table" table, required "n" integer,
      defaulted "offset" (.value (.int64 0)) integer]
      [hasSchema (Rules.schemaIn "table")]
  | .dropNa =>
    declare
      [required "table" table, defaulted "how" (.text "any") (oneOf ["any", "all"]),
        optional "subset" (tupleOf value)]
      [hasSchema (Rules.schemaIn "table")]
  | .fillNa =>
    declare (takes
      [("table", table), ("replacements", either (mapOf scalarValue) scalarValue)])
      [hasSchema (Rules.schemaIn "table")]
  | .distinct => declare (takes [("table", table)]) [hasSchema (Rules.schemaIn "table")]
  | .join =>
    declareAbstract [required "left" table, required "right" table,
      many "predicates" condition]
      [hasSchema Rules.joinSchema]
  | .innerJoin | .leftJoin | .rightJoin | .outerJoin => declare [] []
  | .leftSemiJoin | .leftAntiJoin => declare [] [hasSchema (Rules.schemaIn "left")]

/-! ## Inheritance -/

/-- Replaces the attribute of that name where it stands, or adds it at the end. -/
def insertAttribute (attributes : List (String × Attribute)) (name : String)
    (rule : Attribute) :
    List (String × Attribute) :=
  match attributes with
  | [] => [(name, rule)]
  | (other, r) :: rest =>
    if other = name then (other, rule) :: rest
      else (other, r) :: insertAttribute rest name rule

/-- What a kind has that stands below another and declares something itself. -/
def inherit (above declared : Definition) : Definition :=
  { isAbstract := declared.isAbstract
    signature := Signature.merge [above.signature] declared.signature
    attributes :=
      declared.attributes.foldl (fun as (name, rule) => insertAttribute as name rule)
      above.attributes }

end Catalogue

/-- All that a kind has, from the root down. -/
def NodeKind.definition (k : NodeKind) : Definition :=
  k.lineage.foldr (fun k above => Catalogue.inherit above (Catalogue.declaration k)) {}

end TypedQuery
