/-!
# Kinds of node

Every node of an expression has a kind, and the kinds form a tree below `node`: a kind has
the fields and the rules of its parent besides its own. The kinds above the leaves are
capabilities, such as being a value or taking two operands; a rule given for one of them
covers everything below it. In `all` a parent stands before its children.
-/

namespace TypedQuery

inductive NodeKind where
  | node
  | value
  | tableNode
  | sortKey
  | nodeList
  | unary
  | binary
  | reduction
  | nAry
  | literal
  | tableColumn
  | renamed
  | cast
  | ifNull
  | nullIf
  | ifElse
  | simpleCase
  | searchedCase
  | between
  | contains
  | notContains
  | negate
  | not
  | bitwiseNot
  | isNull
  | notNull
  | isNan
  | isInf
  | zeroIfNull
  | nullIfZero
  | stringUnary
  | lowercase
  | uppercase
  | strip
  | lStrip
  | rStrip
  | capitalize
  | reverse
  | stringLength
  | mathUnary
  | abs
  | ceil
  | floor
  | exp
  | ln
  | log2
  | log10
  | sqrt
  | sign
  | acos
  | asin
  | atan
  | cos
  | sin
  | tan
  | cot
  | radians
  | degrees
  | extractTemporalField
  | extractYear
  | extractQuarter
  | extractMonth
  | extractWeekOfYear
  | extractDayOfYear
  | extractDay
  | extractHour
  | extractMinute
  | extractSecond
  | extractMillisecond
  | extractEpochSeconds
  | dayOfWeekIndex
  | dayOfWeekName
  | date
  | arrayLength
  | comparison
  | equals
  | notEquals
  | greater
  | greaterEqual
  | less
  | lessEqual
  | logicalBinary
  | and
  | or
  | xor
  | numericBinary
  | add
  | subtract
  | multiply
  | divide
  | floorDivide
  | modulus
  | power
  | atan2
  | bitwiseBinary
  | bitwiseAnd
  | bitwiseOr
  | bitwiseXor
  | bitwiseLeftShift
  | bitwiseRightShift
  | temporalBinary
  | timestampAdd
  | timestampSub
  | timestampDiff
  | dateAdd
  | dateSub
  | dateDiff
  | intervalSubtract
  | count
  | countDistinct
  | countStar
  | sum
  | mean
  | min
  | max
  | standardDev
  | variance
  | approxMedian
  | arrayCollect
  | coalesce
  | greatest
  | least
  | stringConcat
  | substring
  | strRight
  | stringFind
  | findInSet
  | stringJoin
  | stringLike
  | startsWith
  | endsWith
  | stringContains
  | stringReplace
  | stringSplit
  | regexSearch
  | regexExtract
  | regexReplace
  | lPad
  | rPad
  | repeated
  | parseUrl
  | round
  | clip
  | log
  | strftime
  | stringToTimestamp
  | dateTruncate
  | timestampTruncate
  | dateFromYmd
  | timestampFromYmdhms
  | timestampFromUnix
  | timestampNow
  | intervalFromInteger
  | arrayConcat
  | arrayColumn
  | databaseTable
  | inMemoryTable
  | selection
  | aggregation
  | limit
  | dropNa
  | fillNa
  | distinct
  | join
  | innerJoin
  | leftJoin
  | rightJoin
  | outerJoin
  | leftSemiJoin
  | leftAntiJoin
  deriving DecidableEq

namespace NodeKind

def name : NodeKind → String
  | node => "Node"
  | value => "Value"
  | tableNode => "TableNode"
  | sortKey => "SortKey"
  | nodeList => "NodeList"
  | unary => "Unary"
  | binary => "Binary"
  | reduction => "Reduction"
  | nAry => "NAry"
  | literal => "Literal"
  | tableColumn => "TableColumn"
  | renamed => "Alias"
  | cast => "Cast"
  | ifNull => "IfNull"
  | nullIf => "NullIf"
  | ifElse => "Where"
  | simpleCase => "SimpleCase"
  | searchedCase => "SearchedCase"
  | between => "Between"
  | contains => "Contains"
  | notContains => "NotContains"
  | negate => "Negate"
  | not => "Not"
  | bitwiseNot => "BitwiseNot"
  | isNull => "IsNull"
  | notNull => "NotNull"
  | isNan => "IsNan"
  | isInf => "IsInf"
  | zeroIfNull => "ZeroIfNull"
  | nullIfZero => "NullIfZero"
  | stringUnary => "StringUnary"
  | lowercase => "Lowercase"
  | uppercase => "Uppercase"
  | strip => "Strip"
  | lStrip => "LStrip"
  | rStrip => "RStrip"
  | capitalize => "Capitalize"
  | reverse => "Reverse"
  | stringLength => "StringLength"
  | mathUnary => "MathUnary"
  | abs => "Abs"
  | ceil => "Ceil"
  | floor => "Floor"
  | exp => "Exp"
  | ln => "Ln"
  | log2 => "Log2"
  | log10 => "Log10"
  | sqrt => "Sqrt"
  | sign => "Sign"
  | acos => "Acos"
  | asin => "Asin"
  | atan => "Atan"
  | cos => "Cos"
  | sin => "Sin"
  | tan => "Tan"
  | cot => "Cot"
  | radians => "Radians"
  | degrees => "Degrees"
  | extractTemporalField => "ExtractTemporalField"
  | extractYear => "ExtractYear"
  | extractQuarter => "ExtractQuarter"
  | extractMonth => "ExtractMonth"
  | extractWeekOfYear => "ExtractWeekOfYear"
  | extractDayOfYear => "ExtractDayOfYear"
  | extractDay => "ExtractDay"
  | extractHour => "ExtractHour"
  | extractMinute => "ExtractMinute"
  | extractSecond => "ExtractSecond"
  | extractMillisecond => "ExtractMillisecond"
  | extractEpochSeconds => "ExtractEpochSeconds"
  | dayOfWeekIndex => "DayOfWeekIndex"
  | dayOfWeekName => "DayOfWeekName"
  | date => "Date"
  | arrayLength => "ArrayLength"
  | comparison => "Comparison"
  | equals => "Equals"
  | notEquals => "NotEquals"
  | greater => "Greater"
  | greaterEqual => "GreaterEqual"
  | less => "Less"
  | lessEqual => "LessEqual"
  | logicalBinary => "LogicalBinary"
  | and => "And"
  | or => "Or"
  | xor => "Xor"
  | numericBinary => "NumericBinary"
  | add => "Add"
  | subtract => "Subtract"
  | multiply => "Multiply"
  | divide => "Divide"
  | floorDivide => "FloorDivide"
  | modulus => "Modulus"
  | power => "Power"
  | atan2 => "Atan2"
  | bitwiseBinary => "BitwiseBinary"
  | bitwiseAnd => "BitwiseAnd"
  | bitwiseOr => "BitwiseOr"
  | bitwiseXor => "BitwiseXor"
  | bitwiseLeftShift => "BitwiseLeftShift"
  | bitwiseRightShift => "BitwiseRightShift"
  | temporalBinary => "TemporalBinary"
  | timestampAdd => "TimestampAdd"
  | timestampSub => "TimestampSub"
  | timestampDiff => "TimestampDiff"
  | dateAdd => "DateAdd"
  | dateSub => "DateSub"
  | dateDiff => "DateDiff"
  | intervalSubtract => "IntervalSubtract"
  | count => "Count"
  | countDistinct => "CountDistinct"
  | countStar => "CountStar"
  | sum => "Sum"
  | mean => "Mean"
  | min => "Min"
  | max => "Max"
  | standardDev => "StandardDev"
  | variance => "Variance"
  | approxMedian => "ApproxMedian"
  | arrayCollect => "ArrayCollect"
  | coalesce => "Coalesce"
  | greatest => "Greatest"
  | least => "Least"
  | stringConcat => "StringConcat"
  | substring => "Substring"
  | strRight => "StrRight"
  | stringFind => "StringFind"
  | findInSet => "FindInSet"
  | stringJoin => "StringJoin"
  | stringLike => "StringLike"
  | startsWith => "StartsWith"
  | endsWith => "EndsWith"
  | stringContains => "StringContains"
  | stringReplace => "StringReplace"
  | stringSplit => "StringSplit"
  | regexSearch => "RegexSearch"
  | regexExtract => "RegexExtract"
  | regexReplace => "RegexReplace"
  | lPad => "LPad"
  | rPad => "RPad"
  | repeated => "Repeat"
  | parseUrl => "ParseUrl"
  | round => "Round"
  | clip => "Clip"
  | log => "Log"
  | strftime => "Strftime"
  | stringToTimestamp => "StringToTimestamp"
  | dateTruncate => "DateTruncate"
  | timestampTruncate => "TimestampTruncate"
  | dateFromYmd => "DateFromYmd"
  | timestampFromYmdhms => "TimestampFromYmdhms"
  | timestampFromUnix => "TimestampFromUnix"
  | timestampNow => "TimestampNow"
  | intervalFromInteger => "IntervalFromInteger"
  | arrayConcat => "ArrayConcat"
  | arrayColumn => "ArrayColumn"
  | databaseTable => "DatabaseTable"
  | inMemoryTable => "InMemoryTable"
  | selection => "Selection"
  | aggregation => "Aggregation"
  | limit => "Limit"
  | dropNa => "DropNa"
  | fillNa => "FillNa"
  | distinct => "Distinct"
  | join => "Join"
  | innerJoin => "InnerJoin"
  | leftJoin => "LeftJoin"
  | rightJoin => "RightJoin"
  | outerJoin => "OuterJoin"
  | leftSemiJoin => "LeftSemiJoin"
  | leftAntiJoin => "LeftAntiJoin"

def all : List NodeKind :=
  [node, value, tableNode, sortKey, nodeList, unary, binary, reduction, nAry, literal,
    tableColumn, renamed, cast, ifNull, nullIf, ifElse, simpleCase, searchedCase, between,
    contains, notContains, negate, not, bitwiseNot, isNull, notNull, isNan, isInf,
    zeroIfNull, nullIfZero, stringUnary, lowercase, uppercase, strip, lStrip, rStrip,
    capitalize, reverse, stringLength, mathUnary, abs, ceil, floor, exp, ln, log2, log10,
    sqrt, sign, acos, asin, atan, cos, sin, tan, cot, radians, degrees,
    extractTemporalField, extractYear, extractQuarter, extractMonth, extractWeekOfYear,
    extractDayOfYear, extractDay, extractHour, extractMinute, extractSecond,
    extractMillisecond, extractEpochSeconds, dayOfWeekIndex, dayOfWeekName, date,
    arrayLength, comparison, equals, notEquals, greater, greaterEqual, less, lessEqual,
    logicalBinary, and, or, xor, numericBinary, add, subtract, multiply, divide,
    floorDivide, modulus, power, atan2, bitwiseBinary, bitwiseAnd, bitwiseOr, bitwiseXor,
    bitwiseLeftShift, bitwiseRightShift, temporalBinary, timestampAdd, timestampSub,
    timestampDiff, dateAdd, dateSub, dateDiff, intervalSubtract, count,
    countDistinct, countStar, sum, mean, min, max, standardDev, variance, approxMedian,
    arrayCollect, coalesce, greatest, least, stringConcat, substring, strRight, stringFind,
    findInSet, stringJoin, stringLike, startsWith, endsWith, stringContains, stringReplace,
    stringSplit, regexSearch, regexExtract, regexReplace, lPad, rPad, repeated, parseUrl,
    round, clip, log, strftime, stringToTimestamp, dateTruncate,
    timestampTruncate, dateFromYmd, timestampFromYmdhms, timestampFromUnix, timestampNow,
    intervalFromInteger, arrayConcat, arrayColumn, databaseTable, inMemoryTable, selection,
    aggregation, limit, dropNa, fillNa, distinct, join, innerJoin, leftJoin, rightJoin,
    outerJoin, leftSemiJoin, leftAntiJoin]

def ofName? (text : String) : Option NodeKind := all.find? (·.name == text)

/-- The kind directly above; only the root has none. -/
def parent? : NodeKind → Option NodeKind
  | node => none
  | value | tableNode | sortKey | nodeList => some node
  | unary | binary | reduction | nAry | literal | tableColumn | renamed | cast | ifNull
  | nullIf | ifElse
    | simpleCase | searchedCase | between | contains | notContains | substring | strRight
    | stringFind | findInSet | stringJoin | stringLike | startsWith | endsWith
    | stringContains | stringReplace | stringSplit | regexSearch | regexExtract
    | regexReplace | lPad | rPad | repeated | parseUrl | round | clip | log | strftime
    | stringToTimestamp | dateTruncate | timestampTruncate | dateFromYmd
    | timestampFromYmdhms | timestampFromUnix | timestampNow | intervalFromInteger
    | arrayConcat | arrayColumn => some value
  | negate | not | bitwiseNot | isNull | notNull | isNan | isInf | zeroIfNull | nullIfZero
  | stringUnary
    | mathUnary | extractTemporalField | extractEpochSeconds | dayOfWeekIndex
    | dayOfWeekName | date | arrayLength => some unary
  | lowercase | uppercase | strip | lStrip | rStrip | capitalize | reverse | stringLength =>
    some stringUnary
  | abs | ceil | floor | exp | ln | log2 | log10 | sqrt | sign | acos | asin | atan | cos
  | sin | tan | cot
    | radians | degrees => some mathUnary
  | extractYear | extractQuarter | extractMonth | extractWeekOfYear | extractDayOfYear
  | extractDay
    | extractHour | extractMinute | extractSecond | extractMillisecond =>
      some extractTemporalField
  | comparison | logicalBinary | numericBinary | bitwiseBinary
  | temporalBinary => some binary
  | equals | notEquals | greater | greaterEqual | less | lessEqual => some comparison
  | and | or | xor => some logicalBinary
  | add | subtract | multiply | divide | floorDivide | modulus | power
  | atan2 => some numericBinary
  | bitwiseAnd | bitwiseOr | bitwiseXor | bitwiseLeftShift | bitwiseRightShift =>
    some bitwiseBinary
  | timestampAdd | timestampSub | timestampDiff | dateAdd | dateSub | dateDiff
    | intervalSubtract => some temporalBinary
  | count | countDistinct | countStar | sum | mean | min | max | standardDev | variance
  | approxMedian
    | arrayCollect => some reduction
  | coalesce | greatest | least | stringConcat => some nAry
  | databaseTable | inMemoryTable | selection | aggregation | limit | dropNa | fillNa
  | distinct | join => some tableNode
  | innerJoin | leftJoin | rightJoin | outerJoin | leftSemiJoin | leftAntiJoin => some join

/-- The kind and at most `steps` kinds above it, the nearest first. -/
def lineageWithin : Nat → NodeKind → List NodeKind
  | 0, k => [k]
  | steps + 1, k =>
    match k.parent? with
    | none => [k]
    | some p => k :: lineageWithin steps p

/-- The kind and all kinds above it, the nearest first. No kind has more than four kinds
above it. -/
def lineage (k : NodeKind) : List NodeKind := lineageWithin 4 k

/-- Whether `k` is `ancestor` or stands below it. -/
def isUnder (k ancestor : NodeKind) : Bool := k.lineage.contains ancestor

def isValue (k : NodeKind) : Bool := k.isUnder value

def isTable (k : NodeKind) : Bool := k.isUnder tableNode

end NodeKind

end TypedQuery
