import TypedQuery.Engine.Rule
import TypedQuery.Node.Access

/-!
# Functions of texts and times on the engine
-/

namespace TypedQuery.Engine

/-!
## Texts

Patterns, widths and positions must be constants.
-/

def textFunctions : List (NodeKind × Function) :=
  [(.lowercase, .lowercase), (.uppercase, .uppercase), (.strip, .strip),
    (.lStrip, .stripStart), (.rStrip, .stripEnd), (.capitalize, .capitalize),
    (.reverse, .reverse)]

def lengthRule : EngineRule := giving fun emit n => do
  return .cast ((← expr emit n "arg").callOne .length) .int32

def separatedRule : EngineRule := giving fun emit n => do
  let separator ← textLiteral n "sep"
  return .call (.concat separator) (← exprs emit n "arg")

/-! ### Constants of functions -/

def readSlice (n : Node) : Except Error Function := do
  let start ← intLiteral n "start"
  let length ← intLiteral? n "length"
  .ok (.slice start.toInt (length.map Int64.toInt))

def readFind (n : Node) : Except Error Function :=
  if !((n.get? "end").getD .none).isNone then
    .error (.inexpressible "StringFind with an end position is not supported by the engine")
  else do
    let needle ← textLiteral n "substr"
    match ← intLiteral? n "start" with
    | none => .ok (.find needle 0)
    | some start => .ok (.find needle (← countOf n "start" start))

/-- A text that a field holds as a constant. -/
def textOf? : Arg → Option String
  | .node child =>
    match child.literal? with
    | some (.string s) => some s
    | _ => none
  | .value (.string s) => some s
  | _ => none

def readSet (n : Node) : Except Error Function := do
  match ((← n.field "values").seq?).bind (·.mapM textOf?) with
  | some values => .ok (.findInSet values)
  | none => .error (unsupported n "values")

/-- A function whose only constant is a text. -/
def readText (make : String → Function) (field : String) (n : Node) :
    Except Error Function := do
  .ok (make (← textLiteral n field))

def readReplacement (make : String → String → Function) (n : Node) :
    Except Error Function := do
  let pattern ← textLiteral n "pattern"
  let replacement ← textLiteral n "replacement"
  .ok (make pattern replacement)

def readCount (make : Nat → Function) (field : String) (n : Node) :
    Except Error Function := do
  .ok (make (← countLiteral n field))

def readGroup (n : Node) : Except Error Function := do
  let pattern ← textLiteral n "pattern"
  let group ← countLiteral n "index"
  .ok (.regexExtract pattern group)

/-- Padding in front pushes a text to the right. -/
def readPadding (make : Nat → String → Function) (n : Node) : Except Error Function := do
  let width ← countLiteral n "length"
  let fill ← textLiteral n "pad"
  .ok (make width fill)

/-! ### Rules -/

def textRules : List (NodeKind × EngineRule) :=
  [(.stringUnary, callWith (lookup textFunctions) "arg"), (.stringLength, lengthRule),
    (.stringConcat, giving fun emit n => return .call (.concat "") (← exprs emit n "arg")),
    (.stringJoin, separatedRule), (.substring, callWith readSlice "arg"),
    (.strRight, callWith (readCount .tail "nchars") "arg"),
    (.stringFind, callWith readFind "arg"), (.findInSet, callWith readSet "needle"),
    (.stringContains, callWith (readText .contains "needle") "haystack"),
    (.startsWith, callWith (readText .startsWith "start") "arg"),
    (.endsWith, callWith (readText .endsWith "end") "arg"),
    (.stringReplace, callWith (readReplacement .replace) "arg"),
    (.regexReplace, callWith (readReplacement .regexReplace) "arg"),
    (.stringSplit, callWith (readText .split "delimiter") "arg"),
    (.regexSearch, callWith (readText .regexMatch "pattern") "arg"),
    (.regexExtract, callWith readGroup "arg"),
    (.lPad, callWith (readPadding .padStart) "arg"),
    (.rPad, callWith (readPadding .padEnd) "arg"),
    (.repeated, callWith (readCount .repeated "times") "arg")]

/-!
## Dates and timestamps

Timestamps and intervals are counts of their own units, so one of them is rescaled before
they are added. Years and months have no fixed length and are refused.
-/

/-! ### Fields -/

def temporalFields : List (NodeKind × TemporalField) :=
  [(.extractYear, .year), (.extractQuarter, .quarter), (.extractMonth, .month),
    (.extractWeekOfYear, .week), (.extractDayOfYear, .dayOfYear), (.extractDay, .day),
    (.extractHour, .hour), (.extractMinute, .minute), (.extractSecond, .second),
    (.extractMillisecond, .millisecond)]

def extracted (field : TemporalField) (emit : Node → Lowering Lowered) (n : Node) :
    Lowering Expr := do
  return (← expr emit n "arg").callOne (.temporal field)

/-- Milliseconds of the second, where the field itself counts those of the minute. -/
def withinSecond (field : TemporalField) (e : Expr) : Expr :=
  if field = .millisecond then .binary (.cast e .int64) (.arithmetic .remainder)
    (.ofInt 1000) else e

def fieldRule : EngineRule := giving fun emit n => do
  let field ← lookup temporalFields n
  return .cast (withinSecond field (← extracted field emit n)) .int32

def weekdayNames : List String :=
  ["Monday", "Tuesday", "Wednesday", "Thursday", "Friday", "Saturday", "Sunday"]

/-- The name for the number of a day; null for a number without a name. -/
def nameOfDay (index : Expr) (day : Int) : List String → Expr
  | [] => .literal .null .string
  | name :: rest =>
    .choose (index.equals (.ofInt day)) (.constant (.string name))
      (nameOfDay index (day + 1) rest)

def weekdayNameRule : EngineRule := giving fun emit n => do
  return nameOfDay (← extracted .weekday emit n) 0 weekdayNames

/-! ### Arithmetic -/

def childType (n : Node) (field : String) : Except Error DataType := do
  match (← n.child field).dataType? with
  | some t => .ok t
  | none => .error (.internal (n.kind.name ++ "." ++ field ++ " has no type"))

def timestampUnit (n : Node) (field : String) : Except Error TimeUnit := do
  match ← childType n field with
  | .timestamp unit => .ok unit
  | t =>
    .error (.type (n.kind.name ++ "." ++ field ++ " must be a timestamp, got " ++ t.name))

/-- The unit of the interval on the right, and its length in nanoseconds. -/
def stepOf (n : Node) : Except Error (IntervalUnit × Int) := do
  match ← childType n "right" with
  | .interval unit =>
    match unit.fixedNanos with
    | some step => .ok (unit, step)
    | none => .error (unsupported n "right")
  | _ => .error (unsupported n "right")

/-- Moves a count of ticks by a number of steps, on the finer of the two scales. -/
def shift (combine : Expr → Expr → Expr) (base delta : Expr) (tick step : Int) : Expr :=
  if step % tick = 0 then combine base (delta.multiply (.ofInt (step / tick)))
  else (combine (base.multiply (.ofInt tick)) (delta.multiply (.ofInt step))).divide
    (.ofInt tick)

def shiftTimestampRule (combine : Expr → Expr → Expr) : EngineRule := giving fun emit n => do
  let unit ← timestampUnit n "left"
  let (_, step) ← stepOf n
  let base ← expr emit n "left"
  let delta ← expr emit n "right"
  return .cast (shift combine (.cast base .int64) (.cast delta .int64) unit.nanos step)
    (.timestamp unit)

def nanosPerDay : Int := 86400000000000

/-- The days of a date since 1970, as a count. -/
def daysOf (e : Expr) : Expr := .cast (.cast e .int32) .int64

def shiftDateRule (combine : Expr → Expr → Expr) : EngineRule := giving fun emit n => do
  let (unit, step) ← stepOf n
  if step % nanosPerDay ≠ 0 then
    throw (.type ("dates can only move by whole days, not " ++ unit.sqlName))
  let base ← expr emit n "left"
  let delta ← expr emit n "right"
  return .cast
    (.cast (shift combine (daysOf base) (.cast delta .int64) nanosPerDay step) .int32) .date

def intervalUnit (n : Node) : Except Error IntervalUnit := do
  match ← childType n "left" with
  | .interval unit => .ok unit
  | t => .error (.type ("IntervalSubtract.left must be an interval, got " ++ t.name))

/-- Intervals of one unit are subtracted as they are, whatever its length. -/
def intervalDifference (n : Node) (unit : IntervalUnit) (left right : Expr) :
    Except Error Expr := do
  if (← childType n "right") = .interval unit then .ok (left.subtract right)
  else
    match unit.fixedNanos with
    | some tick =>
      let (_, step) ← stepOf n
      .ok (shift .subtract left right tick step)
    | none => .error (unsupported n "left")

def subtractIntervalRule : EngineRule := giving fun emit n => do
  let unit ← intervalUnit n
  let left ← expr emit n "left"
  let right ← expr emit n "right"
  return .cast (← intervalDifference n unit (.cast left .int64) (.cast right .int64))
    (.interval unit)

/-- The difference of both operands as counts. -/
def differenceRule (count : Expr → Expr) : EngineRule := giving fun emit n => do
  let left ← expr emit n "left"
  let right ← expr emit n "right"
  return .subtract (count left) (count right)

def secondsOf (e : Expr) : Expr := .cast (.cast e (.timestamp .second)) .int64

/-! ### Conversions -/

def readFormat (make : String → Function) (n : Node) : Except Error Function := do
  .ok (make (← textLiteral n "format_str"))

def truncateRule : EngineRule := giving fun emit n => do
  let unit ← n.stringField "unit"
  return (← expr emit n "arg").callOne (.truncate unit)

def fromCountRule : EngineRule := giving fun emit n => do
  let e ← expr emit n "arg"
  return .cast (.cast e .int64) (← n.outputType)

/-- The time at which the node is walked. -/
def nowRule : EngineRule := giving fun _ _ => do
  let clock ← Emission.target
  return .constant (.timestamp clock.now .nanosecond)

def timeRules : List (NodeKind × EngineRule) :=
  [(.extractTemporalField, fieldRule),
    (.dayOfWeekIndex, giving fun emit n =>
      return .cast (← extracted .weekday emit n) .int32),
    (.dayOfWeekName, weekdayNameRule), (.extractEpochSeconds, callOf .epochSeconds ["arg"]),
    (.timestampAdd, shiftTimestampRule .add), (.timestampSub, shiftTimestampRule .subtract),
    (.dateAdd, shiftDateRule .add), (.dateSub, shiftDateRule .subtract),
    (.intervalSubtract, subtractIntervalRule), (.timestampDiff, differenceRule secondsOf),
    (.dateDiff, differenceRule daysOf),
    (.date, giving fun emit n => return .cast (← expr emit n "arg") .date),
    (.strftime, callWith (readFormat .strftime) "arg"),
    (.stringToTimestamp, callWith (readFormat .strptime) "arg"),
    (.dateTruncate, truncateRule), (.timestampTruncate, truncateRule),
    (.dateFromYmd, callOf .dateFromParts ["year", "month", "day"]), (.timestampFromYmdhms,
      callOf .timestampFromParts ["year", "month", "day", "hours", "minutes", "seconds"]),
    (.timestampFromUnix, fromCountRule), (.intervalFromInteger, fromCountRule),
      (.timestampNow, nowRule)]

end TypedQuery.Engine
