import TypedQuery.Sql.Rule

/-!
# Functions of texts and times in SQL
-/

namespace TypedQuery.Sql

open Emission

/-!
## Texts

Expressions count positions from zero. Where the target counts from one, starts are shifted
up and positions found are shifted down.
-/

def shifted (text : String) (offset : Int) : String :=
  if offset = 0 then text else text ++ " + " ++ toString offset

def unshifted (text : String) (offset : Int) : String :=
  if offset = 0 then text else text ++ " - " ++ toString offset

def substringRule : SqlRule := fun emit n => do
  let offset := (← target).offset
  let arg ← field emit n "arg"
  let start ← field emit n "start"
  let length ← field? emit n "length"
  return call "substr" ([arg, shifted start offset] ++ length.toList)

/-- The start of a search. A constant is shifted at once, and zero is the same as no start.
-/
def searchStart (emit : Node → Writing String) (n : Node) (offset : Int) :
    Writing (List String) := do
  match n.optionalLiteral "sql" "start" with
  | .ok none => return []
  | .ok (some (.int64 start)) =>
    return if start = 0 then [] else [toString (start + Int64.ofInt offset).toInt]
  | _ => return [shifted (← field emit n "start") offset]

def findRule : SqlRule := fun emit n => do
  if (n.child? "end").isSome then
    throw (.inexpressible "StringFind with an end position is not supported in SQL")
  else
    let offset := (← target).offset
    let haystack ← field emit n "arg"
    let needle ← field emit n "substr"
    let start ← searchStart emit n offset
    return unshifted (call "locate" ([needle, haystack] ++ start)) offset

def constantText (n : Node) : Except Error String :=
  match n.literal? with
  | some (.string s) => .ok s
  | _ => .error (.unsupportedArgument "FindInSet" "values" "sql")

def constantTexts (nodes : List Node) : Except Error (List String) := nodes.mapM constantText

def findInSetRule : SqlRule := fun emit n => do
  let needle ← field emit n "needle"
  let nodes ← n.childList "values"
  let values ← constantTexts nodes
  let offset := (← target).offset
  return unshifted (call "find_in_set" [needle, quotedText (",".intercalate values)]) offset

def joinTextsRule : SqlRule := fun emit n => do
  let separator ← field emit n "sep"
  let texts ← sequence emit n "arg"
  return call "concat_ws" (separator :: texts)

def likeRule : SqlRule := fun emit n => do
  let arg ← field emit n "arg"
  let pattern ← field emit n "pattern"
  return arg ++ " LIKE " ++ pattern

def startsWithRule : SqlRule := fun emit n => do
  let arg ← field emit n "arg"
  let start ← field emit n "start"
  return arg ++ " like concat(" ++ start ++ ", '%')"

def endsWithRule : SqlRule := fun emit n => do
  let arg ← field emit n "arg"
  let suffix ← field emit n "end"
  return arg ++ " like concat('%', " ++ suffix ++ ")"

def containsTextRule : SqlRule := fun emit n => do
  let haystack ← field emit n "haystack"
  let needle ← field emit n "needle"
  return call "locate" [needle, haystack] ++ " > 0"

def parseUrlRule : SqlRule := fun emit n => do
  let arg ← field emit n "arg"
  let part ← n.stringField "extract"
  let key ← field? emit n "key"
  return call "parse_url" ([arg, quotedText part] ++ key.toList)

def textRules : List (NodeKind × SqlRule) :=
  [(.lowercase, callOf "lower" ["arg"]), (.uppercase, callOf "upper" ["arg"]),
    (.strip, callOf "trim" ["arg"]), (.lStrip, callOf "ltrim" ["arg"]),
    (.rStrip, callOf "rtrim" ["arg"]), (.capitalize, callOf "initcap" ["arg"]),
    (.reverse, callOf "reverse" ["arg"]), (.stringLength, callOf "length" ["arg"]),
    (.strRight, callOf "strright" ["arg", "nchars"]),
    (.stringReplace, callOf "replace" ["arg", "pattern", "replacement"]),
    (.regexReplace, callOf "regexp_replace" ["arg", "pattern", "replacement"]),
    (.regexSearch, callOf "regexp_like" ["arg", "pattern"]),
    (.regexExtract, callOf "regexp_extract" ["arg", "pattern", "index"]),
    (.stringSplit, callOf "split" ["arg", "delimiter"]),
    (.lPad, callOf "lpad" ["arg", "length", "pad"]),
    (.rPad, callOf "rpad" ["arg", "length", "pad"]),
    (.repeated, callOf "repeat" ["arg", "times"]), (.substring, substringRule),
    (.stringFind, findRule), (.findInSet, findInSetRule), (.stringJoin, joinTextsRule),
    (.stringLike, likeRule), (.startsWith, startsWithRule), (.endsWith, endsWithRule),
    (.stringContains, containsTextRule), (.parseUrl, parseUrlRule)]

/-! ## Dates and timestamps -/

/-- The name of a unit that values are cut down to. -/
def truncationUnit : String → Except Error String
  | "Y" => .ok "YEAR"
  | "Q" => .ok "QUARTER"
  | "M" => .ok "MONTH"
  | "W" => .ok "WEEK"
  | "D" => .ok "DAY"
  | "h" => .ok "HOUR"
  | "m" => .ok "MINUTE"
  | "s" => .ok "SECOND"
  | "ms" => .ok "MILLISECONDS"
  | "us" => .ok "MICROSECONDS"
  | other => .error (.inexpressible ("unsupported truncation unit " ++ Text.quote other))

def truncateRule : SqlRule := fun emit n => do
  let unit ← truncationUnit (← n.stringField "unit")
  let arg ← field emit n "arg"
  return call "date_trunc" ["'" ++ unit ++ "'", arg]

def secondsBetweenRule : SqlRule := fun emit n => do
  let left ← field emit n "left"
  let right ← field emit n "right"
  return "(unix_timestamp(" ++ left ++ ") - unix_timestamp(" ++ right ++ "))"

def fromUnixRule : SqlRule := fun emit n => do
  let arg ← field emit n "arg"
  let divided (ticks : String) := call "from_unixtime" [arg ++ " DIV " ++ ticks]
  return match ← n.stringField "unit" with
    | "s" => call "from_unixtime" [arg]
    | "ms" => divided "1000"
    | "us" => divided "1000000"
    | _ => divided "1000000000"

def intervalRule : SqlRule := fun emit n => do
  let code ← n.stringField "unit"
  match IntervalUnit.ofCode? code with
  | none => throw (.inexpressible ("unknown interval unit " ++ Text.quote code))
  | some unit => return "INTERVAL " ++ (← field emit n "arg") ++ " " ++ unit.sqlName

def extraction (name : String) : SqlRule := around ("extract(" ++ name ++ " FROM ") "arg" ")"

def timeRules : List (NodeKind × SqlRule) :=
  [(.extractYear, extraction "YEAR"), (.extractQuarter, extraction "QUARTER"),
    (.extractMonth, extraction "MONTH"), (.extractDay, extraction "DAY"),
    (.extractHour, extraction "HOUR"), (.extractMinute, extraction "MINUTE"),
    (.extractSecond, extraction "SECOND"),
    (.extractWeekOfYear, callOf "weekofyear" ["arg"]),
    (.extractDayOfYear, callOf "dayofyear" ["arg"]),
    (.extractEpochSeconds, callOf "unix_timestamp" ["arg"]),
    (.dayOfWeekName, callOf "dayname" ["arg"]), (.date, callOf "to_date" ["arg"]),
    (.extractMillisecond, around "(extract(MILLISECOND FROM " "arg" ") % 1000)"),
    (.dayOfWeekIndex, around "pmod(dayofweek(" "arg" ") - 2, 7)")]
    ++ sharing [.timestampAdd, .dateAdd] (operator "+")
    ++ sharing [.timestampSub, .dateSub, .intervalSubtract] (operator "-")
    ++ [(.timestampDiff, secondsBetweenRule),
      (.dateDiff, callOf "datediff" ["left", "right"]),
      (.strftime, callOf "date_format" ["arg", "format_str"]),
      (.stringToTimestamp, callOf "to_timestamp" ["arg", "format_str"])]
    ++ sharing [.dateTruncate, .timestampTruncate] truncateRule
    ++ [(.dateFromYmd, callOf "make_date" ["year", "month", "day"]),
      (.timestampFromYmdhms,
        callOf "make_timestamp" ["year", "month", "day", "hours", "minutes", "seconds"]),
      (.timestampFromUnix, fromUnixRule), (.timestampNow, fun _ _ => return "now()"),
      (.intervalFromInteger, intervalRule)]

end TypedQuery.Sql
