import TypedQuery.Time.Instant
import TypedQuery.Unicode.Classes

/-!
# Date patterns

A pattern is text with fields, each a percent sign and a letter. `Pattern.read?`
refuses a percent sign that starts no field. Between the two may stand a padding,
which fits numbers only.
-/

namespace TypedQuery.Time

/-- The parts of a date and a time of day that are numbers. -/
inductive Part where
  | year
  | century
  | yearOfCentury
  | isoYear
  | isoYearOfCentury
  | quarter
  | month
  | day
  | weekFromSunday
  | weekFromMonday
  | isoWeek
  /-- Days since Sunday. -/
  | daysFromSunday
  /-- Counted from Monday as one. -/
  | weekdayNumber
  | ordinal
  | hour
  | hour12
  | minute
  | second
  | nanosecond
  /-- Seconds since the epoch. -/
  | timestamp
  deriving DecidableEq

inductive Padding where
  | none
  | zero
  | blank
  deriving DecidableEq

inductive PatternItem where
  | literal (text : List Char)
  /-- Any blanks where a text is read. -/
  | blanks (text : List Char)
  | number (part : Part) (padding : Padding)
  | monthName (long : Bool)
  | weekdayName (long : Bool)
  | meridiem (capital : Bool)
  /-- The fraction of the second, with as many digits as it needs. -/
  | fraction
  /-- The fraction with a number of digits, and with or without a point. -/
  | digits (count : Nat) (point : Bool)
  | zoneName
  | offset
  /-- An offset that may be written `Z` and may lack minutes. -/
  | looseOffset
  /-- Date, time and offset in one. -/
  | whole
  deriving DecidableEq

abbrev Pattern := List PatternItem

namespace Pattern

def text (s : String) : PatternItem := .literal s.toList

def two (part : Part) : PatternItem := .number part .zero

def clock : Pattern := [two .hour, text ":", two .minute, text ":", two .second]

/-- The items that a letter after a percent sign stands for. -/
def lettered? : Char → Option Pattern
  | 'A' => some [.weekdayName true]
  | 'B' => some [.monthName true]
  | 'C' => some [two .century]
  | 'D' | 'x' => some [two .month, text "/", two .day, text "/", two .yearOfCentury]
  | 'F' => some [two .year, text "-", two .month, text "-", two .day]
  | 'G' => some [two .isoYear]
  | 'H' => some [two .hour]
  | 'I' => some [two .hour12]
  | 'M' => some [two .minute]
  | 'P' => some [.meridiem false]
  | 'R' => some [two .hour, text ":", two .minute]
  | 'S' => some [two .second]
  | 'T' | 'X' => some clock
  | 'U' => some [two .weekFromSunday]
  | 'V' => some [two .isoWeek]
  | 'W' => some [two .weekFromMonday]
  | 'Y' => some [two .year]
  | 'Z' => some [.zoneName]
  | 'a' => some [.weekdayName false]
  | 'b' | 'h' => some [.monthName false]
  | 'c' => some
      ([.weekdayName false, .blanks [' '], .monthName false, .blanks [' '],
        .number .day .blank,
      .blanks [' ']] ++ clock ++ [.blanks [' '], two .year])
  | 'd' => some [two .day]
  | 'e' => some [.number .day .blank]
  | 'f' => some [two .nanosecond]
  | 'g' => some [two .isoYearOfCentury]
  | 'j' => some [two .ordinal]
  | 'k' => some [.number .hour .blank]
  | 'l' => some [.number .hour12 .blank]
  | 'm' => some [two .month]
  | 'n' => some [.blanks ['\n']]
  | 'p' => some [.meridiem true]
  | 'q' => some [.number .quarter .none]
  | 'r' => some [two .hour12, text ":", two .minute, text ":", two .second,
    .blanks [' '], .meridiem true]
  | 's' => some [.number .timestamp .none]
  | 't' => some [.blanks ['\t']]
  | 'u' => some [.number .weekdayNumber .none]
  | 'v' => some [.number .day .blank, text "-", .monthName false, text "-", two .year]
  | 'w' => some [.number .daysFromSunday .none]
  | 'y' => some [two .yearOfCentury]
  | 'z' => some [.offset]
  | '+' => some [.whole]
  | '%' => some [text "%"]
  | _ => none

/-- The field that follows a percent sign, and what follows the field. -/
def field? : List Char → Option (Pattern × List Char)
  | ':' :: ':' :: ':' :: 'z' :: rest | ':' :: ':' :: 'z' :: rest | ':' :: 'z' :: rest =>
    some ([.offset], rest)
  | '.' :: 'f' :: rest => some ([.fraction], rest)
  | '.' :: '3' :: 'f' :: rest => some ([.digits 3 true], rest)
  | '.' :: '6' :: 'f' :: rest => some ([.digits 6 true], rest)
  | '.' :: '9' :: 'f' :: rest => some ([.digits 9 true], rest)
  | '3' :: 'f' :: rest => some ([.digits 3 false], rest)
  | '6' :: 'f' :: rest => some ([.digits 6 false], rest)
  | '9' :: 'f' :: rest => some ([.digits 9 false], rest)
  | '#' :: 'z' :: rest => some ([.looseOffset], rest)
  | c :: rest => (lettered? c).map fun items => (items, rest)
  | [] => none

def repad (padding : Padding) : Pattern → Option Pattern
  | [.number part _] => some [.number part padding]
  | _ => none

/-- A field with the padding in front of it. -/
def paddedField? : List Char → Option (Pattern × List Char)
  | '-' :: rest => do
    let (items, rest) ← field? rest
    some (← repad .none items, rest)
  | '0' :: rest => do
    let (items, rest) ← field? rest
    some (← repad .zero items, rest)
  | '_' :: rest => do
    let (items, rest) ← field? rest
    some (← repad .blank items, rest)
  | cs => field? cs

/-- Reads items; each takes at least one character. -/
def readFrom? : Nat → List Char → Option Pattern
  | _, [] => some []
  | 0, _ => none
  | fuel + 1, '%' :: rest => do
    let (items, rest) ← paddedField? rest
    some (items ++ (← readFrom? fuel rest))
  | fuel + 1, c :: rest =>
    if Unicode.isBlank c then do
      let cs := c :: rest
      some (.blanks (cs.takeWhile Unicode.isBlank)
        :: (← readFrom? fuel (cs.dropWhile Unicode.isBlank)))
    else do
      let isPlain (c : Char) : Bool := c ≠ '%' && !Unicode.isBlank c
      let cs := c :: rest
      some (.literal (cs.takeWhile isPlain) :: (← readFrom? fuel (cs.dropWhile isPlain)))

def read? (s : String) : Option Pattern := readFrom? s.length s.toList

end Pattern

/-! ## Names -/

def monthNames : List String :=
  ["January", "February", "March", "April", "May", "June", "July", "August", "September",
    "October", "November", "December"]

/-- From Monday on. -/
def weekdayNames : List String :=
  ["Monday", "Tuesday", "Wednesday", "Thursday", "Friday", "Saturday", "Sunday"]

/-!
## Instants in the form of a pattern

An instant has no time zone, so a pattern that asks for one cannot be printed at all.
-/

/-- How many weeks that start on a given weekday have begun in the year of a day. -/
def weeksFrom (start : Nat) (days : Int) : Nat :=
  let sinceStart := (Calendar.weekday days + 7 - start) % 7
  ((Calendar.Date.ofDays days).ordinal + 6 - sinceStart) / 7

def quarter (month : Nat) : Nat := (month - 1) / 3 + 1

/-- The hour on a clock face. -/
def hour12 (t : Instant) : Nat := if t.hour % 12 = 0 then 12 else t.hour % 12

def Part.value (t : Instant) : Part → Int
  | year => t.date.year
  | century => t.date.year / 100
  | yearOfCentury => t.date.year % 100
  | isoYear => (Calendar.isoWeek t.days).1
  | isoYearOfCentury => (Calendar.isoWeek t.days).1 % 100
  | quarter => Time.quarter t.date.month
  | month => t.date.month
  | day => t.date.day
  | weekFromSunday => weeksFrom 6 t.days
  | weekFromMonday => weeksFrom 0 t.days
  | isoWeek => (Calendar.isoWeek t.days).2
  | daysFromSunday => (Calendar.weekday t.days + 1) % 7
  | weekdayNumber => Calendar.weekday t.days + 1
  | ordinal => t.date.ordinal
  | hour => t.hour
  | hour12 => Time.hour12 t
  | minute => t.minute
  | second => t.secondOfMinute
  | nanosecond => t.nanosecond
  | timestamp => t.seconds

def padding (p : Padding) (count : Nat) : List Char :=
  match p with
  | .none => []
  | .zero => List.replicate count '0'
  | .blank => List.replicate count ' '

/-- A number at least `width` characters wide. Zeros go between the sign and the digits,
blanks before the sign. -/
def paddedNumber (p : Padding) (width : Nat) (signed : Bool) (n : Int) : List Char :=
  let digits := Nat.toDigits 10 n.natAbs
  let sign := if n < 0 then ['-'] else if signed then ['+'] else []
  let missing := width - sign.length - digits.length
  if p = .blank then padding p missing ++ sign ++ digits
    else sign ++ padding p missing ++ digits

/-- A byte as a tens digit and a ones digit. Above 99 the tens go on with the
characters after nine. -/
def twoDigits (p : Padding) (n : Int) : List Char :=
  let byte := (n % 256).toNat
  let ones := Char.ofNat ('0'.toNat + byte % 10)
  if byte < 10 then padding p 1 ++ [ones] else [Char.ofNat ('0'.toNat + byte / 10), ones]

/-- A year has four digits, and a sign when they do not suffice. -/
def yearText (p : Padding) (year : Int) : List Char :=
  if 0 ≤ year ∧ year < 10000 then paddedNumber p 4 false year else paddedNumber p 5 true year

def numberText (t : Instant) (part : Part) (p : Padding) : List Char :=
  let n := part.value t
  match part with
  | .year | .isoYear => yearText p n
  | .quarter | .daysFromSunday | .weekdayNumber => paddedNumber .none 1 false n
  | .ordinal => paddedNumber p 3 false n
  | .nanosecond | .timestamp => paddedNumber p 9 false n
  | _ => twoDigits p n

def short (name : String) : List Char := name.toList.take 3

def named (names : List String) (i : Nat) (long : Bool) : List Char :=
  let name := names.getD i ""
  if long then name.toList else short name

/-- Nothing for an item that needs a time zone. -/
def itemText? (t : Instant) : PatternItem → Option (List Char)
  | .literal cs | .blanks cs => some cs
  | .number part p => some (numberText t part p)
  | .monthName long => some (named monthNames (t.date.month - 1) long)
  | .weekdayName long => some (named weekdayNames (Calendar.weekday t.days) long)
  | .meridiem capital =>
    let half := if 12 ≤ t.hour then "PM" else "AM"
    some ((if capital then half else half.toLower).toList)
  | .fraction => some (writtenFraction t.nanosecond).toList
  | .digits count point =>
    some ((if point then ['.'] else []) ++ (padded 9 t.nanosecond).toList.take count)
  | .zoneName | .offset | .looseOffset | .whole => none

def Pattern.print? (t : Instant) (pattern : Pattern) : Option String :=
  (pattern.mapM (itemText? t)).map fun parts => String.ofList parts.flatten

end TypedQuery.Time
