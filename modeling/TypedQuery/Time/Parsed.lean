import TypedQuery.Decimal.Reader
import TypedQuery.Time.Fields

/-!
# Reading instants by a pattern

The items of a pattern are read one after the other and must use up the whole text. Blanks
may precede a number, and letters of either case are the same in names.
-/

namespace TypedQuery.Time

open Decimal (isDigit ofDigits)

/-- A text that is being read, and the fields read from it. -/
abbrev Scan := List Char × Fields

namespace Scan

def trimmed (cs : List Char) : List Char := cs.dropWhile Unicode.isBlank

/-- At least one digit and at most `width`; the number must fit 64 bits. -/
def number? (width : Option Nat) (cs : List Char) : Option (Int × List Char) :=
  let digits := (match width with
    | some n => cs.take n
    | none => cs).takeWhile isDigit
  if digits.isEmpty || !Instant.fitsInt64 (ofDigits digits) then none
  else some (ofDigits digits, cs.drop digits.length)

/-- How many digits a part may have; nothing is said for a count of seconds. -/
def width? : Part → Option Nat
  | .year | .isoYear => some 4
  | .quarter | .daysFromSunday | .weekdayNumber => some 1
  | .ordinal => some 3
  | .nanosecond => some 9
  | .timestamp => none
  | _ => some 2

/-- A year may have a sign, and then any number of digits. -/
def numberOf? (part : Part) (cs : List Char) : Option (Int × List Char) :=
  let signed : Bool := part = .year || part = .isoYear
  match signed, cs with
  | true, '-' :: rest => (number? none rest).map fun (n, rest) => (-n, rest)
  | true, '+' :: rest => number? none rest
  | _, cs => number? (width? part) cs

def startsWith (word cs : List Char) : Bool :=
  word.map Char.toLower = (cs.take word.length).map Char.toLower

/-- The place of a name in a list, by its first three letters. A long name is read to
its end if it is there. -/
def name? (names : List String) (long : Bool) (cs : List Char) : Option (Nat × List Char) :=
  (names.findIdx? fun name => startsWith (short name) cs).map fun i =>
    let name := (names.getD i "").toList
    (i, cs.drop (if long && startsWith name cs then name.length else 3))

/-- A fraction of a second; digits after the ninth are passed over. -/
def fraction? (cs : List Char) : Option (Int × List Char) := do
  let (n, rest) ← number? (some 9) cs
  some (n * Nat.pow 10 (9 - (cs.length - rest.length)), rest.dropWhile isDigit)

/-- A fraction with exactly as many digits. -/
def digits? (count : Nat) (cs : List Char) : Option (Int × List Char) :=
  let digits := cs.take count
  if digits.length = count && digits.all isDigit then
    some (ofDigits digits * Nat.pow 10 (9 - count), cs.drop count)
  else none

/-- An offset from Greenwich, in seconds. -/
def offset? (letter shortForm : Bool) (cs : List Char) : Option (Int × List Char) :=
  match letter, cs with
  | true, 'Z' :: rest | true, 'z' :: rest => some (0, rest)
  | _, sign :: h :: h' :: rest => do
    let negative ← if sign = '+' then some false else if sign = '-' || sign = '−' then
      some true else none
    if !isDigit h || !isDigit h' then none
    let hours := ofDigits [h, h']
    let rest := rest.dropWhile fun c => c = ':' || Unicode.isBlank c
    let signed (n : Nat) : Int := if negative then -(n : Int) else n
    match rest with
    | m :: m' :: rest =>
      if isDigit m && isDigit m' && ofDigits [m] < 6 then
        some (signed (hours * 3600 + ofDigits [m, m'] * 60), rest)
      else none
    | [] => if shortForm then some (signed (hours * 3600), []) else none
    | [_] => none
  | _, _ => none

def record? (part : Part) : Scan → Option Scan
  | (cs, fields) => do
    let (n, rest) ← numberOf? part (trimmed cs)
    some (rest, ← fields.record? part n)

def literal? (text : List Char) : Scan → Option Scan
  | (cs, fields) => if text.isPrefixOf cs then some (cs.drop text.length, fields) else none

/-- A fraction after a point, if there is a point. -/
def pointed? (read? : List Char → Option (Int × List Char)) : Scan → Option Scan
  | ('.' :: rest, fields) => do
    let (n, rest) ← read? rest
    some (rest, ← fields.record? .nanosecond n)
  | scan => some scan

/-- `YYYY-MM-DDTHH:MM:SS` with an optional fraction and an offset. -/
def whole? (scan : Scan) : Option Scan := do
  let scan ← record? .year scan
  let scan ← record? .month (← literal? ['-'] scan)
  let (cs, fields) ← record? .day (← literal? ['-'] scan)
  let separator :: cs := cs | none
  if !(['t', 'T', ' '].contains separator) then none
  let scan ← record? .hour (cs, fields)
  let scan ← record? .minute (← literal? [':'] scan)
  let scan ← record? .second (← literal? [':'] scan)
  let (cs, fields) ← pointed? fraction? scan
  let cs := trimmed cs
  let (offset, rest) ← if startsWith ['u', 't', 'c'] cs then some (0, cs.drop 3)
    else offset? true false cs
  some (rest, ← fields.set? .offset offset)

def item? (item : PatternItem) (scan : Scan) : Option Scan :=
  let (cs, fields) := scan
  match item with
  | .literal text => literal? text scan
  | .blanks _ => some (trimmed cs, fields)
  | .number part _ => record? part scan
  | .monthName long => do
    let (i, rest) ← name? monthNames long cs
    some (rest, ← fields.set? .month (i + 1))
  | .weekdayName long => do
    let (i, rest) ← name? weekdayNames long cs
    some (rest, ← fields.set? .weekday i)
  | .meridiem _ =>
    if startsWith ['a', 'm'] cs then (fields.set? .half 0).map (cs.drop 2, ·)
    else if startsWith ['p', 'm'] cs then (fields.set? .half 1).map (cs.drop 2, ·)
    else none
  | .fraction => pointed? fraction? scan
  | .digits count true => pointed? (digits? count) scan
  | .digits count false => do
    let (n, rest) ← digits? count cs
    some (rest, ← fields.record? .nanosecond n)
  | .zoneName => some (cs.dropWhile (!Unicode.isBlank ·), fields)
  | .offset => do
    let (n, rest) ← offset? false false (trimmed cs)
    some (rest, ← fields.set? .offset n)
  | .looseOffset => do
    let (n, rest) ← offset? true true (trimmed cs)
    some (rest, ← fields.set? .offset n)
  | .whole => whole? scan

end Scan

/-- The fields of a text that has the form of a pattern. -/
def Pattern.fields? (pattern : Pattern) (text : String) : Option Fields :=
  match pattern.foldlM (fun scan item => Scan.item? item scan) (text.toList, []) with
  | some ([], fields) => some fields
  | _ => none

/-- The instant that a text in the form of a pattern tells; a day alone means its start. -/
def Pattern.parse? (pattern : Pattern) (text : String) : Option Instant := do
  let fields ← pattern.fields? text
  fields.instant? <|> fields.midnight?

end TypedQuery.Time
