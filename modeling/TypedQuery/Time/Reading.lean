import TypedQuery.Decimal.Reader
import TypedQuery.Time.Instant
import TypedQuery.Unicode.Classes

/-!
# Reading dates and times

What columns of text are read as when they are converted. A date is `YYYY-MM-DD`,
where the month and the day may have one digit, or eight digits, or has a signed
year. An instant is a date, a separator and a time of day, which may have a fraction
and an offset from Greenwich.
-/

namespace TypedQuery.Time

open Decimal (isDigit ofDigits digitValue?)

/-- Exactly `count` digits from the front. -/
def takeDigits? (count : Nat) (cs : List Char) : Option (Nat × List Char) :=
  let digits := cs.take count
  if digits.length = count && digits.all isDigit then
    some (ofDigits digits, cs.drop count) else none

/-- Number of bytes of a text. -/
def byteLength (cs : List Char) : Nat := cs.foldl (fun length c => length + c.utf8Size) 0

/-- `YYYY-MM-DD` in front of a text. -/
def takeDate? (cs : List Char) : Option (Calendar.Date × List Char) := do
  let (year, cs) ← takeDigits? 4 cs
  let ('-' :: cs) := cs | none
  let (month, cs) ← takeDigits? 2 cs
  let ('-' :: cs) := cs | none
  let (day, cs) ← takeDigits? 2 cs
  let date ← Calendar.Date.ofParts? year month day
  some (date, cs)

/-- Digits of a fraction of a second, in nanoseconds; digits after the ninth are dropped. -/
def fractionNanos (digits : List Char) : Nat :=
  let kept := digits.take 9
  ofDigits kept * Nat.pow 10 (9 - kept.length)

/-- Second of the day and nanosecond; a sixtieth second is told by nanoseconds
past the fifty-ninth. -/
def clockOf? (hour minute second nano : Nat) : Option (Nat × Nat) :=
  let (second, nano) := if second = 60 then (59, nano + 1000000000) else (second, nano)
  if hour < 24 && minute < 60 && second < 60 then
    some (hour * 3600 + minute * 60 + second, nano) else none

/-- `HH:MM:SS` with an optional fraction, or `HHMMSS`. -/
def takeClock? (cs : List Char) : Option ((Nat × Nat) × List Char) := do
  let (hour, rest) ← takeDigits? 2 cs
  match rest with
  | ':' :: rest =>
    let (minute, rest) ← takeDigits? 2 rest
    let (':' :: rest) := rest | none
    let (second, rest) ← takeDigits? 2 rest
    match rest with
    | '.' :: rest =>
      let digits := rest.takeWhile isDigit
      if digits.isEmpty then none
      else some (← clockOf? hour minute second (fractionNanos digits),
        rest.dropWhile isDigit)
    | rest => some (← clockOf? hour minute second 0, rest)
  | rest =>
    let (minute, rest) ← takeDigits? 2 rest
    let (second, rest) ← takeDigits? 2 rest
    if (rest.take 2).any isDigit then none
    else some (← clockOf? hour minute second 0, rest)

/-- An offset from Greenwich in seconds: `+HH:MM`, `+HHMM` or `+HH`. -/
def offset? (cs : List Char) : Option Int := do
  let sign :: rest := cs | none
  let negative ← if sign = '-' then some true else if sign = '+' then some false else none
  let (hour, rest) ← takeDigits? 2 rest
  let minute ← match rest with
    | [] => some 0
    | ':' :: rest => do
      let (minute, rest) ← takeDigits? 2 rest
      if rest.isEmpty then some minute else none
    | rest => do
      let (minute, rest) ← takeDigits? 2 rest
      if rest.isEmpty then some minute else none
  let seconds := hour * 3600 + minute * 60
  if 86400 ≤ seconds then none else some (if negative then -(seconds : Int) else seconds)

/-- An instant, reckoned at Greenwich. -/
def readInstant? (text : String) : Option Instant := do
  let (date, rest) ← takeDate? text.toList
  match rest with
  | [] => some (Instant.ofDays date.toDays)
  | separator :: rest =>
    if separator = 'T' || separator = 't' || separator = ' ' then
      let ((second, nanosecond), rest) ← takeClock? rest
      let clock : Instant := ⟨date.toDays, second, nanosecond⟩
      match rest with
      | [] | ['z'] | ['Z'] => some clock
      | rest => do
        let offset ← offset? (rest.dropWhile Unicode.isBlank)
        let seconds := clock.seconds - offset
        let days := seconds / Instant.secondsPerDay
        if Calendar.daysInRange days then
          some ⟨days, (seconds % Instant.secondsPerDay).toNat, nanosecond⟩
        else none
    else none

/-- A date with a sign in front of a year of at least four digits. -/
def readSignedDate? (negative : Bool) (cs : List Char) : Option Calendar.Date := do
  let year := cs.takeWhile (· ≠ '-')
  let ('-' :: rest) := cs.dropWhile (· ≠ '-') | none
  let month := rest.takeWhile (· ≠ '-')
  let ('-' :: day) := rest.dropWhile (· ≠ '-') | none
  if byteLength year < 4 || !year.all isDigit then none
  else do
    let month ← Decimal.readInt? (String.ofList month)
    let day ← Decimal.readInt? (String.ofList day)
    let year := (ofDigits year : Int)
    Calendar.Date.ofParts? (if negative then -year else year) month day

/-- One or two digits up to a hyphen or the end. -/
def shortNumber? (cs : List Char) : Option (Nat × List Char) :=
  let digits := cs.takeWhile isDigit
  if digits.length = 1 || digits.length = 2 then
    some (ofDigits digits, cs.dropWhile isDigit) else none

/-- A date without sign, at most ten characters long. -/
def readShortDate? (cs : List Char) : Option Calendar.Date :=
  if cs.length = 8 && cs.all isDigit then
    Calendar.Date.ofParts? (ofDigits (cs.take 4)) (ofDigits ((cs.drop 4).take 2))
      (ofDigits (cs.drop 6))
  else do
    let (year, cs) ← takeDigits? 4 cs
    let ('-' :: cs) := cs | none
    let (month, cs) ← shortNumber? cs
    let ('-' :: cs) := cs | none
    let (day, cs) ← shortNumber? cs
    if cs.isEmpty then Calendar.Date.ofParts? year month day else none

def readDate? (text : String) : Option Calendar.Date :=
  match text.toList with
  | '+' :: cs => readSignedDate? false cs
  | '-' :: cs => readSignedDate? true cs
  | cs =>
    if 10 < byteLength cs then (readInstant? text).map Instant.date
    else readShortDate? cs

end TypedQuery.Time
