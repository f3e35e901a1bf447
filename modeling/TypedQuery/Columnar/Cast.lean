import TypedQuery.Binary64.Exact
import TypedQuery.Columnar.Column
import TypedQuery.Decimal.Shortest
import TypedQuery.Error
import TypedQuery.Text.Search
import TypedQuery.Time.Instant
import TypedQuery.Time.Reading

/-!
# Conversion of columns

`Column.cast` converts a column to another physical type, cell by cell. Whether there is a
conversion depends on the types alone (`Physical.casts`); where there is one, a cell that
the target type has no value for becomes null. Only days outside the calendar fail: when
they are written as text, and when they are taken from a timestamp.
-/

namespace TypedQuery

/-! ## Which types convert -/

namespace Physical

/-- Conversion between types that are not lists. -/
def castsPlain : Physical → Physical → Bool
  | null, target => decide (target ≠ null)
  | int32, target | int64, target => decide (target ≠ null)
  | float64, target => target.isNumeric || decide (target = text)
    || decide (target = boolean)
      || (target.isTemporal && decide (target ≠ date))
  | boolean, target => target.isNumeric || decide (target = text)
  | text, target => decide (target ≠ null)
  | binary, target => decide (target = text)
  | date, target =>
      decide (target = int32) || decide (target = int64) || decide (target = text)
      || (target.isTemporal && decide (target ≠ date))
  | timestamp _, target => target.isNumeric || target.isTemporal || decide (target = text)
  | list _, _ => false

def casts : Physical → Physical → Bool
  | null, list _ => true
  | list s, list t => decide (s = t) || casts s t
  | source, list t => decide (source = t) || casts source t
  | list s, target => decide (target = text) && castsToText s
  | source, target => decide (source = target) || castsPlain source target
where
  /-- Whether cells can be written as text. -/
  castsToText : Physical → Bool
    | list s => castsToText s
    | source => decide (source = text) || castsPlain source text

end Physical

namespace Cast

/-! ## Numbers -/

def intIn (fits : Int → Bool) (n : Int) : Cell := if fits n then .int n else .null

def toInt32 : Int → Cell := intIn Instant.fitsInt32

def toInt64 : Int → Cell := intIn Instant.fitsInt64

/-- Brings a number into 64 bits by dropping higher ones. -/
def wrap64 (n : Int) : Int := (Int64.ofInt n).toInt

/-- The bytes of a whole number, the lowest first. -/
def littleEndian (count : Nat) (n : Int) : List UInt8 :=
  (List.range count).map fun i => UInt8.ofNat ((n.shiftRight (8 * i)) % 256).toNat

/-! ## Text -/

def trueWords : List String := ["t", "tr", "tru", "true", "y", "ye", "yes", "on", "1"]

def falseWords : List String :=
  ["f", "fa", "fal", "fals", "false", "n", "no", "of", "off", "0"]

def readBool? (s : String) : Option Bool :=
  let word := String.ofList (Text.trim (s.toList.map Char.toLower))
  if trueWords.contains word then some true
  else if falseWords.contains word then some false
  else none

def readInt (fits : Int → Bool) (s : String) : Cell :=
  match Decimal.readInt? s with
  | some n => intIn fits n
  | none => .null

def dateText (days : Int) : Except ComputeFailure String :=
  if Calendar.daysInRange days then .ok (Time.writtenDate (Calendar.Date.ofDays days))
  else .error .cast

def timestampText (unit : TimeUnit) (ticks : Int) : Except ComputeFailure String :=
  let t := Instant.ofTicks ticks unit
  if Calendar.daysInRange t.days then .ok (Time.writtenInstant "T" t) else .error .cast

def byteText (b : UInt8) : String :=
  String.ofList [Nat.digitChar (b.toNat / 16), Nat.digitChar (b.toNat % 16)]

mutual

/-- A cell as it is written inside a list or in a column of its own; a null is written as
nothing. -/
def written : Physical → Cell → Except ComputeFailure String
  | _, .missing _ => .ok ""
  | _, .bool b => .ok (if b then "true" else "false")
  | .date, .int n => dateText n
  | .timestamp unit, .int n => timestampText unit n
  | _, .int n => .ok (toString n)
  | _, .float x => .ok (Decimal.Style.cell.render x.toFloat)
  | _, .text s => .ok s
  | _, .bytes bs => .ok (String.join (bs.map byteText))
  | .list t, .list items => do .ok ("[" ++ ", ".intercalate (← writtenItems t items) ++ "]")
  | t, .list items => do .ok ("[" ++ ", ".intercalate (← writtenItems t items) ++ "]")

def writtenItems (t : Physical) : List Cell → Except ComputeFailure (List String)
  | [] => .ok []
  | cell :: rest => do
    let here ← written t cell
    let after ← writtenItems t rest
    .ok (here :: after)

end

/-! ## Doubles -/

/-- Reads a double; a minus sign stays also where it stands before what is not a number. -/
def readFloat? (s : String) : Option Double :=
  (Decimal.readFloat? s).map fun x =>
    if x.isNaN && s.startsWith "-" then (Double.ofFloat x).negate else .ofFloat x

/-! ## Dates and timestamps -/

def ticksPerDay (unit : TimeUnit) : Int := 86400 * (Instant.nanosPerSecond / unit.nanos)

def rescale (source target : TimeUnit) (ticks : Int) : Cell :=
  if source.nanos = target.nanos then .int ticks
  else if source.nanos < target.nanos then .int (ticks.tdiv (target.nanos / source.nanos))
  else toInt64 (ticks * (source.nanos / target.nanos))

/-- Ticks of an instant; nanoseconds may not fit. -/
def ticksOf (unit : TimeUnit) (t : Instant) : Cell := toInt64 (t.exactNanos / unit.nanos)

/-- A leap second counts towards the second before it when whole seconds are asked for. -/
def readTimestamp (unit : TimeUnit) (s : String) : Cell :=
  match Time.readInstant? s with
  | none => .null
  | some t =>
    match unit with
    | .second => .int t.seconds
    | unit => ticksOf unit t

/-! ## Cells -/

/-- Converts a cell that is not null between types that are not lists. -/
def filled (source : Physical) : Physical → Cell → Except ComputeFailure Cell
  | .boolean, .int n => .ok (.bool (decide (n ≠ 0)))
  | .boolean, .float x => .ok (.bool (x.toFloat != 0.0))
  | .boolean, .text s => .ok (.ofOption .bool (readBool? s))
  | .int32, .bool b => .ok (.int b.toNat)
  | .int32, .int n => .ok (toInt32 n)
  | .int32, .float x => .ok (((Binary64.truncate? x.toFloat).map toInt32).getD .null)
  | .int32, .text s => .ok (readInt Instant.fitsInt32 s)
  | .int64, .bool b => .ok (.int b.toNat)
  | .int64, .int n => .ok (.int n)
  | .int64, .float x => .ok (((Binary64.truncate? x.toFloat).map toInt64).getD .null)
  | .int64, .text s => .ok (readInt Instant.fitsInt64 s)
  | .float64, .bool b => .ok (.float (.ofFloat (Binary64.ofInt b.toNat)))
  | .float64, .int n => .ok (.float (.ofFloat (Binary64.ofInt n)))
  | .float64, .text s => .ok (.ofOption .float (readFloat? s))
  | .text, .bytes bs => .ok (.ofOption .text (String.fromUTF8? ⟨bs.toArray⟩))
  | .text, cell => (written source cell).map .text
  | .binary, .text s => .ok (.bytes s.toUTF8.toList)
  | .binary, .int n => .ok (.bytes (littleEndian (if source = .int32 then 4 else 8) n))
  | .date, .int n =>
    match source with
    | .timestamp unit =>
      let days := n / ticksPerDay unit
      if Calendar.daysInRange days then .ok (.int days) else .error .cast
    | _ => .ok (toInt32 n)
  | .date, .text s => .ok (.ofOption (fun d => .int d.toDays) (Time.readDate? s))
  | .timestamp unit, .int n =>
    match source with
    | .timestamp other => .ok (rescale other unit n)
    | .date => .ok (.int (wrap64 (n * ticksPerDay unit)))
    | _ => .ok (.int n)
  | .timestamp _, .float x => .ok (((Binary64.truncate? x.toFloat).map toInt64).getD .null)
  | .timestamp unit, .text s => .ok (readTimestamp unit s)
  | _, cell => .ok cell

/-- What is left of a residue. Conversions that only tell what a count stands for leave it,
those to a coarser unit work on it as well, and all others clear the slot. -/
def residue : Physical → Physical → Residue → Residue
  | .int32, .date, r | .date, .int32, r | .timestamp _, .int64, r
  | .int64, .timestamp _, r => r
  | .timestamp source, .timestamp target, .int n =>
    if source.nanos ≤ target.nanos then
      .int (n.tdiv (target.nanos / source.nanos)) else .blank
  | .date, .timestamp unit, .int n => .int (wrap64 (n * ticksPerDay unit))
  | source, target, r => if source = target then r else .blank

/-- Converts a cell. A value becomes a list of itself where a list is wanted. -/
def cell : Physical → Physical → Cell → Except ComputeFailure Cell
  | .null, .list _, _ => .ok .null
  | .list s, .list t, c =>
    match c with
    | .list items => do .ok (.list (← items.mapM fun item => cell s t item))
    | c => .ok c
  | source, .list t, c => do .ok (.list [← cell source t c])
  | source, target, .missing r => .ok (.missing (residue source target r))
  | source, target, c => if source = target then .ok c else filled source target c

end Cast

namespace Column

def castCells (source target : Physical) : List Cell → Except ComputeFailure (List Cell)
  | [] => .ok []
  | c :: rest => do
    let here ← Cast.cell source target c
    let after ← castCells source target rest
    .ok (here :: after)

/-- The column in another type. -/
def cast (c : Column) (target : Physical) : Except Error Column :=
  if c.type = target then .ok c
  else if c.type.casts target then
    match castCells c.type target c.cells with
    | .ok cells => .ok ⟨target, cells⟩
    | .error failure => .error (.compute failure)
  else .error (.compute .cast)

end Column

end TypedQuery
