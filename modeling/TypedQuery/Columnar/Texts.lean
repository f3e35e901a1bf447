import TypedQuery.Columnar.Combine
import TypedQuery.Regex.Basic
import TypedQuery.Text.Case
import TypedQuery.Text.Quoted
import TypedQuery.Text.Search

/-!
# Texts in columns

Text functions take any column that can be written as text. A null stays null.
-/

namespace TypedQuery.Column

/-- Applies a function to every text; it may find nothing, which is null. -/
def mapTexts (type : Physical) (f : List Char → Option Cell) (c : Column) :
    Except Error Column := do
  .ok ⟨type, (← c.toTexts).map fun s => (s.bind fun s => f s.toList).getD .null⟩

def editTexts (f : List Char → List Char) (c : Column) : Except Error Column :=
  c.mapTexts .text fun s => some (.text (String.ofList (f s)))

def testTexts (f : List Char → Bool) (c : Column) : Except Error Column :=
  c.mapTexts .boolean fun s => some (.bool (f s))

def countTexts (f : List Char → Int) (c : Column) : Except Error Column :=
  c.mapTexts .int64 fun s => some (.int (f s))

/-- Lengths have 32 bits; a longer text has none. -/
def textLength (c : Column) : Except Error Column :=
  c.mapTexts .int32 fun s => if Instant.fitsInt32 s.length then
    some (.int s.length) else none

def findInSet (values : List String) (c : Column) : Except Error Column :=
  c.countTexts fun s => ((values.findIdx? (· = String.ofList s)).map Int.ofNat).getD (-1)

/-! ## Regular expressions -/

def regex (pattern : String) : Except Error Regex :=
  match Regex.compile? pattern with
  | some r => .ok r
  | none => .error (.value ("invalid regex " ++ Text.quote pattern))

def regexMatch (pattern : String) (c : Column) : Except Error Column := do
  let r ← regex pattern
  c.testTexts r.isMatch

/-- What a group matched first, and null if there is no such group or it took no part. -/
def regexExtract (pattern : String) (group : Nat) (c : Column) : Except Error Column := do
  let r ← regex pattern
  c.mapTexts .text fun s =>
    ((r.firstMatch? s).bind fun slots => slots.text? s group).map fun found =>
      .text (String.ofList found)

def regexReplace (pattern replacement : String) (c : Column) : Except Error Column := do
  let r ← regex pattern
  c.editTexts (r.replaceAll replacement.toList)

/-! ## Lists of texts -/

def splitTexts (separator : String) (c : Column) : Except Error Column :=
  c.mapTexts (.list .text) fun s =>
    some (.list ((Text.split separator.toList s).map fun part => .text (String.ofList part)))

/-! ## Repetition -/

/-- The text over and over; its length in bytes must be a 64-bit number. -/
def repeatText (times : Nat) (s : String) : Except Error String :=
  if UInt64.size ≤ s.utf8ByteSize * times then
    .error (.execution
      ("repeating " ++ toString s.utf8ByteSize ++ " bytes " ++ toString times
      ++ " times overflows"))
  else .ok (if s.isEmpty then "" else String.join (List.replicate times s))

def repeatTexts (times : Nat) : List (Option String) → Except Error (List (Option String))
  | [] => .ok []
  | none :: rest => do .ok (none :: (← repeatTexts times rest))
  | some s :: rest => do
    let here ← repeatText times s
    .ok (some here :: (← repeatTexts times rest))

def repeated (times : Nat) (c : Column) : Except Error Column := do
  .ok (.texts (← repeatTexts times (← c.toTexts)))

/-! ## Several columns -/

def allTexts : List Column → Except Error (List (List (Option String)))
  | [] => .ok []
  | c :: rest => do
    let here ← c.toTexts
    .ok (here :: (← allTexts rest))

/-- The rows of columns of equal length. -/
def rowsOf : List (List α) → List (List α)
  | [] => []
  | [column] => column.map ([·])
  | column :: rest => List.zipWith (· :: ·) column (rowsOf rest)

/-- The texts of a row with a separator between them, and null if one of them is. -/
def joinRow (separator : String) (row : List (Option String)) : Option String :=
  (row.mapM id).map separator.intercalate

def concatTexts (separator : String) (columns : List Column) : Except Error Column := do
  .ok (.texts ((rowsOf (← allTexts columns)).map (joinRow separator)))

end TypedQuery.Column
