import TypedQuery.Binary64.Double
import TypedQuery.DataType.Basic

/-!
# Columns

How values are stored: physical types, the cells of a type, and columns of cells.
-/

namespace TypedQuery

/-!
## Physical types

How columns are stored. An interval is stored as a plain count, so two logical types may
share a physical one. There is no type of durations: only the difference of two dates or of
two timestamps has it, which no node takes (see `Column.arithmetic`). `Physical.describe`
is the form in messages.
-/

inductive Physical where
  | null
  | boolean
  | int32
  | int64
  | float64
  | text
  | binary
  | date
  | timestamp (unit : TimeUnit)
  | list (element : Physical)
  deriving DecidableEq

namespace Physical

def ofLogical : DataType → Physical
  | .null => null
  | .boolean => boolean
  | .int32 => int32
  | .int64 | .interval _ => int64
  | .float64 => float64
  | .string => text
  | .binary => binary
  | .date => date
  | .timestamp unit => timestamp unit
  | .array element => list (ofLogical element)

def describe : Physical → String
  | null => "Null"
  | boolean => "Boolean"
  | int32 => "Int32"
  | int64 => "Int64"
  | float64 => "Float64"
  | text => "Utf8"
  | binary => "Binary"
  | date => "Date32"
  | timestamp unit => "Timestamp(" ++ unit.name ++ ", None)"
  | list element =>
    "List(Field \x7b name: \"item\", data_type: " ++ element.describe
      ++ ", nullable: true, dict_id: 0, dict_is_ordered: false, metadata: \x7b\x7d \x7d)"

def isInteger : Physical → Bool
  | int32 | int64 => true
  | _ => false

def isNumeric : Physical → Bool
  | int32 | int64 | float64 => true
  | _ => false

def isTemporal : Physical → Bool
  | date | timestamp _ => true
  | _ => false

/-- Whether the values have a fixed width of whole bytes. -/
def isPrimitive (t : Physical) : Bool := t.isNumeric || t.isTemporal

def isList : Physical → Bool
  | list _ => true
  | _ => false

end Physical

/-!
## Columns

A column is a list of cells of one physical type. The cells of integer, date and
timestamp columns are whole numbers within the range of the type; what they stand for
is told by the type alone. A cell of any type may be missing, that is, null, and all
cells of the type `null` are.

The slot of a missing cell still holds a content, its residue. It is what the computation
of the cell left there, and no part of the data: nothing shows it, and cells that are
compared as data are made `bare` first. It matters in one place: a missing condition whose
residue is true chooses as a condition that holds does.

The slot of a missing text, of missing bytes or of a missing list is taken to be
empty, as it is in a column that is built row by row. Columns that come with
contents there are left out.
-/

/-- What is left in the slot of a missing cell. In a column of texts, bytes or
lists that is nothing. -/
inductive Residue where
  /-- False, zero or nothing, by the type of the column. -/
  | blank
  | bool (b : Bool)
  | int (n : Int)
  | float (x : Double)
  deriving DecidableEq

inductive Cell where
  | missing (residue : Residue)
  | bool (b : Bool)
  | int (n : Int)
  | float (x : Double)
  | text (s : String)
  | bytes (bs : List UInt8)
  | list (items : List Cell)

namespace Cell

/-- A missing cell in a blank slot. -/
def null : Cell := missing .blank

/-! ### Equality -/

mutual

def beq : Cell → Cell → Bool
  | missing a, missing b => decide (a = b)
  | bool a, bool b => a == b
  | int a, int b => a == b
  | float a, float b => decide (a = b)
  | text a, text b => a == b
  | bytes a, bytes b => a == b
  | list a, list b => beqList a b
  | _, _ => false

def beqList : List Cell → List Cell → Bool
  | [], [] => true
  | a :: as, b :: bs => beq a b && beqList as bs
  | _, _ => false

end

mutual

theorem eq_of_beq : ∀ {a b : Cell}, beq a b = true → a = b
  | missing _, b, h | bool _, b, h | int _, b, h | float _, b, h | text _, b, h
  | bytes _, b, h => by
    cases b <;> simp_all [beq]
  | list as, b, h => by
    cases b <;> simp only [beq, Bool.false_eq_true] at h
    rw [eq_of_beqList h]

theorem eq_of_beqList : ∀ {as bs : List Cell}, beqList as bs = true → as = bs
  | [], [], _ => rfl
  | [], _ :: _, h => by simp [beqList] at h
  | _ :: _, [], h => by simp [beqList] at h
  | a :: as, b :: bs, h => by
    simp only [beqList, Bool.and_eq_true] at h
    rw [eq_of_beq h.1, eq_of_beqList h.2]

end

mutual

theorem beq_self : ∀ a : Cell, beq a a = true
  | missing _ | bool _ | int _ | float _ | text _ | bytes _ => by simp [beq]
  | list as => by simpa only [beq] using beqList_self as

theorem beqList_self : ∀ as : List Cell, beqList as as = true
  | [] => rfl
  | a :: as => by simp only [beqList, beq_self a, beqList_self as, Bool.and_self]

end

instance : DecidableEq Cell :=
  fun _ _ => decidable_of_iff _ ⟨eq_of_beq, fun h => h ▸ beq_self _⟩

/-! ### Views -/

def isNull : Cell → Bool
  | missing _ => true
  | _ => false

def bool? : Cell → Option Bool
  | bool b => some b
  | _ => none

def int? : Cell → Option Int
  | int n => some n
  | _ => none

def float? : Cell → Option Double
  | float x => some x
  | _ => none

def text? : Cell → Option String
  | text s => some s
  | _ => none

def bytes? : Cell → Option (List UInt8)
  | bytes bs => some bs
  | _ => none

def list? : Cell → Option (List Cell)
  | list items => some items
  | _ => none

/-- Null for nothing. -/
def ofOption (make : α → Cell) : Option α → Cell
  | some a => make a
  | none => null

/-- A condition that holds. -/
def isTrue : Cell → Bool
  | bool b => b
  | _ => false

/-! ### Residues -/

def boolContent : Cell → Bool
  | bool b | missing (.bool b) => b
  | _ => false

def intContent : Cell → Int
  | int n | missing (.int n) => n
  | _ => 0

def floatContent : Cell → Double
  | float x | missing (.float x) => x
  | _ => .zero

mutual

/-- The cell without residues. -/
def bare : Cell → Cell
  | missing _ => null
  | list items => list (bareList items)
  | c => c

def bareList : List Cell → List Cell
  | [] => []
  | c :: rest => bare c :: bareList rest

end

/-! ### Order -/

mutual

/-- The order of cells of one type: false before true, numbers by size with floats in total
order, texts and bytes letter by letter, lists element by element. A missing cell comes
before everything or after everything. -/
def order (nullsFirst : Bool) : Cell → Cell → Ordering
  | missing _, missing _ => .eq
  | missing _, _ => if nullsFirst then .lt else .gt
  | _, missing _ => if nullsFirst then .gt else .lt
  | bool a, bool b => compare a.toNat b.toNat
  | int a, int b => compare a b
  | float a, float b => a.order b
  | text a, text b => compare a b
  | bytes a, bytes b => compare (a.map UInt8.toNat) (b.map UInt8.toNat)
  | list a, list b => orderList nullsFirst a b
  | _, _ => .eq

def orderList (nullsFirst : Bool) : List Cell → List Cell → Ordering
  | [], [] => .eq
  | [], _ :: _ => .lt
  | _ :: _, [] => .gt
  | a :: as, b :: bs =>
    match order nullsFirst a b with
    | .eq => orderList nullsFirst as bs
    | o => o

end

end Cell

structure Column where
  type : Physical
  cells : List Cell
  deriving DecidableEq

namespace Column

def length (c : Column) : Nat := c.cells.length

def nulls (type : Physical) (rows : Nat) : Column := ⟨type, List.replicate rows .null⟩

/-- The same cell in every row. -/
def constant (type : Physical) (cell : Cell) (rows : Nat) : Column :=
  ⟨type, List.replicate rows cell⟩

def bools (bs : List (Option Bool)) : Column := ⟨.boolean, bs.map (Cell.ofOption .bool)⟩

def ints (ns : List (Option Int)) : Column := ⟨.int64, ns.map (Cell.ofOption .int)⟩

def floats (xs : List (Option Double)) : Column := ⟨.float64, xs.map (Cell.ofOption .float)⟩

def texts (ss : List (Option String)) : Column := ⟨.text, ss.map (Cell.ofOption .text)⟩

/-- Whether rows have a place for null at all: a column of the type `null` counts as filled
where rows are counted or kept, although every cell of it is null. -/
def marksNulls (c : Column) : Bool := decide (c.type ≠ .null)

/-- The rows that are filled, in the sense of `marksNulls`. -/
def filled (c : Column) : List Bool := c.cells.map fun cell => !(c.marksNulls && cell.isNull)

/-- What stands where there is no row: a missing cell, which has the first
row's number left in it. -/
def vacancy (c : Column) : Cell :=
  match c.cells.head? with
  | none => .null
  | some first =>
    if c.type = .float64 then .missing (.float first.floatContent)
    else if c.type.isPrimitive then .missing (.int first.intContent)
    else .null

/-- The cells at the given rows. -/
def gather (c : Column) (rows : List (Option Nat)) : Column :=
  ⟨c.type, rows.map fun row => (row.bind fun i => c.cells[i]?).getD c.vacancy⟩

/-- The cells of the rows where the mask holds. -/
def keep (mask : List Bool) (c : Column) : Column :=
  ⟨c.type, ((c.cells.zip mask).filter (·.2)).map (·.1)⟩

end Column

/-- Columns of equal length, by name. -/
structure Batch where
  rows : Nat
  columns : List (String × Column)
  deriving DecidableEq

namespace Batch

def names (b : Batch) : List String := b.columns.map (·.1)

/-- The first column of a name. -/
def column? (b : Batch) (name : String) : Option Column :=
  (b.columns.find? (·.1 == name)).map (·.2)

def gather (b : Batch) (rows : List (Option Nat)) : Batch :=
  ⟨rows.length, b.columns.map fun (name, c) => (name, c.gather rows)⟩

def keep (mask : List Bool) (b : Batch) : Batch :=
  ⟨(mask.filter id).length, b.columns.map fun (name, c) => (name, c.keep mask)⟩

end Batch

end TypedQuery
