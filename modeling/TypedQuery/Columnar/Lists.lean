import TypedQuery.Columnar.Combine

/-!
# Columns of lists

A list is null or holds elements, which may be null themselves. The elements of all lists
of a column lie in one row, one list after the other, and offsets tell where each list ends
and the next one begins. A stretch of a column shares the elements with the whole, so its
first list need not begin at the first element; and there may be elements beneath a null,
which belong to no list. `Lists.row?` is what such a column holds in a row.

The functions on lists work on this form. They give new elements and new offsets,
which have to fit together.
-/

namespace TypedQuery

/-! ## Offsets -/

/-- Where lists that follow each other begin, and at the end where the last of them ends.
Stored offsets have 32 bits, and a column with more elements than they count is refused;
that limit is left out here. -/
structure Offsets where
  values : List Nat
  ordered : values.Pairwise (· ≤ ·)

namespace Offsets

/-- The offsets from a start on, by the lengths of the lists. -/
def valuesFrom (start : Nat) : List Nat → List Nat
  | [] => [start]
  | length :: rest => start :: valuesFrom (start + length) rest

theorem le_of_mem_valuesFrom {start offset : Nat} {lengths : List Nat}
    (h : offset ∈ valuesFrom start lengths) :
    start ≤ offset := by
  induction lengths generalizing start with
  | nil => exact Nat.le_of_eq (List.mem_singleton.1 h).symm
  | cons length rest ih =>
      rcases List.mem_cons.1 h with rfl | h
      · exact Nat.le_refl _
      · exact Nat.le_trans (Nat.le_add_right _ _) (ih h)

theorem ordered_valuesFrom (start : Nat) (lengths : List Nat) :
    (valuesFrom start lengths).Pairwise (· ≤ ·) := by
  induction lengths generalizing start with
  | nil => exact List.pairwise_singleton _ _
  | cons length rest ih =>
      refine List.pairwise_cons.2 ⟨fun offset hoffset => ?_, ih _⟩
      exact Nat.le_trans (Nat.le_add_right _ _) (le_of_mem_valuesFrom hoffset)

theorem length_valuesFrom (start : Nat) (lengths : List Nat) :
    (valuesFrom start lengths).length = lengths.length + 1 := by
  induction lengths generalizing start with
  | nil => rfl
  | cons length rest ih => rw [valuesFrom, List.length_cons, ih, List.length_cons]

/-- The last list ends where all of them end. -/
theorem le_of_mem_valuesFrom_lists {α : Type} {start offset : Nat} {lists : List (List α)}
    (h : offset ∈ valuesFrom start (lists.map List.length)) :
    offset ≤ start + lists.flatten.length := by
  induction lists generalizing start with
  | nil =>
      rw [List.mem_singleton.1 h]
      exact Nat.le_add_right _ _
  | cons list rest ih =>
      rw [List.flatten_cons, List.length_append]
      rcases List.mem_cons.1 h with rfl | h
      · exact Nat.le_add_right _ _
      · rw [← Nat.add_assoc]
        exact ih h

/-- The offsets of lists of the lengths. -/
def ofLengths (lengths : List Nat) : Offsets :=
  ⟨valuesFrom 0 lengths, ordered_valuesFrom 0 lengths⟩

end Offsets

/-! ## Lists that share their elements -/

structure Lists where
  offsets : Offsets
  elements : List Cell
  /-- The rows that are not null. -/
  filled : List Bool
  length_offsets : offsets.values.length = filled.length + 1
  within : ∀ offset ∈ offsets.values, offset ≤ elements.length

namespace Lists

/-- Parts that do not fit together are refused. -/
def ofParts (offsets : Offsets) (elements : List Cell) (filled : List Bool) :
    Except Error Lists :=
  if h : offsets.values.length = filled.length + 1
    ∧ ∀ offset ∈ offsets.values, offset ≤ elements.length then
    .ok ⟨offsets, elements, filled, h.1, h.2⟩
  else .error (.compute .invalidArgument)

variable (a : Lists) (i : Nat)

def rows : Nat := a.filled.length

def isFilled : Bool := a.filled.getD i false

/-- The number of elements in a row, be it that they lie beneath a null. -/
def lengthAt : Nat := a.offsets.values.getD (i + 1) 0 - a.offsets.values.getD i 0

def elementsAt : List Cell :=
  (a.elements.drop (a.offsets.values.getD i 0)).take (a.lengthAt i)

/-- The list in a row. -/
def row? : Option (List Cell) := if a.isFilled i then some (a.elementsAt i) else none

/-- What the rows hold. -/
def values : List (Option (List Cell)) := (List.range a.rows).map a.row?

/-- The number of elements of each list. -/
def lengths : List (Option Int) :=
  (List.range a.rows).map fun i => if a.isFilled i then some (a.lengthAt i : Int) else none

/-- Row by row the elements of the one list and then those of the other, or null if either
is. -/
def concat (l r : Lists) : Except Error Lists :=
  let rows := List.range (min l.rows r.rows)
  let present (i : Nat) : Bool := l.isFilled i && r.isFilled i
  let pieces :=
    rows.flatMap fun i => if present i then [l.elementsAt i, r.elementsAt i] else []
  let lengths := rows.map fun i => if present i then l.lengthAt i + r.lengthAt i else 0
  ofParts (.ofLengths lengths) pieces.flatten (rows.map present)

/-- The cells of columns at some places, each of which is the number of a
column and that of a row. -/
def interleave (columns : List Column) (places : List (Nat × Nat)) : List Cell :=
  places.map fun (column, row) => ((columns[column]?).bind fun c => c.cells[row]?).getD .null

/-- In every row the cells that the columns have there, in their order. -/
def fromColumns (columns : List Column) (rows : Nat) : Except Error Lists :=
  let places := (List.range rows).flatMap fun row =>
    (List.range columns.length).map fun column => (column, row)
  ofParts (.ofLengths (List.replicate rows columns.length)) (interleave columns places)
    (List.replicate rows true)

/-! ## Lists as cells -/

theorem within_flatten (lists : List (List Cell)) :
    ∀ offset ∈ (Offsets.ofLengths (lists.map List.length)).values,
      offset ≤ lists.flatten.length := by
  intro offset hoffset
  rw [← Nat.zero_add lists.flatten.length]
  exact Offsets.le_of_mem_valuesFrom_lists hoffset

/-- Lists one after the other, with nothing before them, between them or beneath a null. -/
def ofValues (values : List (Option (List Cell))) : Lists where
  offsets := .ofLengths ((values.map (·.getD [])).map List.length)
  elements := (values.map (·.getD [])).flatten
  filled := values.map Option.isSome
  length_offsets := by simp [Offsets.ofLengths, Offsets.length_valuesFrom]
  within := within_flatten _

def ofCells (cells : List Cell) : Lists := ofValues (cells.map Cell.list?)

def toCells : List Cell := a.values.map (Cell.ofOption .list)

end Lists

/-! ## Functions -/

namespace Column

def requireList (c : Column) : Except Error Unit :=
  if c.type.isList then .ok ()
    else .error (.type ("expected a list array, got " ++ c.type.describe))

def listLength (c : Column) : Except Error Column := do
  c.requireList
  .ok (.ints (Lists.ofCells c.cells).lengths)

/-- Row by row the elements of the one list and then those of the other. -/
def listConcat (left right : Column) : Except Error Column := do
  let right ← right.cast left.type
  left.requireList
  let lists ← (Lists.ofCells left.cells).concat (Lists.ofCells right.cells)
  .ok ⟨left.type, lists.toCells⟩

/-- One list for every row, with the cells of all columns in their order. -/
def listFromColumns : List Column → Except Error Column
  | [] => .error (.execution "concat_list expects at least one argument")
  | first :: rest =>
    if rest.all (·.type = first.type) then do
      .ok ⟨.list first.type, (← Lists.fromColumns (first :: rest) first.length).toCells⟩
    else .error (.compute .invalidArgument)

end Column

end TypedQuery
