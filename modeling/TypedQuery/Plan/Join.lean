import TypedQuery.Plan.Basic
import TypedQuery.Plan.Select

/-!
# Joins

Rows of two batches are paired if their keys are equal. Pairs come in the order of the
left rows, and for each of them in the order of the right rows; what an outer join
keeps of the right side comes last. A key with a null in it equals no key, unless the
settings say that nulls match.

The right rows are looked up in an index by key. Positions of rows are numbers of any size
here, though they are kept in 32 bits where pairs are taken from the batches; what happens
beyond that many rows is left out.
-/

namespace TypedQuery

/-- A row as a join sees it: its key, and whether no part of the key is null. -/
structure KeyedRow where
  key : List Cell
  complete : Bool
  deriving DecidableEq

namespace Join

/-- Positions of rows by key. -/
abbrev Index := List (List Cell × List Nat)

def Index.rows? (index : Index) (key : List Cell) : Option (List Nat) :=
  (List.find? (·.1 = key) index).map (·.2)

def Index.insert (index : Index) (key : List Cell) (position : Nat) : Index :=
  match index with
  | [] => [(key, [position])]
  | (k, positions) :: rest =>
    if k = key then (k, positions ++ [position]) :: rest
    else (k, positions) :: Index.insert rest key position

/-- Whether a row can be paired at all. -/
def takesPart (nullsMatch : Bool) (row : KeyedRow) : Bool := nullsMatch || row.complete

def index (nullsMatch : Bool) (rows : List KeyedRow) : Index :=
  rows.zipIdx.foldl (fun index (row, position) =>
    if takesPart nullsMatch row then Index.insert index row.key position else index) []

/-- A row of the left side and one of the right side; one of them may be missing. -/
abbrev RowPair := Option Nat × Option Nat

/-- What a left row contributes, given the right rows that match it. -/
def pairsOf (kind : JoinKind) (position : Nat) (found : Option (List Nat)) : List RowPair :=
  match kind, found with
  | .semi, some _ | .anti, none => [(some position, none)]
  | .semi, none | .anti, some _ => []
  | _, some rights => rights.map fun right => (some position, some right)
  | .left, none | .outer, none => [(some position, none)]
  | .inner, none => []

/-- The rows of the right side that occur in no pair. -/
def unpaired (count : Nat) (pairs : List RowPair) : List Nat :=
  let paired := pairs.filterMap (·.2)
  (List.range count).filter (!paired.contains ·)

def matchRows (kind : JoinKind) (nullsMatch : Bool) (left right : List KeyedRow) :
    List RowPair :=
  let index := index nullsMatch right
  let pairs := left.zipIdx.flatMap fun (row, position) =>
    pairsOf kind position (if takesPart nullsMatch row then index.rows? row.key else none)
  if kind = .outer then
    pairs ++ (unpaired right.length pairs).map fun position => (none, some position)
  else pairs

/-! ## Batches -/

/-- The right keys in the types of the left keys. -/
def convertKeys : List Column → List Column → Except Error (List Column)
  | l :: ls, r :: rs => do
    let here ← r.cast l.type
    .ok (here :: (← convertKeys ls rs))
  | _, _ => .ok []

def keyedRows (rows : Nat) (keys : List Column) : List KeyedRow :=
  let complete :=
    (keys.map Column.filled).foldl (List.zipWith and) (List.replicate rows true)
  List.zipWith KeyedRow.mk (Batch.tuples rows keys) complete

/-- The name of a column of the right side in the result. -/
def rightName (leftNames : List String) (suffix name : String) : String :=
  if leftNames.contains name then name ++ suffix else name

end Join

def Batch.join (left right : Batch) (leftKeys rightKeys : List Expr) (kind : JoinKind)
    (suffix : String) (nullsMatch : Bool) : Except Error Batch :=
  if leftKeys.isEmpty || leftKeys.length ≠ rightKeys.length then
    .error (.inexpressible
      ("join needs matching non-empty key lists, got " ++ toString leftKeys.length ++ " and "
      ++ toString rightKeys.length))
  else do
    let ls ← left.computeKeys leftKeys
    let rs ← Join.convertKeys ls (← right.computeKeys rightKeys)
    let pairs := Join.matchRows kind nullsMatch (Join.keyedRows left.rows ls)
      (Join.keyedRows right.rows rs)
    let fromLeft := left.gather (pairs.map (·.1))
    if kind = .semi || kind = .anti then .ok fromLeft
    else
      let fromRight := (right.gather (pairs.map (·.2))).columns.map fun (name, c) =>
        (Join.rightName left.names suffix name, c)
      .ok { fromLeft with columns := fromLeft.columns ++ fromRight }

end TypedQuery
