import TypedQuery.Config
import TypedQuery.Emission.Walk
import TypedQuery.Error
import TypedQuery.Node.Basic
import TypedQuery.Sql.Literal

/-!
# Statements and their rules

What is known of a statement while it is written, and the words that its rules have
in common.
-/

namespace TypedQuery.Sql

/-!
## Scopes of a statement

While a statement is written, every `SELECT` in it has a scope: the tables that its `FROM`
clause brings in, each under the label of the item it comes with. A table inside a subquery
stays reachable through the label of the subquery, under the names that the subquery gives
its columns. Labels are numbered through the whole statement.

Tables are told apart by structure only. Two equal tables in one `FROM` clause are
refused, and a table that two subqueries bring in is ambiguous: naming a column of it is
an error, but only then.
-/

/-- New names of columns, by the names they are known under. -/
abbrev Renames := List (String × String)

namespace Renames

def newName? (renames : Renames) (column : String) : Option String :=
  (renames.find? (·.1 == column)).map (·.2)

/-- Adds a renaming, in place of one for the same column. -/
def insert (renames : Renames) (column name : String) : Renames :=
  match renames with
  | [] => [(column, name)]
  | (c, n) :: rest => if c = column then (column, name) :: rest
    else (c, n) :: insert rest column name

/-- Adds a renaming unless there is one for the same column. -/
def insertNew (renames : Renames) (column name : String) : Renames :=
  if (renames.newName? column).isSome then renames else renames ++ [(column, name)]

/-- Follows renamings by further ones, which also apply to the columns not renamed so far. -/
def andThen (renames changes : Renames) : Renames :=
  changes.foldl (fun renames (column, name) => renames.insertNew column name)
    (renames.map fun (column, name) => (column, (changes.newName? name).getD name))

end Renames

/-- How the columns of a table are reached. -/
inductive Reach where
  /-- Through the `FROM` item with the label. The table is that item itself when `direct`,
  and otherwise lies in the subquery that is the item. -/
  | through (label : String) (direct : Bool) (renames : Renames)
  /-- More than one subquery brings it in. -/
  | ambiguous
  deriving DecidableEq

namespace Reach

def isDirect : Reach → Bool
  | through _ direct _ => direct
  | ambiguous => false

/-- The same from outside a subquery with the label. -/
def exported (label : String) : Reach → Reach
  | through _ _ renames => through label false renames
  | ambiguous => ambiguous

def rename (item : String) (changes : Renames) : Reach → Reach
  | through label direct renames =>
    if label = item then through label direct (renames.andThen changes)
      else through label direct renames
  | ambiguous => ambiguous

def forgetRenames : Reach → Reach
  | through label direct _ => through label direct []
  | ambiguous => ambiguous

end Reach

abbrev Scope := List (Node × Reach)

namespace Scope

def reach? (scope : Scope) (table : Node) : Option Reach :=
  (scope.find? (·.1 == table)).map (·.2)

def insert (scope : Scope) (table : Node) (reach : Reach) : Scope :=
  match scope with
  | [] => [(table, reach)]
  | (t, r) :: rest => if t == table then (t, reach) :: rest
    else (t, r) :: insert rest table reach

/-- Brings in a table from a subquery with the label. -/
def bringIn (label : String) (scope : Scope) (table : Node) (reach : Reach) : Scope :=
  match scope.reach? table with
  | none => scope.insert table (reach.exported label)
  | some known => if known.isDirect then scope else scope.insert table .ambiguous

end Scope

/-- A statement being written: the scope of the innermost `SELECT` and those around it. -/
structure Statement where
  config : SqlConfig
  scope : Scope := []
  outer : List Scope := []
  labels : Nat := 0

namespace Statement

def quote (s : Statement) (name : String) : String := quoted s.config.identifierQuote name

/-- What is added to positions that count from zero. -/
def offset (s : Statement) : Int := s.config.indexOrigin.offset

def openScope (s : Statement) : Statement :=
  { s with scope := [], outer := s.scope :: s.outer }

/-- Goes back to the scope around, and gives the one that was closed. -/
def closeScope (s : Statement) : Except Error (Scope × Statement) :=
  match s.outer with
  | [] => .error (.internal "cannot close the statement scope")
  | scope :: outer => .ok (s.scope, { s with scope := scope, outer := outer })

/-- Makes a table an item of the innermost `FROM` clause, with a new label. -/
def bind (s : Statement) (table : Node) : Except Error (String × Statement) :=
  if ((s.scope.reach? table).map Reach.isDirect).getD false then
    .error (.inexpressible (table.kind.name
      ++ " appears twice in one FROM clause; column references to it are ambiguous"))
  else
    let label := "t" ++ toString s.labels
    .ok (label,
      { s with
        scope := s.scope.insert table (.through label true [])
        labels := s.labels + 1 })

/-- Makes the tables of a subquery reachable through its label. -/
def bringIn (s : Statement) (tables : Scope) (label : String) : Statement :=
  { s with
    scope := tables.foldl
      (fun scope (table, reach) => scope.bringIn label table reach) s.scope }

/-- Records that the innermost `SELECT` gives columns of an item new names. -/
def rename (s : Statement) (item : String) (changes : Renames) : Statement :=
  { s with scope := s.scope.map fun (table, reach) => (table, reach.rename item changes) }

/-- Records that the innermost `SELECT` names its columns itself. -/
def forgetRenames (s : Statement) : Statement :=
  { s with scope := s.scope.map fun (table, reach) => (table, reach.forgetRenames) }

/-- The label under which a table is reachable. -/
def labelOf (s : Statement) (table : Node) : Except Error (Option String) :=
  match s.scope.reach? table with
  | none => .ok none
  | some (.through label _ _) => .ok (some label)
  | some .ambiguous =>
    .error (.inexpressible
      (table.kind.name ++ " is reachable through more than one subquery"))

/-- The name that a column of a table has here. -/
def outputName (s : Statement) (table : Node) (column : String) : String :=
  match s.scope.reach? table with
  | some (.through _ _ renames) => (renames.newName? column).getD column
  | _ => column

def qualified (s : Statement) (label column : String) : String :=
  label ++ "." ++ s.quote column

/-- A column of a table, qualified when the table is reachable. -/
def column (s : Statement) (table : Node) (column : String) : Except Error String := do
  let name := s.outputName table column
  match ← s.labelOf table with
  | some label => .ok (s.qualified label name)
  | none => .ok (s.quote name)

end Statement

/-!
## Words for SQL rules

The shapes that most rules have: a call of a function with the fields of the node, and an
operator between its two operands.
-/

abbrev Writing (α : Type) := Emission Statement String α

abbrev SqlRule := Rule Statement String

def call (name : String) (args : List String) : String :=
  name ++ "(" ++ ", ".intercalate args ++ ")"

/-- The texts of some fields, in order. -/
def fieldTexts (emit : Node → Writing String) (n : Node) :
    List String → Writing (List String)
  | [] => return []
  | name :: rest => do
    let text ← Emission.field emit n name
    let texts ← fieldTexts emit n rest
    return text :: texts

/-- A call with one argument for each field. -/
def callOf (name : String) (fields : List String) : SqlRule := fun emit n => do
  return call name (← fieldTexts emit n fields)

/-- A call with one argument for each node of a sequence. -/
def callOfAll (name field : String) : SqlRule := fun emit n => do
  return call name (← Emission.sequence emit n field)

/-- An operator between the operands, in brackets. -/
def operator (symbol : String) : SqlRule := fun emit n => do
  let left ← Emission.field emit n "left"
  let right ← Emission.field emit n "right"
  return "(" ++ left ++ " " ++ symbol ++ " " ++ right ++ ")"

/-- The text of one field between two others. -/
def around (before field after : String) : SqlRule := fun emit n => do
  return before ++ (← Emission.field emit n field) ++ after

/-- One rule for several kinds. -/
def sharing (kinds : List NodeKind) (rule : SqlRule) : List (NodeKind × SqlRule) :=
  kinds.map fun kind => (kind, rule)

end TypedQuery.Sql
