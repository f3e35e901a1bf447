import TypedQuery.Config
import TypedQuery.Plan.Group
import TypedQuery.Plan.Join
import TypedQuery.Plan.Select

/-!
# Executing plans

Tables are kept in a catalog by name. `Plan.execute` computes the batch that a plan
describes, inputs first.
-/

namespace TypedQuery

/-- Named tables and the settings that they are queried with. -/
structure Catalog where
  tables : List (String × Batch)
  config : EngineConfig

namespace Catalog

def empty (config : EngineConfig) : Catalog := ⟨[], config⟩

def table? (c : Catalog) (name : String) : Option Batch :=
  (c.tables.find? (·.1 = name)).map (·.2)

def contains (c : Catalog) (name : String) : Bool := c.tables.any (·.1 = name)

/-- Adds a table, in place of one with the same name. -/
def register (c : Catalog) (name : String) (b : Batch) : Catalog :=
  { c with tables := (name, b) :: c.tables.filter (·.1 ≠ name) }

/-- The names of all tables in their order. -/
def names (c : Catalog) : List String := (c.tables.map (·.1)).mergeSort fun a b => !(b < a)

def get (c : Catalog) (name : String) : Except Error Batch :=
  match c.table? name with
  | some b => .ok b
  | none => .error (.execution ("table not found: " ++ name))

end Catalog

namespace Plan

def execute (catalog : Catalog) : Plan → Except Error Batch
  | scan table => catalog.get table
  | rows _ batch => .ok batch
  | filter input predicate => do (← execute catalog input).filterBy predicate
  | select input items => do (← execute catalog input).select items
  | extend input items => do (← execute catalog input).extend items
  | sort input keys descending => do (← execute catalog input).sort keys descending
  | slice input offset length => do .ok ((← execute catalog input).slice offset length)
  | aggregate input keys metrics => do (← execute catalog input).aggregate keys metrics
  | join left right leftKeys rightKeys kind suffix => do
    let l ← execute catalog left
    let r ← execute catalog right
    l.join r leftKeys rightKeys kind suffix catalog.config.nullJoinKeysMatch
  | dropNulls input columns => do (← execute catalog input).dropNulls columns
  | unique input => do .ok (← execute catalog input).unique

end Plan

end TypedQuery
