import TypedQuery.DataType.Basic

/-!
# Schemas

The ordered columns of a relation. A schema may repeat a name; look-ups then find the first
column of that name, and `duplicateNames` lists the repeated ones.
-/

namespace TypedQuery

structure ColumnInfo where
  name : String
  dataType : DataType
  nullable : Bool := true
  deriving DecidableEq

structure Schema where
  columns : List ColumnInfo
  deriving DecidableEq

namespace Schema

def empty : Schema := ⟨[]⟩

def ofPairs (pairs : List (String × DataType)) : Schema :=
  ⟨pairs.map fun (name, dataType) => ⟨name, dataType, true⟩⟩

def push (s : Schema) (column : ColumnInfo) : Schema := ⟨s.columns ++ [column]⟩

def names (s : Schema) : List String := s.columns.map (·.name)

def column? (s : Schema) (name : String) : Option ColumnInfo :=
  s.columns.find? (·.name == name)

def indexOf? (s : Schema) (name : String) : Option Nat := s.columns.findIdx? (·.name == name)

def contains (s : Schema) (name : String) : Bool := s.columns.any (·.name == name)

def dataType? (s : Schema) (name : String) : Option DataType :=
  (s.column? name).map (·.dataType)

/-- Names that occur again after `seen`, each once, in the order of their second
occurrence. -/
def repeated (seen found : List String) : List String → List String
  | [] => found.reverse
  | name :: rest =>
    if seen.contains name then
      repeated seen (if found.contains name then found else name :: found) rest
    else repeated (name :: seen) found rest

def duplicateNames (s : Schema) : List String := repeated [] [] s.names

def render (s : Schema) : String :=
  "\x7b" ++ ", ".intercalate (s.columns.map fun c =>
    c.name ++ ": " ++ c.dataType.name) ++ "\x7d"

end Schema

end TypedQuery
