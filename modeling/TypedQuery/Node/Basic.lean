import TypedQuery.Node.Kind
import TypedQuery.Schema.Basic
import TypedQuery.Shape
import TypedQuery.Value.Basic

/-!
# Nodes

An expression is a tree of nodes. A node has a kind, the fields its kind asks for, and the
attributes derived from them: the type and the shape of a value, the schema of a table. The
fields determine the attributes, so two nodes are the same expression when their kinds and
their fields agree; `Node.beq` looks at nothing else.

The constructor takes any fields. Nodes that keep the rules of their kind are made by
`Node.build`.
-/

namespace TypedQuery

mutual

inductive Node where
  | mk (kind : NodeKind) (fields : List (String × Arg)) (attributes : List (String × Arg))

/-- What a field holds. -/
inductive Arg where
  /-- An optional field that was left out. -/
  | none
  | value (v : Value)
  | node (n : Node)
  | seq (items : List Arg)
  | map (entries : List (String × Arg))
  | type (t : DataType)
  | shape (s : Shape)
  | schema (s : Schema)

end

/-- Named fields in order. A name occurs once when the fields were put together by
`Fields.insert`. -/
abbrev Fields := List (String × Arg)

namespace Node

def kind : Node → NodeKind
  | mk kind _ _ => kind

def fields : Node → Fields
  | mk _ fields _ => fields

def attributes : Node → Fields
  | mk _ _ attributes => attributes

end Node

/-! ## Equality -/

mutual

def Node.beq : Node → Node → Bool
  | .mk k fs _, .mk l gs _ => decide (k = l) && Arg.beqFields fs gs

def Arg.beq : Arg → Arg → Bool
  | .none, .none => true
  | .value v, .value w => decide (v = w)
  | .node n, .node m => Node.beq n m
  | .seq xs, .seq ys => Arg.beqItems xs ys
  | .map fs, .map gs => Arg.beqFields fs gs
  | .type t, .type u => decide (t = u)
  | .shape s, .shape t => decide (s = t)
  | .schema s, .schema t => decide (s = t)
  | _, _ => false

def Arg.beqItems : List Arg → List Arg → Bool
  | [], [] => true
  | x :: xs, y :: ys => Arg.beq x y && Arg.beqItems xs ys
  | _, _ => false

def Arg.beqFields : List (String × Arg) → List (String × Arg) → Bool
  | [], [] => true
  | (a, x) :: fs, (b, y) :: gs => decide (a = b) && Arg.beq x y && Arg.beqFields fs gs
  | _, _ => false

end

instance : BEq Node := ⟨Node.beq⟩

instance : BEq Arg := ⟨Arg.beq⟩

/-! ## What an argument holds -/

namespace Arg

def bool (b : Bool) : Arg := value (.bool b)

def text (s : String) : Arg := value (.string s)

def isNone : Arg → Bool
  | none => true
  | _ => false

def node? : Arg → Option Node
  | node n => some n
  | _ => Option.none

def value? : Arg → Option Value
  | value v => some v
  | _ => Option.none

def string? (a : Arg) : Option String := a.value?.bind Value.string?

def int? (a : Arg) : Option Int64 := a.value?.bind Value.int?

def bool? (a : Arg) : Option Bool := a.value?.bind Value.bool?

def seq? : Arg → Option (List Arg)
  | seq items => some items
  | _ => Option.none

def map? : Arg → Option (List (String × Arg))
  | map entries => some entries
  | _ => Option.none

def type? : Arg → Option DataType
  | type t => some t
  | _ => Option.none

def shape? : Arg → Option Shape
  | shape s => some s
  | _ => Option.none

def schema? : Arg → Option Schema
  | schema s => some s
  | _ => Option.none

/-- A short description for messages. -/
def describe : Arg → String
  | none => "None"
  | value v => v.kindName ++ " " ++ v.render
  | node n => n.kind.name ++ " node"
  | seq items => "sequence of " ++ toString items.length
  | map entries => "mapping of " ++ toString entries.length
  | type t => "type " ++ t.name
  | shape s => "shape " ++ s.name
  | schema s => "schema " ++ s.render

mutual

/-- The nodes held by an argument, in order, without going into them. -/
def nodes : Arg → List Node
  | node n => [n]
  | seq items => nodesOfItems items
  | map entries => nodesOfFields entries
  | _ => []

def nodesOfItems : List Arg → List Node
  | [] => []
  | a :: rest => nodes a ++ nodesOfItems rest

def nodesOfFields : List (String × Arg) → List Node
  | [] => []
  | (_, a) :: rest => nodes a ++ nodesOfFields rest

end

end Arg

/-! ## Fields by name -/

namespace Fields

def field? (fields : Fields) (name : String) : Option Arg :=
  (fields.find? (·.1 == name)).map (·.2)

def node? (fields : Fields) (name : String) : Option Node :=
  (field? fields name).bind Arg.node?

def has (fields : Fields) (name : String) : Bool := fields.any (·.1 == name)

def names (fields : Fields) : List String := fields.map (·.1)

/-- Replaces a field where it stands, or adds it at the end. -/
def insert (fields : Fields) (name : String) (a : Arg) : Fields :=
  match fields with
  | [] => [(name, a)]
  | (other, b) :: rest => if other = name then (other, a) :: rest
    else (other, b) :: insert rest name a

def nodes (fields : Fields) : List Node := Arg.nodesOfFields fields

end Fields

namespace Node

/-- The nodes held by the fields, in order. -/
def children (n : Node) : List Node := Fields.nodes n.fields

/-- A field or, failing that, an attribute. -/
def get? (n : Node) (name : String) : Option Arg :=
  (Fields.field? n.fields name).or (Fields.field? n.attributes name)

/-- The type of a value. -/
def dataType? (n : Node) : Option DataType :=
  (Fields.field? n.attributes "dtype").bind Arg.type?

/-- The shape of a value. -/
def shape? (n : Node) : Option Shape := (Fields.field? n.attributes "shape").bind Arg.shape?

/-- The columns of a table. -/
def schema? (n : Node) : Option Schema :=
  (Fields.field? n.attributes "schema").bind Arg.schema?

def isLiteral (n : Node) : Bool := decide (n.kind = .literal)

/-- What a literal stands for. -/
def literal? (n : Node) : Option Value :=
  if n.isLiteral then (Fields.field? n.fields "value").bind Arg.value? else none

/-- A constant of its own type. -/
def literal (v : Value) : Node :=
  let t := Arg.type v.dataType
  mk .literal [("value", .value v), ("dtype", t)] [("shape", .shape .scalar), ("dtype", t)]

/-- A key to sort by. -/
def sortKey (key : Arg) (ascending : Bool) : Node :=
  mk .sortKey [("expr", key), ("ascending", .bool ascending)] []

end Node

/-!
## Depth

How many nodes lie on the longest way down from a node, itself included. A walk with rules
uses it as fuel: the nodes held by a node are strictly less deep.
-/

mutual

def Node.depth : Node → Nat
  | .mk _ fields _ => Arg.depthOfFields fields + 1

def Arg.depth : Arg → Nat
  | .node n => n.depth
  | .seq items => Arg.depthOfItems items
  | .map entries => Arg.depthOfFields entries
  | _ => 0

def Arg.depthOfItems : List Arg → Nat
  | [] => 0
  | a :: rest => max a.depth (Arg.depthOfItems rest)

def Arg.depthOfFields : List (String × Arg) → Nat
  | [] => 0
  | (_, a) :: rest => max a.depth (Arg.depthOfFields rest)

end

mutual

theorem Arg.depth_of_mem_nodes : ∀ {a : Arg} {m : Node}, m ∈ a.nodes → m.depth ≤ a.depth
  | .node n, m, h => by
    simp only [Arg.nodes, List.mem_singleton] at h
    subst h
    simp [Arg.depth]
  | .seq items, m, h => by
    simpa [Arg.depth] using Arg.depth_of_mem_items (by simpa [Arg.nodes] using h)
  | .map entries, m, h => by
    simpa [Arg.depth] using Arg.depth_of_mem_fields (by simpa [Arg.nodes] using h)
  | .none, m, h | .value _, m, h | .type _, m, h | .shape _, m, h | .schema _, m, h => by
    simp [Arg.nodes] at h

theorem Arg.depth_of_mem_items :
    ∀ {items : List Arg} {m : Node}, m ∈ Arg.nodesOfItems items →
      m.depth ≤ Arg.depthOfItems items
  | [], m, h => by simp [Arg.nodesOfItems] at h
  | a :: rest, m, h => by
    simp only [Arg.nodesOfItems, List.mem_append] at h
    simp only [Arg.depthOfItems]
    rcases h with h | h
    · exact Nat.le_trans (Arg.depth_of_mem_nodes h) (Nat.le_max_left _ _)
    · exact Nat.le_trans (Arg.depth_of_mem_items h) (Nat.le_max_right _ _)

theorem Arg.depth_of_mem_fields :
    ∀ {fields : List (String × Arg)} {m : Node},
      m ∈ Arg.nodesOfFields fields → m.depth ≤ Arg.depthOfFields fields
  | [], m, h => by simp [Arg.nodesOfFields] at h
  | (_, a) :: rest, m, h => by
    simp only [Arg.nodesOfFields, List.mem_append] at h
    simp only [Arg.depthOfFields]
    rcases h with h | h
    · exact Nat.le_trans (Arg.depth_of_mem_nodes h) (Nat.le_max_left _ _)
    · exact Nat.le_trans (Arg.depth_of_mem_fields h) (Nat.le_max_right _ _)

end

/-- The nodes held by a node are less deep. -/
theorem Node.depth_of_mem_children {n m : Node} (h : m ∈ n.children) :
    m.depth < n.depth := by
  cases n with
  | mk kind fields attributes =>
    simp only [Node.depth]
    exact Nat.lt_succ_of_le (Arg.depth_of_mem_fields h)

end TypedQuery
