import TypedQuery.Node.Basic

/-!
# Hashes, and nodes in memory

A hash of a node is taken of the node's kind and of its fields, one piece after the other,
and of the nodes in the fields only their hashes go in. Any function of a list of pieces
will do; `Node.hash` is the one in use.

An expression may use one node in many places, and then the node is in memory once. There
it refers to others by their addresses, and it keeps its hash, which was computed when it
was made. Two nodes are compared by address first, then by hash, and only where both leave
it open by kind and fields.
-/

namespace TypedQuery

/-- What a hash is taken of, piece by piece. -/
inductive Piece where
  /-- Which of its forms something has. -/
  | form (index : Nat)
  /-- How many members follow. -/
  | length (n : Nat)
  | word (w : UInt64)
  | text (s : String)
  | bytes (content : List UInt8)
  deriving DecidableEq

namespace Piece

def mixed : Piece → UInt64
  | form index => mixHash 1 index.toUInt64
  | length n => mixHash 2 n.toUInt64
  | word w => mixHash 3 w
  | text s => mixHash 4 (Hashable.hash s)
  | bytes content => mixHash 5 (content.foldl (fun h b => mixHash h b.toUInt64) 6)

/-- All pieces in one word. -/
def mix (pieces : List Piece) : UInt64 :=
  pieces.foldl (fun h piece => mixHash h piece.mixed) 7

end Piece

/-! ## Pieces -/

open Piece

def DataType.pieces : DataType → List Piece
  | t@(.timestamp unit) => [form t.ctorIdx, form unit.ctorIdx]
  | t@(.interval unit) => [form t.ctorIdx, form unit.ctorIdx]
  | t@(.array element) => form t.ctorIdx :: element.pieces
  | t => [form t.ctorIdx]

def ColumnInfo.pieces (c : ColumnInfo) : List Piece :=
  text c.name :: (c.dataType.pieces ++ [form c.nullable.toNat])

def Schema.pieces (s : Schema) : List Piece :=
  length s.columns.length :: s.columns.flatMap ColumnInfo.pieces

mutual

/-- Numbers with a fraction go in by their bits. -/
def Value.pieces : Value → List Piece
  | v@(.null) => [form v.ctorIdx]
  | v@(.bool b) => [form v.ctorIdx, form b.toNat]
  | v@(.int64 n) => [form v.ctorIdx, word n.toUInt64]
  | v@(.float64 x) => [form v.ctorIdx, word x.bits]
  | v@(.string s) => [form v.ctorIdx, text s]
  | v@(.binary content) => [form v.ctorIdx, length content.length, bytes content]
  | v@(.date days) => [form v.ctorIdx, word days.toInt64.toUInt64]
  | v@(.timestamp ticks unit) => [form v.ctorIdx, word ticks.toUInt64, form unit.ctorIdx]
  | v@(.interval steps unit) => [form v.ctorIdx, word steps.toUInt64, form unit.ctorIdx]
  | v@(.array items) => form v.ctorIdx :: length items.length :: Value.piecesOf items

def Value.piecesOf : List Value → List Piece
  | [] => []
  | v :: rest => v.pieces ++ Value.piecesOf rest

end

/-! ## Nodes -/

section

variable (hash : List Piece → UInt64)

mutual

def Node.hashBy : Node → UInt64
  | .mk kind fields _ =>
    hash (form kind.ctorIdx :: length fields.length :: Arg.piecesOfFields fields)

def Arg.pieces : Arg → List Piece
  | a@(.none) => [form a.ctorIdx]
  | a@(.value v) => form a.ctorIdx :: v.pieces
  | a@(.node n) => [form a.ctorIdx, word n.hashBy]
  | a@(.seq items) => form a.ctorIdx :: length items.length :: Arg.piecesOfItems items
  | a@(.map entries) => form a.ctorIdx :: length entries.length :: Arg.piecesOfFields entries
  | a@(.type t) => form a.ctorIdx :: t.pieces
  | a@(.shape s) => [form a.ctorIdx, form s.ctorIdx]
  | a@(.schema s) => form a.ctorIdx :: s.pieces

def Arg.piecesOfItems : List Arg → List Piece
  | [] => []
  | a :: rest => a.pieces ++ Arg.piecesOfItems rest

def Arg.piecesOfFields : List (String × Arg) → List Piece
  | [] => []
  | (name, a) :: rest => text name :: (a.pieces ++ Arg.piecesOfFields rest)

end

end

def Node.hash (n : Node) : UInt64 := n.hashBy Piece.mix

/-! ## Fields in memory -/

/-- What a field holds in memory, with the addresses of nodes in their places. -/
inductive StoredArg where
  | none
  | value (v : Value)
  | node (address : Nat)
  | seq (items : List StoredArg)
  | map (entries : List (String × StoredArg))
  | type (t : DataType)
  | shape (s : Shape)
  | schema (s : Schema)

abbrev StoredFields := List (String × StoredArg)

namespace StoredArg

mutual

/-- The addresses of the nodes, in order. -/
def addresses : StoredArg → List Nat
  | node address => [address]
  | seq items => addressesOfItems items
  | map entries => addressesOfFields entries
  | _ => []

def addressesOfItems : List StoredArg → List Nat
  | [] => []
  | a :: rest => addresses a ++ addressesOfItems rest

def addressesOfFields : StoredFields → List Nat
  | [] => []
  | (_, a) :: rest => addresses a ++ addressesOfFields rest

end

/-!
### Reading, comparing and hashing

What is at the addresses is given.
-/

section

variable (read : Nat → Node)

mutual

def arg : StoredArg → Arg
  | none => .none
  | value v => .value v
  | node address => .node (read address)
  | seq items => .seq (argsOf items)
  | map entries => .map (fieldsOf entries)
  | type t => .type t
  | shape s => .shape s
  | schema s => .schema s

def argsOf : List StoredArg → List Arg
  | [] => []
  | a :: rest => arg a :: argsOf rest

def fieldsOf : StoredFields → Fields
  | [] => []
  | (name, a) :: rest => (name, arg a) :: fieldsOf rest

end

end

section

variable (sameNode : Nat → Nat → Bool)

mutual

def same : StoredArg → StoredArg → Bool
  | none, none => true
  | value v, value w => decide (v = w)
  | node a, node b => sameNode a b
  | seq xs, seq ys => sameItems xs ys
  | map fs, map gs => sameFields fs gs
  | type t, type u => decide (t = u)
  | shape s, shape t => decide (s = t)
  | schema s, schema t => decide (s = t)
  | _, _ => false

def sameItems : List StoredArg → List StoredArg → Bool
  | [], [] => true
  | x :: xs, y :: ys => same x y && sameItems xs ys
  | _, _ => false

def sameFields : StoredFields → StoredFields → Bool
  | [], [] => true
  | (a, x) :: fs, (b, y) :: gs => decide (a = b) && same x y && sameFields fs gs
  | _, _ => false

end

end

section

open Piece

variable (hashAt : Nat → UInt64)

mutual

def pieces : StoredArg → List Piece
  | a@(.none) => [form a.ctorIdx]
  | a@(.value v) => form a.ctorIdx :: v.pieces
  | a@(.node address) => [form a.ctorIdx, word (hashAt address)]
  | a@(.seq items) => form a.ctorIdx :: length items.length :: piecesOfItems items
  | a@(.map entries) => form a.ctorIdx :: length entries.length :: piecesOfFields entries
  | a@(.type t) => form a.ctorIdx :: t.pieces
  | a@(.shape s) => [form a.ctorIdx, form s.ctorIdx]
  | a@(.schema s) => form a.ctorIdx :: s.pieces

def piecesOfItems : List StoredArg → List Piece
  | [] => []
  | a :: rest => pieces a ++ piecesOfItems rest

def piecesOfFields : StoredFields → List Piece
  | [] => []
  | (name, a) :: rest => text name :: (pieces a ++ piecesOfFields rest)

end

end

end StoredArg

/-! ## Memory -/

/-- A node where it is stored. -/
structure StoredNode where
  kind : NodeKind
  fields : StoredFields
  attributes : Fields
  hash : UInt64

/-- The nodes that were made, the last one first. The address of a node is the number of
nodes made before it, and the nodes in its fields are among those. -/
abbrev Memory := List StoredNode

namespace Memory

def stored? : Memory → Nat → Option StoredNode
  | [], _ => none
  | stored :: older, address => if address = older.length then some stored
    else stored? older address

/-- The hash that a node keeps. -/
def hashAt (m : Memory) (address : Nat) : UInt64 :=
  ((m.stored? address).map StoredNode.hash).getD 0

/-- The expression that is stored at an address. -/
def node : Memory → Nat → Node
  | [], _ => .mk .node [] []
  | stored :: older, address =>
    if address = older.length then
      .mk stored.kind (StoredArg.fieldsOf (node older) stored.fields) stored.attributes
    else node older address

/-- Whether two nodes are equal. The nodes in their fields are older than the younger of
them. -/
def same : Memory → Nat → Nat → Bool
  | [], _, _ => false
  | stored :: older, a, b => a == b ||
    match stored? (stored :: older) a, stored? (stored :: older) b with
    | some c, some d =>
      c.hash == d.hash && decide (c.kind = d.kind) && StoredArg.sameFields
        (same older) c.fields d.fields
    | _, _ => false

/-- A new node, with the hash of its kind and its fields. -/
def push (hash : List Piece → UInt64) (m : Memory) (kind : NodeKind) (fields : StoredFields)
    (attributes : Fields) : Memory :=
  ⟨kind, fields, attributes,
    hash (.form kind.ctorIdx :: .length fields.length
      :: StoredArg.piecesOfFields m.hashAt fields)⟩ :: m

/-- What a table keyed by nodes has for one of them. Keys with another hash aren't looked
at. -/
def lookup (m : Memory) (table : List (Nat × α)) (address : Nat) : Option α :=
  (table.find? fun entry =>
    m.hashAt entry.1 == m.hashAt address && m.same entry.1 address).map (·.2)

end Memory

end TypedQuery
