import TypedQuery.Error
import TypedQuery.Node.Access
import TypedQuery.Node.Basic
import TypedQuery.Text.Quoted

/-!
# Rules and walks

A target is a table of rules, and its output for a node is found by walking the node
with them.
-/

namespace TypedQuery

/-!
## Rule tables

A target is described by rules for kinds of nodes. A kind without a rule of its own takes
that of the nearest kind above it, and a new table has a rule for the root that refuses
every node, so that a node is refused exactly when no rule was given for it or above it.

A rule gives the output for a node, and is given the means to find that of others. While a
node is walked, the state of the target lives in a `Session`, together with the outputs
found so far when they are kept.
-/

structure Session (σ ω : Type) where
  target : σ
  /-- Outputs of nodes met before; nothing when outputs are not kept. -/
  memo : Option (List (Node × ω))

/-- A step that may fail and may change the session, also when it fails. -/
abbrev Emission (σ ω α : Type) := ExceptT Error (StateM (Session σ ω)) α

abbrev Rule (σ ω : Type) := (Node → Emission σ ω ω) → Node → Emission σ ω ω

structure RuleTable (σ ω : Type) where
  /-- The name of the target in messages. -/
  name : String
  rules : List (NodeKind × Rule σ ω)

namespace RuleTable

def refuse (name : String) : Rule σ ω := fun _ n => throw (.dispatch n.kind.name name)

/-- A table with the rule that refuses every node. -/
def new (name : String) : RuleTable σ ω := ⟨name, [(.node, refuse name)]⟩

def insert (kind : NodeKind) (rule : Rule σ ω) :
    List (NodeKind × Rule σ ω) → List (NodeKind × Rule σ ω)
  | [] => [(kind, rule)]
  | (k, r) :: rest => if k = kind then (k, rule) :: rest else (k, r) :: insert kind rule rest

/-- Gives a kind a rule, in place of the one it had. -/
def register (kind : NodeKind) (rule : Rule σ ω) (table : RuleTable σ ω) : RuleTable σ ω :=
  { table with rules := insert kind rule table.rules }

/-- Gives several kinds the same rule. -/
def registerAll (kinds : List NodeKind) (rule : Rule σ ω) (table : RuleTable σ ω) :
    RuleTable σ ω :=
  kinds.foldl (fun table kind => table.register kind rule) table

def rule? (table : RuleTable σ ω) (kind : NodeKind) : Option (Rule σ ω) :=
  (table.rules.find? (·.1 = kind)).map (·.2)

/-- Whether a kind has a rule of its own. -/
def contains (table : RuleTable σ ω) (kind : NodeKind) : Bool := (table.rule? kind).isSome

/-- The rule of the nearest of some kinds. -/
def nearest? (table : RuleTable σ ω) : List NodeKind → Option (NodeKind × Rule σ ω)
  | [] => none
  | kind :: rest =>
    match table.rule? kind with
    | some rule => some (kind, rule)
    | none => nearest? table rest

/-- The kind whose rule is taken for nodes of `kind`, with that rule. -/
def resolve (table : RuleTable σ ω) (kind : NodeKind) : Except Error (NodeKind × Rule σ ω) :=
  match table.nearest? kind.lineage with
  | some found => .ok found
  | none => .error (.dispatch kind.name table.name)

def size (table : RuleTable σ ω) : Nat := table.rules.length

/-- The names of the kinds with rules, in alphabetical order. -/
def kindNames (table : RuleTable σ ω) : List String :=
  (table.rules.map (·.1.name)).mergeSort (fun a b => decide (a ≤ b))

def debug (table : RuleTable σ ω) : String :=
  "RuleTable \x7b backend: " ++ Text.quote table.name ++ ", kinds: "
    ++ Text.quoteList table.kindNames
    ++ " \x7d"

end RuleTable

/-!
## Walking nodes

`RuleTable.emit` walks a node with the rules of a table. When outputs are kept, a
node that was met before is not walked again. What depends on the state of the
target must not be reused where that state is another: `isolated` starts without
outputs and forgets those it found.

The walk is bounded by the depth of the node, which covers every rule that asks only for
nodes held by the one it was given.
-/

variable {σ ω : Type}

/-! ### The session -/

namespace Emission

/-- The state of the target. -/
def target : Emission σ ω σ := do return (← get).target

def setTarget (s : σ) : Emission σ ω Unit :=
  modify fun session => { session with target := s }

/-- A change of the target's state that may fail, in which case it changes nothing. -/
def change (f : σ → Except Error (α × σ)) : Emission σ ω α := do
  let (a, s) ← f (← target)
  setTarget s
  return a

/-- The output kept for a node. -/
def known? (n : Node) : Emission σ ω (Option ω) := do
  return (← get).memo.bind fun memo => (memo.find? (·.1 == n)).map (·.2)

def remember (n : Node) (output : ω) : Emission σ ω Unit :=
  modify fun session => { session with memo := session.memo.map ((n, output) :: ·) }

/-- Runs a step without the outputs kept so far, and puts them back afterwards,
also when the step fails. -/
def isolated (step : Emission σ ω α) : Emission σ ω α :=
  ExceptT.mk fun session =>
    let (result, after) := step.run { session with memo := session.memo.map fun _ => [] }
    (result, { after with memo := session.memo })

/-- What a step gives, as a value, so that something can be done after a failure too. -/
def attempt (step : Emission σ ω α) : Emission σ ω (Except Error α) :=
  ExceptT.mk fun session =>
    let (result, after) := step.run session
    (.ok result, after)

end Emission

/-! ### The walk -/

namespace RuleTable

def emitWithin (table : RuleTable σ ω) : Nat → Node → Emission σ ω ω
  | 0, n => throw (.internal (n.kind.name ++ " is nested too deeply"))
  | depth + 1, n => do
    match ← Emission.known? n with
    | some output => return output
    | none =>
      let (_, rule) ← table.resolve n.kind
      let output ← rule (emitWithin table depth) n
      Emission.remember n output
      return output

def emit (table : RuleTable σ ω) (n : Node) : Emission σ ω ω := table.emitWithin n.depth n

end RuleTable

/-- A session before any node was walked. -/
def Session.start (target : σ) (memoize : Bool) : Session σ ω :=
  ⟨target, if memoize then some [] else none⟩

/-! ### Parts of a node -/

namespace Emission

variable (emit : Node → Emission σ ω ω) (n : Node)

def field (name : String) : Emission σ ω ω := do
  let child ← n.child name
  emit child

/-- A field that may be left out. -/
def field? (name : String) : Emission σ ω (Option ω) :=
  match n.child? name with
  | some child => do return some (← emit child)
  | none => return none

def each : List Node → Emission σ ω (List ω)
  | [] => return []
  | m :: rest => do
    let output ← emit m
    let outputs ← each rest
    return output :: outputs

/-- Every node of a sequence, in order. -/
def sequence (name : String) : Emission σ ω (List ω) := do
  let nodes ← n.childList name
  each emit nodes

end Emission

/-! ### Constants -/

namespace Node

/-- The constant in a field that may be left out; an expression that is not constant is
refused. -/
def optionalLiteral (target : String) (n : Node) (name : String) :
    Except Error (Option Value) :=
  match n.get? name with
  | none | some .none => .ok none
  | some (.value v) => .ok (some v)
  | some (.node child) =>
    if child.isLiteral then .ok child.literal?
      else .error (.unsupportedArgument n.kind.name name target)
  | some _ => .error (.unsupportedArgument n.kind.name name target)

def requiredLiteral (target : String) (n : Node) (name : String) : Except Error Value := do
  match ← optionalLiteral target n name with
  | some v => .ok v
  | none => .error (.unsupportedArgument n.kind.name name target)

end Node

end TypedQuery
