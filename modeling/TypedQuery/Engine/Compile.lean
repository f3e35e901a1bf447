import TypedQuery.Engine.Functions
import TypedQuery.Engine.Operators
import TypedQuery.Engine.Tables
import TypedQuery.Plan.Execute

/-!
# Compiling for the engine

A table becomes a plan, which can be executed over a catalog, and a value becomes an
expression.
-/

namespace TypedQuery.Engine

/-- The rules of the engine. -/
def rules : RuleTable Clock Lowered :=
  (valueRules ++ listRules ++ textRules ++ timeRules ++ tableRules).foldl
    (fun table (kind, rule) => table.register kind rule) (.new targetName)

def compile (config : Config) (clock : Clock) (n : Node) : Except Error Lowered :=
  ((rules.emit n).run (Session.start clock config.compiler.memoize)).1

def execute (config : Config) (clock : Clock) (n : Node) (catalog : Catalog) :
    Except Error Batch := do
  let plan ← (← compile config clock n).toPlan
  plan.execute catalog

end TypedQuery.Engine
