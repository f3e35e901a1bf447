import TypedQuery.Sql.Functions
import TypedQuery.Sql.Operators
import TypedQuery.Sql.Tables

/-!
# Compiling to SQL

A table becomes a statement, and a value becomes a piece of one.
-/

namespace TypedQuery.Sql

/-- The rules of the SQL target. -/
def rules : RuleTable Statement String :=
  (genericRules ++ operatorRules ++ reductionRules ++ textRules ++ timeRules
    ++ tableRules).foldl
    (fun table (kind, rule) => table.register kind rule) (.new "sql")

def compile (config : Config) (n : Node) : Except Error String :=
  ((rules.emit n).run (Session.start { config := config.sql } config.compiler.memoize)).1

end TypedQuery.Sql
