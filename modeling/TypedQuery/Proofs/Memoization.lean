import TypedQuery.Proofs.Engine.Answers
import TypedQuery.Proofs.Sql.KeptTexts

/-!
# Keeping outputs changes nothing

Whether the compiler keeps the outputs of nodes for equal nodes met later is a
matter of speed alone: the text, the plan, the expression or the error is the same.
On the engine this is said with two clocks, one for each run, so a node has to be
free of the present time.
-/

namespace TypedQuery

/-- The configuration with outputs kept or not. -/
def Config.memoizing (config : Config) (memoize : Bool) : Config :=
  { config with compiler := { config.compiler with memoize } }

namespace Sql

theorem compile_memoizing {n : Node} (h : n.Built) (config : Config) :
    compile (config.memoizing true) n = compile (config.memoizing false) n := by
  have hmatches := walk_matches faithful_return h (Nat.le_refl _) (Nat.le_refl _)
  rw [← RuleTable.emitWithin_eq_walk] at hmatches
  exact (hmatches ⟨{ config := config.sql }, some []⟩ ⟨{ config := config.sql }, none⟩
    ⟨rfl, rfl, rfl⟩).1

/-- A text may be looked at as one that was written without keeping any. -/
theorem compile_memoizing_false {n : Node} (h : n.Built) (config : Config) :
    compile (config.memoizing false) n = compile config n := by
  have hself : config.memoizing config.compiler.memoize = config := rfl
  cases hmemoize : config.compiler.memoize with
  | false => rw [← hmemoize, hself]
  | true => rw [← compile_memoizing h, ← hmemoize, hself]

theorem compileRechecked_eq {n : Node} (h : n.Built) (config : Config) :
    compileRechecked config n = compile (config.memoizing false) n :=
  (walk_matches faithful_recheck h (Nat.le_refl _) (Nat.le_refl _)
    ⟨{ config := config.sql }, some []⟩ ⟨{ config := config.sql }, none⟩ ⟨rfl, rfl, rfl⟩).1

end Sql

/-- Compiling gives the same whether outputs are kept or not, and every text that is kept
and reused is the one that would be written anew at that point of the statement. -/
theorem memoization_transparent {n : Node} (h : n.Built) (config : Config) :
    Sql.compile (config.memoizing true) n = Sql.compile (config.memoizing false) n
      ∧ Sql.compileRechecked config n = Sql.compile (config.memoizing true) n
      ∧ (n.holds .timestampNow = false → ∀ clock clock' : Engine.Clock,
          Engine.compile (config.memoizing true) clock n
            = Engine.compile (config.memoizing false) clock' n) := by
  refine ⟨Sql.compile_memoizing h config, ?_, fun hnow clock clock' => ?_⟩
  · rw [Sql.compileRechecked_eq h, Sql.compile_memoizing h]
  · rw [Engine.compile_eq_answer h, Engine.compile_eq_answer h]
    exact Engine.answer_timeless h hnow clock clock'

/-- A filtered table that is filtered by a comparison of a column with itself. -/
theorem memoization_transparent_shared :
    ∃ table column same inner n : Node,
      Node.databaseTable "t" ⟨[⟨"a", .int64, true⟩]⟩ = .ok table
        ∧ Node.column table "a" = .ok column
        ∧ Node.build .equals [.node column, .node column] [] = .ok same
        ∧ Node.build .selection [.node table] [("predicates", .node same)] = .ok inner
        ∧ Node.build .selection [.node inner]
          [("predicates", .seq [.node same, .node same])] = .ok n
        ∧ n.holds .timestampNow = false
        ∧ Sql.compile (Config.memoizing {} true) n
          = Sql.compile (Config.memoizing {} false) n
        ∧ Engine.compile (Config.memoizing {} true) ⟨0⟩ n
          = Engine.compile (Config.memoizing {} false) ⟨1⟩ n := by
  obtain ⟨table, column, same, inner, n, htable, hcolumn, hsame, hinner, hn, hnow⟩ :
      ∃ table column same inner n : Node,
        Node.databaseTable "t" ⟨[⟨"a", .int64, true⟩]⟩ = .ok table
          ∧ Node.column table "a" = .ok column
          ∧ Node.build .equals [.node column, .node column] [] = .ok same
          ∧ Node.build .selection [.node table] [("predicates", .node same)] = .ok inner
          ∧ Node.build .selection [.node inner]
            [("predicates", .seq [.node same, .node same])] = .ok n
          ∧ n.holds .timestampNow = false :=
    ⟨_, _, _, _, _, rfl, rfl, rfl, rfl, rfl, rfl⟩
  have btable : table.Built :=
    .of_build htable (by simp [Arg.nodes, Arg.nodesOfItems, Arg.text])
    (by simp [Arg.nodesOfFields])
  have bcolumn : column.Built :=
    .of_build hcolumn (by simpa [Arg.nodes, Arg.nodesOfItems, Arg.text] using btable)
      (by simp [Arg.nodesOfFields])
  have bsame : same.Built :=
    .of_build hsame (by simpa [Arg.nodes, Arg.nodesOfItems] using bcolumn)
      (by simp [Arg.nodesOfFields])
  have binner : inner.Built :=
    .of_build hinner (by simpa [Arg.nodes, Arg.nodesOfItems] using btable)
      (by simpa [Arg.nodes, Arg.nodesOfFields] using bsame)
  have bn : n.Built :=
    .of_build hn (by simpa [Arg.nodes, Arg.nodesOfItems] using binner)
      (by simpa [Arg.nodes, Arg.nodesOfFields, Arg.nodesOfItems] using bsame)
  obtain ⟨hsql, -, hengine⟩ := memoization_transparent bn {}
  exact ⟨table, column, same, inner, n, htable, hcolumn, hsame, hinner, hn, hnow, hsql,
    hengine hnow ⟨0⟩ ⟨1⟩⟩

end TypedQuery
