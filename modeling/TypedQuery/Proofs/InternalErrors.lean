import TypedQuery.Proofs.Engine.SafeTables
import TypedQuery.Proofs.Node.Calls
import TypedQuery.Proofs.Sql.Safe

/-!
# No internal errors

A value or a table that builds holds all that the rules of both targets read: each field is
there and in its shape, the values below a node become expressions and the tables plans,
and no statement is closed that was not opened. What the targets refuse, they refuse as
something that they don't support.
-/

namespace TypedQuery

/-- A value or a table that builds is compiled, or refused for a reason of its own: never
because the program found itself in a state it does not expect. On the engine a value
becomes an expression and a table a plan. -/
theorem no_internal_errors {n : Node} (h : n.Built)
    (hkind : n.kind.isValue = true ∨ n.kind.isTable = true) (config : Config) :
    (∀ text, Sql.compile config n ≠ .error (.internal text))
      ∧ ∀ clock : Engine.Clock,
        (∀ text, Engine.compile config clock n ≠ .error (.internal text))
        ∧ ∀ l, Engine.compile config clock n = .ok l →
          (n.kind.isValue = true → ∃ e, l = .expr e)
            ∧ (n.kind.isTable = true → ∃ p, l = .plan p) := by
  refine ⟨(Sql.compile_proper h config).not_internal, fun clock => ?_⟩
  have hanswer := Engine.answer_suits h hkind clock
  rw [Engine.compile_eq_answer h]
  exact ⟨hanswer.not_internal,
    fun l hl => ⟨(hanswer.of_ok hl).expr, (hanswer.of_ok hl).plan⟩⟩

/-- A column of a join of two tables, selected by another name: compiled by both targets. -/
theorem no_internal_errors_joined :
    ∃ left right joined column n : Node,
      Node.databaseTable "l" ⟨[⟨"k", .int64, true⟩, ⟨"a", .int64, true⟩]⟩ = .ok left
        ∧ Node.databaseTable "r" ⟨[⟨"j", .int64, true⟩, ⟨"a", .string, true⟩]⟩ = .ok right
        ∧ Node.joinOn .leftJoin left right "k" "j" = .ok joined
        ∧ Node.column joined "a_right" = .ok column
        ∧ Node.selectAs joined column "b" = .ok n ∧ n.Built ∧ n.kind.isTable = true
        ∧ (∀ text, Sql.compile {} n ≠ .error (.internal text))
        ∧ (∀ text, Engine.compile {} ⟨0⟩ n ≠ .error (.internal text))
        ∧ ∀ l, Engine.compile {} ⟨0⟩ n = .ok l → ∃ p, l = .plan p := by
  obtain ⟨left, right, joined, column, n, hleft, hright, hjoined, hcolumn, hn, htable⟩ :
      ∃ left right joined column n : Node,
        Node.databaseTable "l" ⟨[⟨"k", .int64, true⟩, ⟨"a", .int64, true⟩]⟩ = .ok left
          ∧ Node.databaseTable "r" ⟨[⟨"j", .int64, true⟩, ⟨"a", .string, true⟩]⟩ = .ok right
          ∧ Node.joinOn .leftJoin left right "k" "j" = .ok joined
          ∧ Node.column joined "a_right" = .ok column
          ∧ Node.selectAs joined column "b" = .ok n ∧ n.kind.isTable = true :=
    ⟨_, _, _, _, _, rfl, rfl, rfl, rfl, rfl, rfl⟩
  have bjoined : joined.Built :=
    Node.built_joinOn (Node.built_databaseTable hleft)
      (Node.built_databaseTable hright) hjoined
  have bn : n.Built := Node.built_selectAs bjoined (Node.built_column bjoined hcolumn) hn
  obtain ⟨hsql, hengine⟩ := no_internal_errors bn (Or.inr htable) {}
  obtain ⟨hproper, hplan⟩ := hengine ⟨0⟩
  exact ⟨left, right, joined, column, n, hleft, hright, hjoined, hcolumn, hn, bn,
    htable, hsql, hproper, fun l hl => (hplan l hl).2 htable⟩

end TypedQuery
