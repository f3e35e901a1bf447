import TypedQuery.Proofs.Node.Calls
import TypedQuery.Proofs.Sql.Reach

/-!
# Semi joins in SQL

A semi or anti join selects the columns of its left side only. A statement that selects
from it finds the tables of both sides, and refers to either through the label of the join.
-/

namespace TypedQuery

open Emission

namespace Sql

variable {s : Statement} {table : Node}

theorem run_expand_of_none (h : s.scope.reach? table = none)
    (memo : Option (List (Node × String))) :
    (expand table).run ⟨s, memo⟩
      = (.error (.inexpressible "a selection may only expand tables of its own source"),
        ⟨s, memo⟩) := by
  rw [expand, run_target_bind, h]
  rfl

/-- A table from a subquery without other names is expanded column by column. -/
theorem run_expand_of_through {label : String}
    (h : s.scope.reach? table = some (.through label false [])) {schema : Schema}
    (hschema : table.outputSchema = .ok schema) (memo : Option (List (Node × String))) :
    (expand table).run ⟨s, memo⟩
      = (.ok (schema.names.map (s.qualified label)), ⟨s, memo⟩) := by
  have hcolumn : ∀ column : ColumnInfo,
      expandColumn s table column = .ok (s.qualified label column.name) := by
    intro column
    rw [expandColumn, Statement.column_eq, Statement.outputName, h]
    exact congrArg Except.ok (if_pos rfl)
  have hcolumns : expandColumns s table = .ok (schema.names.map (s.qualified label)) := by
    rw [expandColumns, hschema]
    refine mapM_eq_ok.2 ?_
    rw [Schema.names, List.map_map, List.forall₂_map_right_iff, List.forall₂_same]
    exact fun column _ => hcolumn column
  rw [expand, run_target_bind, h]
  exact congrArg (·, _) hcolumns

/-- What is written of a semi or anti join. -/
theorem Query.Written.eq_joined {q : Query} (h : q.Written)
    (hkind : q.table.kind = .leftSemiJoin ∨ q.table.kind = .leftAntiJoin) :
    ∃ clauses keyword predicates leftLabel left rightLabel right,
      q = .joined q.table clauses keyword predicates leftLabel left rightLabel right []
        ∧ q.table.child "right" = .ok right.table := by
  cases h with
  | semi _ _ _ hright => exact ⟨_, _, _, _, _, _, _, rfl, hright⟩
  | stored hk | rows hk _ _ _ | filled hk _ _ _ _ _ =>
      rcases hkind with h | h <;> cases hk.symm.trans h
  | whole hk _ _ _ _ | named hk _ _ _ =>
      simp only [Query.table] at hkind
      rcases hkind with h | h <;> simp [h] at hk
  | joined hk =>
      simp only [Query.table] at hkind
      rcases hkind with h | h <;> simp [h, NodeKind.mem_wideJoins] at hk

/-- The right side of a semi or anti join is found through the label of the join. -/
theorem Query.Written.reachAs_right {q : Query} (h : q.Written) (hq : q.table.Built)
    (hkind : q.table.kind = .leftSemiJoin ∨ q.table.kind = .leftAntiJoin) {right : Node}
    (hright : q.table.child "right" = .ok right) (label : String) :
    q.reachAs label right = some (.through label false []) := by
  have hne : (q.table == right) = false :=
    hq.beq_eq_false (hq.of_child hright) fun heq => by
      have hless := Node.depth_of_mem_children (hq.mem_children_of_child hright)
      rw [heq] at hless
      exact Nat.lt_irrefl _ hless
  have hopen : q.table.kind ≠ .aggregation := by
    rcases hkind with hk | hk <;> rw [hk] <;> decide
  obtain ⟨clauses, keyword, predicates, leftLabel, left, rightLabel, side, heq, hside⟩ :=
    h.eq_joined hkind
  cases hright.symm.trans hside
  have hreach : q.scope.reach? side.table = some (.through rightLabel true []) := by
    rw [heq, Query.reach?_joined, if_pos BEq.rfl]
    simp [Reach.rename, Renames.andThen]
  rw [Query.reachAs, hne, Query.inside, Query.exported, if_neg hopen, hreach]
  rfl

end Sql

/-- Next to a semi or anti join in the `FROM` clause, a table that neither side reaches
is neither qualified nor expanded. One that a side reaches is qualified with the label of
the join, unless it is ambiguous, and so is the right side itself, although the join
selects none of its columns. -/
theorem semi_join_references {join right : Node} (h : join.Built)
    (hkind : join.kind = .leftSemiJoin ∨ join.kind = .leftAntiJoin)
    (hright : join.child "right" = .ok right) {depth : Nat}
    (hdepth : join.depth ≤ depth) {s after : Session Sql.Statement String}
    {item : String × String}
    (hrun : (Sql.fromItem (Sql.rules.emitWithin depth) join).run s = (.ok item, after)) :
    (∀ table : Node, table.Built → s.target.scope.reach? table = none → table ≠ join →
      ¬ join.Reaches table →
        (∀ c, after.target.column table c = .ok (after.target.quote c))
          ∧ (Sql.expand table).run after
            = (.error (.inexpressible
              "a selection may only expand tables of its own source"), after))
      ∧ (∀ table : Node, s.target.scope.reach? table = none → join.Reaches table → ∀ c,
        after.target.column table c
            = .error (.inexpressible
              (table.kind.name ++ " is reachable through more than one subquery"))
          ∨ ∃ name, after.target.column table c = .ok (after.target.qualified item.2 name))
      ∧ (s.target.scope.reach? right = none →
        (∀ c, after.target.column right c = .ok (after.target.qualified item.2 c))
        ∧ ∀ schema, right.outputSchema = .ok schema →
          (Sql.expand right).run after
            = (.ok (schema.names.map (after.target.qualified item.2)), after)) := by
  have htable : join.kind.isTable = true := by
    rcases hkind with hk | hk <;> rw [hk] <;> decide
  have hopen : join.kind ≠ .aggregation := by
    rcases hkind with hk | hk <;> rw [hk] <;> decide
  obtain ⟨q, hq⟩ := Sql.fromItem_eq_ok h htable hdepth hrun
  obtain rfl := hq.table
  have hfound : ∀ table : Node, table.Built →
      (q.reachAs item.2 table ≠ none ↔ table = q.table ∨ q.table.Reaches table) := by
    intro table hb
    rw [Sql.Query.reachAs_ne_none_iff h hb,
      Sql.Query.inside_ne_none_iff (hq.written.reach?_ne_none_iff h hb)]
    simp [hopen]
  refine ⟨fun table hb hnew hne hfar => ?_, fun table hnew hreach c => ?_, fun hnew => ?_⟩
  · have hnone : after.target.scope.reach? table = none := by
      rw [hq.reach?_of_none hnew]
      exact not_not.1 (mt (hfound table hb).1 (not_or.2 ⟨hne, hfar⟩))
    refine ⟨fun c => ?_, Sql.run_expand_of_none hnone after.memo⟩
    rw [Sql.Statement.column_eq, hnone]
  · have hb := (hreach.built_of h).1
    obtain ⟨reach, hsome⟩ :=
      Option.ne_none_iff_exists'.1 ((hfound table hb).2 (Or.inr hreach))
    rw [Sql.Statement.column_eq, hq.reach?_of_none hnew, hsome]
    rw [Sql.Query.reachAs, if_neg (by rw [h.beq_eq_false hb (hreach.ne h).symm]; decide)]
      at hsome
    obtain ⟨inside, -, rfl⟩ := Option.map_eq_some_iff.1 hsome
    cases inside with
    | ambiguous => exact Or.inl rfl
    | through label direct renames => exact Or.inr ⟨_, rfl⟩
  · have hthrough : after.target.scope.reach? right = some (.through item.2 false []) := by
      rw [hq.reach?_of_none hnew, hq.written.reachAs_right h hkind hright]
    refine ⟨fun c => ?_,
      fun schema hschema => Sql.run_expand_of_through hthrough hschema after.memo⟩
    rw [Sql.Statement.column_eq, hthrough]
    rfl

/-- A semi join that selects one column: the other table has two, and both are found. -/
theorem semi_join_references_right :
    ∃ (left right join : Node) (item : String) (after : Session Sql.Statement String),
      Node.databaseTable "l" ⟨[⟨"k", .int64, true⟩]⟩ = .ok left
        ∧ Node.databaseTable "r" ⟨[⟨"k", .int64, true⟩, ⟨"x", .int64, true⟩]⟩ = .ok right
        ∧ Node.joinOn .leftSemiJoin left right "k" "k" = .ok join
        ∧ join.outputSchema.map Schema.names = .ok ["k"]
        ∧ (Sql.fromItem (Sql.rules.emitWithin join.depth) join).run
          (Session.start { config := {} } true)
          = (.ok (item, "t2"), after)
        ∧ (∀ c, after.target.column right c = .ok (after.target.qualified "t2" c))
        ∧ (Sql.expand right).run after
            = (.ok (["k", "x"].map (after.target.qualified "t2")), after) := by
  obtain ⟨left, right, join, item, hleft, hright, hjoin, hkind, hchild, hnames,
    hschema, hitem⟩ :
      ∃ (left right join : Node) (item : String),
        Node.databaseTable "l" ⟨[⟨"k", .int64, true⟩]⟩ = .ok left
          ∧ Node.databaseTable "r" ⟨[⟨"k", .int64, true⟩, ⟨"x", .int64, true⟩]⟩ = .ok right
          ∧ Node.joinOn .leftSemiJoin left right "k" "k" = .ok join
          ∧ join.kind = .leftSemiJoin
          ∧ join.child "right" = .ok right ∧ join.outputSchema.map Schema.names = .ok ["k"]
          ∧ right.outputSchema = .ok ⟨[⟨"k", .int64, true⟩, ⟨"x", .int64, true⟩]⟩
          ∧ ((Sql.fromItem (Sql.rules.emitWithin join.depth) join).run
            (Session.start { config := {} } true)).1
            = .ok (item, "t2") := by
    refine ⟨_, _, _,
      "(SELECT t0.* FROM `l` t0 LEFT SEMI JOIN `r` t1 ON (t0.`k` = t1.`k`)) t2", rfl, rfl,
      rfl, rfl, rfl, rfl, rfl, ?_⟩
    decide +kernel
  have bjoin : join.Built :=
    Node.built_joinOn (Node.built_databaseTable hleft)
      (Node.built_databaseTable hright) hjoin
  rcases hrun : (Sql.fromItem (Sql.rules.emitWithin join.depth) join).run
    (Session.start { config := {} } true)
    with ⟨result, after⟩
  rw [hrun] at hitem
  cases hitem
  obtain ⟨-, -, hfound⟩ :=
    semi_join_references bjoin (Or.inl hkind) hchild (Nat.le_refl _) hrun
  obtain ⟨hcolumn, hexpand⟩ := hfound rfl
  exact ⟨left, right, join, item, after, hleft, hright, hjoin, hnames, hrun, hcolumn,
    hexpand _ hschema⟩

/-- A selection of all columns of the right side of a semi join, and of one column
that both sides have. -/
theorem semi_join_expanded :
    ∃ left right join column n m : Node,
      Node.databaseTable "l" ⟨[⟨"k", .int64, true⟩]⟩ = .ok left
        ∧ Node.databaseTable "r" ⟨[⟨"k", .int64, true⟩, ⟨"x", .int64, true⟩]⟩ = .ok right
        ∧ Node.joinOn .leftSemiJoin left right "k" "k" = .ok join
        ∧ Node.column right "k" = .ok column
        ∧ Node.build .selection [.node join] [("selections", .seq [.node right])] = .ok n
        ∧ Node.selectAs join column "y" = .ok m
        ∧ Sql.compile {} n = .ok ("SELECT t2.`k`, t2.`x` FROM "
            ++ "(SELECT t0.* FROM `l` t0 LEFT SEMI JOIN `r` t1 ON (t0.`k` = t1.`k`)) t2")
        ∧ Sql.compile {} m = .ok ("SELECT t2.`k` AS `y` FROM (SELECT t0.* FROM "
            ++ "`l` t0 LEFT SEMI JOIN `r` t1 ON (t0.`k` = t1.`k`)) t2") := by
  refine ⟨_, _, _, _, _, _, rfl, rfl, rfl, rfl, rfl, rfl, ?_, ?_⟩ <;> decide +kernel

end TypedQuery
