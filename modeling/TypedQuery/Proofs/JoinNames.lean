import TypedQuery.Proofs.Engine.Names
import TypedQuery.Proofs.Node.Calls
import TypedQuery.Proofs.Sql.Query

/-!
# Names of joined columns, everywhere

The schema of a join, the select list of its text and the batch that it is executed to
each name its columns. The schema marks a column of the right side if any column before it
has its name, the other two if the left side has it. They agree exactly when no name
clashes: when the right side has no column twice, once marked and once not, of which the
left side has the unmarked one.
-/

namespace TypedQuery

namespace Sql

/-- The text of a join selects the columns of both sides. -/
theorem compile_wideJoin {n left right : Node} {l r s : Schema}
    (h : n.Joins left right l r s) {config : Config} {text : String}
    (htext : compile config n = .ok text) :
    ∃ source statement leftLabel rightLabel, text = Select.render {
      source
      items := (joinItems l.names r.names).map
        (Item.render statement (sideLabels leftLabel rightLabel)) } := by
  obtain ⟨keyword, -, hresolve⟩ := resolve_wideJoin h.kind
  obtain ⟨less, hless⟩ : ∃ less, n.depth = less + 1 :=
    ⟨n.depth - 1, by have := n.depth_pos; omega⟩
  have hmemo : Keeps (fun _ _ => False)
      (Session.start { config := config.sql } config.compiler.memoize :
        Session Statement String).memo := by
    unfold Session.start
    simp only []
    split
    · exact keeps_nil _
    · exact keeps_none _
  rw [compile, RuleTable.emit, RuleTable.emitWithin_eq_walk, hless] at htext
  obtain ⟨k, rule, middle, hfound, hrule, -⟩ :=
    RuleTable.walk_eq_ok hmemo (Prod.ext htext rfl)
  rw [hresolve] at hfound
  cases hfound
  obtain ⟨left', right', leftItem, rightItem, predicates, l', r', -, -, s₃, hleft, hright,
    -, -, -, hl, hr, htext, -⟩ := joinRule_eq_ok h.kind hrule
  obtain ⟨rfl, rfl⟩ := h.of_children hleft hright
  cases hl.symm.trans h.leftSchema
  cases hr.symm.trans h.rightSchema
  exact ⟨_, _, _, _, htext⟩

end Sql

/-- The names of a join. Its schema never repeats one; its text and its batch have the
names of the schema exactly when no names clash. With a clash the batch repeats a name,
and a right join fails. -/
theorem join_names_agree {n : Node} (h : n.Built) (hkind : n.kind ∈ NodeKind.wideJoins) :
    ∃ left right l r s, n.Joins left right l r s ∧ s.names.Nodup
      ∧ (∀ config text, Sql.compile config n = .ok text →
          ∃ source statement leftLabel rightLabel, text = Sql.Select.render {
            source
            items := (Sql.joinItems l.names r.names).map
              (Sql.Item.render statement (Sql.sideLabels leftLabel rightLabel)) })
      ∧ ((Sql.joinItems l.names r.names).map Sql.Item.name = s.names
        ↔ ¬ Rules.Clash l.names r.names)
      ∧ (∀ config clock catalog lb rb, Engine.execute config clock left catalog = .ok lb →
          Engine.execute config clock right catalog = .ok rb → lb.names = l.names →
            rb.names = r.names →
          (¬ Rules.Clash l.names r.names →
            Engine.execute config clock n catalog
              = (Engine.rowPairs clock catalog.config.nullJoinKeysMatch n lb rb).map
                (lb.paired rb)
            ∧ ∀ pairs, (lb.paired rb pairs).names = s.names)
          ∧ (Rules.Clash l.names r.names →
            ∀ b, Engine.execute config clock n catalog = .ok b →
            ¬ b.names.Nodup ∧ n.kind ≠ .rightJoin))
      ∧ ∀ config clock catalog b, catalog.Fits n → n.ClashFree →
          Engine.execute config clock n catalog = .ok b → b.names = s.names := by
  obtain ⟨left, right, l, r, s, hj⟩ := h.joins hkind
  refine ⟨left, right, l, r, s, hj, hj.schema_names_nodup, fun config text htext =>
    Sql.compile_wideJoin hj htext, ?_, ?_, ?_⟩
  · rw [Sql.joinItems_names, eq_comm]
    exact hj.schema_names_iff
  · intro config clock catalog lb rb hleft hright hl hr
    refine ⟨fun hfree => ⟨Engine.execute_wideJoin hj hleft hright hl hr fun _ => hfree,
      fun pairs => ?_⟩, ?_⟩
    · rw [Batch.names_paired, hl, hr]
      exact (hj.schema_names_iff.2 hfree).symm
    · intro hclash b hb
      obtain ⟨hnames, hnodup⟩ := Engine.names_wideJoin hj hleft hright hl hr hb
      have hrepeated : ¬ b.names.Nodup := by
        rw [hnames]
        exact Rules.not_nodup_of_clash hclash
      exact ⟨hrepeated, fun hright => hrepeated (hnodup hright)⟩
  · intro config clock catalog b hfits hfree hb
    exact Engine.names_execute h (NodeKind.definition_of_wideJoins hkind).1 hfits
      hfree hj.schema hb

/-- Tables that share a column, of which the right one has no marked form. -/
theorem join_names_agree_shared :
    ∃ left right n : Node,
      Node.databaseTable "l" ⟨[⟨"a", .int64, true⟩, ⟨"b", .int64, true⟩]⟩ = .ok left
        ∧ Node.databaseTable "r" ⟨[⟨"a", .int64, true⟩, ⟨"c", .int64, true⟩]⟩ = .ok right
        ∧ Node.joinOn .rightJoin left right "a" "a" = .ok n ∧ n.Built
        ∧ n.kind ∈ NodeKind.wideJoins
        ∧ n.outputSchema.map Schema.names = .ok ["a", "b", "a_right", "c"]
        ∧ (Sql.joinItems ["a", "b"] ["a", "c"]).map Sql.Item.name
          = ["a", "b", "a_right", "c"]
        ∧ (∀ text, Sql.compile {} n = .ok text →
          ∃ source statement labels, text = Sql.Select.render {
            source
            items := (Sql.joinItems ["a", "b"] ["a", "c"]).map
              (Sql.Item.render statement labels) })
        ∧ (Engine.execute {} ⟨0⟩ n
          ⟨[("l", ⟨1, [("a", ⟨.int64, [.int 1]⟩), ("b", ⟨.int64, [.int 5]⟩)]⟩),
            ("r", ⟨1, [("a", ⟨.int64, [.int 1]⟩), ("c", ⟨.int64, [.int 7]⟩)]⟩)], {}⟩).map
            Batch.names
          = .ok ["a", "b", "a_right", "c"] := by
  obtain ⟨catalog, hcatalog⟩ : ∃ catalog : Catalog, catalog =
      ⟨[("l", ⟨1, [("a", ⟨.int64, [.int 1]⟩), ("b", ⟨.int64, [.int 5]⟩)]⟩),
        ("r", ⟨1, [("a", ⟨.int64, [.int 1]⟩), ("c", ⟨.int64, [.int 7]⟩)]⟩)], {}⟩ := ⟨_, rfl⟩
  obtain ⟨left, right, n, hleft, hright, hn, hkind, ⟨hleftChild, hrightChild⟩,
    ⟨hl, hr⟩, hlb, hrb, hb⟩ :
      ∃ left right n : Node,
        Node.databaseTable "l" ⟨[⟨"a", .int64, true⟩, ⟨"b", .int64, true⟩]⟩ = .ok left
          ∧ Node.databaseTable "r" ⟨[⟨"a", .int64, true⟩, ⟨"c", .int64, true⟩]⟩ = .ok right
          ∧ Node.joinOn .rightJoin left right "a" "a" = .ok n ∧ n.kind ∈ NodeKind.wideJoins
          ∧ (n.child "left" = .ok left ∧ n.child "right" = .ok right)
          ∧ (left.outputSchema = .ok ⟨[⟨"a", .int64, true⟩, ⟨"b", .int64, true⟩]⟩
            ∧ right.outputSchema = .ok ⟨[⟨"a", .int64, true⟩, ⟨"c", .int64, true⟩]⟩)
          ∧ (Engine.execute {} ⟨0⟩ left catalog).map Batch.names = .ok ["a", "b"]
          ∧ (Engine.execute {} ⟨0⟩ right catalog).map Batch.names = .ok ["a", "c"]
          ∧ (Engine.execute {} ⟨0⟩ n catalog).map Batch.rows = .ok 1 := by
    subst hcatalog
    refine ⟨_, _, _, rfl, rfl, rfl, by decide, ⟨rfl, rfl⟩, ⟨rfl, rfl⟩, ?_, ?_, ?_⟩
      <;> set_option maxRecDepth 2000 in with_unfolding_all decide
  have bn : n.Built :=
    Node.built_joinOn (Node.built_databaseTable hleft) (Node.built_databaseTable hright) hn
  obtain ⟨left', right', l, r, s, hj, -, hsql, hnames, hengine, -⟩ :=
    join_names_agree bn hkind
  obtain ⟨rfl, rfl⟩ := hj.of_children hleftChild hrightChild
  cases hl.symm.trans hj.leftSchema
  cases hr.symm.trans hj.rightSchema
  have hfree : ¬ Rules.Clash ["a", "b"] ["a", "c"] := by decide
  have hs : s.names = ["a", "b", "a_right", "c"] := (hnames.2 hfree).symm
  obtain ⟨lb, hlb, hlnames⟩ := map_eq_ok.1 hlb
  obtain ⟨rb, hrb, hrnames⟩ := map_eq_ok.1 hrb
  obtain ⟨b, hb, -⟩ := map_eq_ok.1 hb
  obtain ⟨hexecute, hpaired⟩ :=
    (hengine {} ⟨0⟩ catalog lb rb hlb hrb hlnames hrnames).1 hfree
  refine ⟨left, right, n, hleft, hright, hn, bn, hkind, ?_, rfl, fun text htext => ?_, ?_⟩
  · rw [hj.schema]
    exact congrArg Except.ok hs
  · obtain ⟨source, statement, _, _, h⟩ := hsql {} text htext
    exact ⟨source, statement, _, h⟩
  · rw [← hcatalog, hb]
    rw [hexecute] at hb
    obtain ⟨pairs, -, rfl⟩ := map_eq_ok.1 hb
    exact congrArg Except.ok ((hpaired pairs).trans hs)

/-- Tables that share a column, which the right one has marked as well: the schema marks
twice, nothing else does. -/
theorem join_names_clash :
    ∃ left right inner swapped : Node,
      Node.databaseTable "l" ⟨[⟨"a", .int64, true⟩]⟩ = .ok left
        ∧ Node.databaseTable "r" ⟨[⟨"a", .int64, true⟩, ⟨"a_right", .int64, true⟩]⟩
          = .ok right
        ∧ Node.joinOn .innerJoin left right "a" "a" = .ok inner
        ∧ Node.joinOn .rightJoin left right "a" "a" = .ok swapped
        ∧ inner.outputSchema.map Schema.names = .ok ["a", "a_right", "a_right_right"]
        ∧ Sql.compile {} inner = .ok ("SELECT t0.`a`, t1.`a` AS `a_right`, t1.`a_right` "
            ++ "FROM `l` t0 INNER JOIN `r` t1 ON (t0.`a` = t1.`a`)")
        ∧ (Engine.execute {} ⟨0⟩ inner ⟨[("l", ⟨1, [("a", ⟨.int64, [.int 1]⟩)]⟩),
            ("r", ⟨1, [("a", ⟨.int64, [.int 1]⟩), ("a_right", ⟨.int64, [.int 2]⟩)]⟩)],
              {}⟩).map Batch.names
          = .ok ["a", "a_right", "a_right"]
        ∧ (Engine.execute {} ⟨0⟩ swapped ⟨[("l", ⟨1, [("a", ⟨.int64, [.int 1]⟩)]⟩),
            ("r", ⟨1, [("a", ⟨.int64, [.int 1]⟩), ("a_right", ⟨.int64, [.int 2]⟩)]⟩)],
              {}⟩).map Batch.names
          = .error (.schema "duplicate output column: a_right") := by
  refine ⟨_, _, _, _, rfl, rfl, rfl, rfl, rfl, ?_, ?_, ?_⟩
    <;> set_option maxRecDepth 2000 in with_unfolding_all decide

end TypedQuery
