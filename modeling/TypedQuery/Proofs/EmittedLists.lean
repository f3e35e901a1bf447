import TypedQuery.Proofs.Node.Calls
import TypedQuery.Proofs.Sql.LaidTables

/-!
# Empty lists and negative counts

A statement lists what its nodes hold and counts as they say, and nothing is refused
for it. So its lists are empty exactly where a node has nothing to list: no columns,
options, branches or arguments. Its counts are negative exactly where a limit was
built with a negative number.
-/

namespace TypedQuery

/-- The text of a node has a layout in which every list and every count was written for the
node or one below it. A list is empty if its node leaves it empty, and only then; a count
is that of its node. What the node itself leaves empty, or counts below zero, is there. -/
theorem emitted_lists {n : Node} (h : n.Built) {config : Config} {text : String}
    (htext : Sql.compile config n = .ok text) :
    ∃ layout : Sql.Layout, layout.text config.sql.identifierQuote = text
      ∧ (∀ listing owner entries, .list listing owner entries ∈ layout.marks →
          owner.Within n ∧ (entries = 0 ↔ owner.LeavesEmpty))
      ∧ (∀ clause owner rows, .count clause owner rows ∈ layout.marks →
          owner.Within n ∧ rows = Sql.rowCount owner clause)
      ∧ (n.LeavesEmpty → ∃ listing, .list listing n 0 ∈ layout.marks)
      ∧ ∀ clause, Sql.rowCount n clause < 0 →
        .count clause n (Sql.rowCount n clause) ∈ layout.marks := by
  obtain ⟨shown, ⟨layout, hlayout, hfaithful, hshown⟩, hempty, hcounts⟩ :=
    Sql.compile_complete h htext
  refine ⟨layout, hlayout, fun _ _ _ hmark => hfaithful _ hmark,
    fun _ _ _ hmark => hfaithful _ hmark, fun hn => ?_,
    fun clause hneg => hshown _ (hcounts clause hneg)⟩
  obtain ⟨listing, hlisting⟩ := hempty hn
  exact ⟨listing, hshown _ hlisting⟩

/-- A table that is limited to fewer than no rows. -/
theorem emitted_lists_limit :
    ∃ table n : Node, Node.databaseTable "t" ⟨[⟨"a", .int64, true⟩]⟩ = .ok table
      ∧ Node.build .limit [.node table, .value (.int64 (-1))] [] = .ok n
      ∧ ∃ layout : Sql.Layout, layout.text '\x60' = "SELECT t0.* FROM `t` t0 LIMIT -1"
        ∧ .count .limit n (-1) ∈ layout.marks
        ∧ ∀ listing owner entries, .list listing owner entries ∈ layout.marks →
          owner.Within n ∧ (entries = 0 ↔ owner.LeavesEmpty) := by
  obtain ⟨table, n, htable, hn, hkind, hcount, htext⟩ :
      ∃ table n : Node, Node.databaseTable "t" ⟨[⟨"a", .int64, true⟩]⟩ = .ok table
        ∧ Node.build .limit [.node table, .value (.int64 (-1))] [] = .ok n ∧ n.kind = .limit
        ∧ n.intField Sql.CountClause.limit.field = .ok (-1)
        ∧ Sql.compile {} n = .ok "SELECT t0.* FROM `t` t0 LIMIT -1" := by
    refine ⟨_, _, rfl, rfl, rfl, rfl, ?_⟩
    set_option maxRecDepth 2000 in decide
  have bn : n.Built :=
    .of_build hn
      (by simpa [Arg.nodes, Arg.nodesOfItems] using Node.built_databaseTable htable)
    (by simp [Arg.nodesOfFields])
  have hrows : Sql.rowCount n .limit = -1 := by
    rw [Sql.rowCount, if_pos hkind, hcount]
    rfl
  obtain ⟨layout, hlayout, hlists, -, -, hcounts⟩ := emitted_lists bn htext
  have hmark := hcounts .limit (by rw [hrows]; decide)
  rw [hrows] at hmark
  exact ⟨table, n, htable, hn, layout, hlayout, hmark, hlists⟩

/-- One node for each way in which nothing is listed, and a limit and an offset below zero:
all of them build, and none is refused. -/
theorem emitted_lists_empty :
    ∃ table aggregation member condition first limited : Node,
      Node.databaseTable "t" ⟨[⟨"a", .int64, true⟩]⟩ = .ok table
        ∧ Node.build .aggregation [.node table] [] = .ok aggregation
        ∧ Sql.compile {} aggregation = .ok "SELECT  FROM `t` t0"
        ∧ Node.build .contains [.value (.int64 1), .seq []] [] = .ok member
        ∧ Sql.compile {} member = .ok "1 IN ()"
        ∧ Node.build .searchedCase [.seq [], .seq []] [] = .ok condition
        ∧ Sql.compile {} condition = .ok "CASE ELSE NULL END"
        ∧ Node.build .coalesce [] [] = .ok first ∧ Sql.compile {} first = .ok "coalesce()"
        ∧ Node.build .limit [.node table, .value (.int64 (-1)), .value (.int64 (-2))]
          [] = .ok limited
        ∧ Sql.compile {} limited = .ok "SELECT t0.* FROM `t` t0 LIMIT -1 OFFSET -2" := by
  refine ⟨_, _, _, _, _, _, rfl, rfl, ?_, rfl, ?_, rfl, ?_, rfl, ?_, rfl, ?_⟩
    <;> set_option maxRecDepth 2000 in decide

end TypedQuery
