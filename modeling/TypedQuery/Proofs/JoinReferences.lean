import TypedQuery.Proofs.Engine.References
import TypedQuery.Proofs.Node.Calls
import TypedQuery.Proofs.Sql.Carried
import TypedQuery.Sql.Compile

/-!
# References to a side of a join, above the join

A reference to a column of the right side of a join can be written with the right side or
with the join as its table. Over the join both are looked up among the columns of the join,
the first under the name that the column had, the second under the name that it got. They
are the same exactly as long as the column kept its name; if it did not, the left side has
a column of that name, and the first reference silently reads that one.
-/

namespace TypedQuery

namespace Node

variable {table other old new : Node} {name : String}

/-- Columns of one name and one type differ in their tables only. -/
theorem unowned_of_column {s t : Schema} (hold : column table name = .ok old)
    (hnew : column other name = .ok new) (hs : table.schema? = some s)
    (ht : other.schema? = some t) (htype : s.dataType? name = t.dataType? name) :
    old.unowned = new.unowned := by
  rw [column_eq_ok hold, column_eq_ok hnew, hs, ht, Option.bind_some,
    Option.bind_some, htype]
  rfl

end Node

namespace Engine

variable {join left right old new : Node} {l r s : Schema} {config : Config} {clock : Clock}
    {catalog : Catalog}
  {lb rb : Batch} {i : Nat} {c name label : String}

/-- What is selected from a join under one name. -/
theorem execute_selectAs_column {n : Node} (h : join.Built)
    {pairs : Except Error (List Join.RowPair)}
    (hjoin : execute config clock join catalog = pairs.map (lb.paired rb)) {table : Node}
    (hbuilt : old.Built) (hold : Node.column table c = .ok old)
    (hn : Node.selectAs join old label = .ok n) {column : List Join.RowPair → Column}
    (hfind : ∀ pairs, (lb.paired rb pairs).column? c = some (column pairs)
      ∧ (column pairs).length = pairs.length) :
    execute config clock n catalog = pairs.map fun pairs =>
      ⟨pairs.length, [(label, column pairs)]⟩ := by
  obtain ⟨hkind, hname⟩ := Node.name_of_column hold
  have hanswer : rules.answer clock old = .ok (.expr (.column c)) := by
    rw [answer_column hbuilt hkind, hname]
    rfl
  rw [execute_selectAs (Node.built_selectAs h hbuilt hn) hn hanswer, hjoin, map_bind]
  cases pairs with
  | error e => rfl
  | ok pairs => exact Batch.select_named (hfind pairs).1 (hfind pairs).2

end Engine

/-- A reference to a column `c` of the right side is worth as much as one to the column
`name` of the join that it became if both names are the same. Otherwise it reads the column
`c` of the left side, at the rows that were joined. -/
theorem join_references {join : Node} (h : join.Built)
    (hkind : join.kind ∈ [.innerJoin, .leftJoin, .outerJoin]) :
    ∃ left right l r s, join.Joins left right l r s ∧ ∀ i c, r.names[i]? = some c →
      ∃ name, s.names[l.names.length + i]? = some name
        ∧ (c ∈ l.names → name = c ++ Rules.rightMark)
        ∧ (¬ Rules.Clash l.names r.names → c ∉ l.names → name = c)
        ∧ ∀ old new, Node.column right c = .ok old → Node.column join name = .ok new →
          (name = c → ∀ n m : Node, n.Built → m.Built → m.kind ∈ NodeKind.oneTable →
            (n == Node.rereadParts old new m) = true → ∀ config clock catalog,
              Engine.execute config clock n catalog = Engine.execute config clock m catalog)
          ∧ ∀ config clock catalog lb rb, Engine.execute config clock left catalog = .ok lb →
            Engine.execute config clock right catalog = .ok rb →
            lb.names = l.names → rb.names = r.names →
            ∃ rc, rb.column? c = some rc
              ∧ (name = Rules.markedName l.names c →
                ∀ label n, Node.selectAs join new label = .ok n →
                Engine.execute config clock n catalog
                = (Engine.rowPairs clock catalog.config.nullJoinKeysMatch join lb rb).map
                  fun pairs => ⟨pairs.length, [(label, rc.gather (pairs.map (·.2)))]⟩)
              ∧ (c ∈ l.names → ∃ lc, lb.column? c = some lc
                ∧ ∀ label n, Node.selectAs join old label = .ok n →
                Engine.execute config clock n catalog
                = (Engine.rowPairs clock catalog.config.nullJoinKeysMatch join lb rb).map
                  fun pairs => ⟨pairs.length, [(label, lc.gather (pairs.map (·.1)))]⟩) := by
  have hwide : join.kind ∈ NodeKind.wideJoins ∧ join.kind ≠ .rightJoin := by
    simp only [List.mem_cons, List.not_mem_nil, or_false] at hkind
    rcases hkind with hkind | hkind | hkind <;> (rw [hkind]; decide)
  obtain ⟨left, right, l, r, s, hj⟩ := h.joins hwide.1
  refine ⟨left, right, l, r, s, hj, fun i c hc => ?_⟩
  obtain ⟨column, hcolumn, rfl⟩ : ∃ column,
      r.columns[i]? = some column ∧ column.name = c := by
    rw [Schema.names, List.getElem?_map] at hc
    exact Option.map_eq_some_iff.1 hc
  obtain ⟨name, hget, ⟨hleft, hbefore⟩, hshared, hfree⟩ := hj.right_column hcolumn
  have hlength : l.columns.length = l.names.length := by rw [Schema.names, List.length_map]
  refine ⟨name, ?_, ?_, ?_, fun old new hold hnew => ⟨?_, ?_⟩⟩
  · rw [Schema.names, List.getElem?_map, ← hlength, hget]
    rfl
  · intro hmem
    rw [hshared hmem, Rules.markedName, if_pos hmem]
  · intro hclash hmem
    rw [hfree hclash, Rules.markedName, if_neg hmem]
  · rintro rfl n m hn hm hone hreread config clock catalog
    have htype : r.dataType? column.name = s.dataType? column.name := by
      rw [Schema.dataType?, Schema.column?_of_getElem? hj.right_nodup hcolumn,
        Schema.dataType?, Schema.column?_of_getElem? hj.schema_names_nodup hget]
    have hsame : old.unowned = new.unowned :=
      Node.unowned_of_column hold hnew (Node.schema?_of_outputSchema hj.rightSchema)
        (Node.schema?_of_outputSchema hj.schema) htype
    have hcolumn : m.kind ≠ .tableColumn := by
      intro heq
      rw [heq] at hone
      exact absurd hone (by decide)
    have hparts := hn.unownedParts_of_reread hm (Node.built_column hj.right_built hold)
      (Node.built_column h hnew) hsame hcolumn hreread
    exact Engine.execute_unowned hn hm (Node.kind_of_parts hparts ▸ hone) hparts
      config clock catalog
  · intro config clock catalog lb rb hlb hrb hl hr
    have hjoin := Engine.execute_wideJoin hj hlb hrb hl hr fun hright =>
      absurd hright hwide.2
    obtain ⟨rc, hrc⟩ : ∃ rc, rb.columns[i]? = some (column.name, rc) := by
      rw [← hr, Batch.names, List.getElem?_map] at hc
      obtain ⟨⟨other, rc⟩, hrc, hother⟩ := Option.map_eq_some_iff.1 hc
      exact ⟨rc, by rw [hrc, ← hother]⟩
    refine ⟨rc, Batch.column?_of_mem (hr ▸ hj.right_nodup)
      (List.mem_of_getElem? hrc), ?_, ?_⟩
    · rintro hmarked label n hn
      refine Engine.execute_selectAs_column h hjoin (Node.built_column h hnew)
        hnew hn fun pairs =>
        ⟨?_, Batch.length_gather_pairs rc pairs _⟩
      rw [hmarked] at hleft hbefore ⊢
      rw [← hl] at hleft hbefore ⊢
      rw [← hr] at hbefore
      exact Batch.column?_paired_right pairs hrc hleft hbefore
    · intro hmem
      obtain ⟨lc, hlc⟩ : ∃ lc, (column.name, lc) ∈ lb.columns := by
        rw [← hl] at hmem
        obtain ⟨⟨other, lc⟩, hlc, hother⟩ := List.mem_map.1 hmem
        exact ⟨lc, by rw [← hother]; exact hlc⟩
      have hfind := Batch.column?_of_mem (hl ▸ hj.left_nodup) hlc
      refine ⟨lc, hfind, fun label n hn => ?_⟩
      exact Engine.execute_selectAs_column h hjoin (Node.built_column hj.right_built hold)
        hold hn fun pairs =>
        ⟨Batch.column?_paired_left rb pairs hfind, Batch.length_gather_pairs lc pairs _⟩

/-- A column that keeps its name: both references give it. -/
theorem join_references_kept :
    ∃ (left right join old new n m : Node) (catalog : Catalog) (lb rb : Batch) (rc : Column),
      Node.databaseTable "l" ⟨[⟨"k", .int64, true⟩]⟩ = .ok left
        ∧ Node.databaseTable "r" ⟨[⟨"k", .int64, true⟩, ⟨"b", .int64, true⟩]⟩ = .ok right
        ∧ Node.joinOn .innerJoin left right "k" "k" = .ok join ∧ join.Built
        ∧ join.kind ∈ [.innerJoin, .leftJoin, .outerJoin]
        ∧ Node.column right "b" = .ok old ∧ Node.column join "b" = .ok new
        ∧ Node.selectAs join old "x" = .ok m ∧ Node.selectAs join new "x" = .ok n
        ∧ Engine.execute {} ⟨0⟩ left catalog = .ok lb
        ∧ Engine.execute {} ⟨0⟩ right catalog = .ok rb
        ∧ rb.column? "b" = some rc
        ∧ Engine.execute {} ⟨0⟩ n catalog = Engine.execute {} ⟨0⟩ m catalog
        ∧ Engine.execute {} ⟨0⟩ n catalog
          = (Engine.rowPairs ⟨0⟩ catalog.config.nullJoinKeysMatch join lb rb).map
            (fun pairs => ⟨pairs.length, [("x", rc.gather (pairs.map (·.2)))]⟩)
        ∧ Engine.execute {} ⟨0⟩ n catalog = .ok ⟨1, [("x", ⟨.int64, [.int 7]⟩)]⟩ := by
  obtain ⟨catalog, hcatalog⟩ :
      ∃ catalog : Catalog,
        catalog = ⟨[("l", ⟨1, [("k", ⟨.int64, [.int 1]⟩)]⟩),
          ("r", ⟨1, [("k", ⟨.int64, [.int 1]⟩), ("b", ⟨.int64, [.int 7]⟩)]⟩)], {}⟩ :=
          ⟨_, rfl⟩
  obtain ⟨left, right, join, old, new, n, m, hleft, hright, hjoin, hkind, hold, hnew, hm,
    hn, ⟨hone, hreread⟩,
      ⟨hleftChild, hrightChild⟩, ⟨hl, hr⟩, hlb, hrb, hb⟩ :
      ∃ left right join old new n m : Node,
        Node.databaseTable "l" ⟨[⟨"k", .int64, true⟩]⟩ = .ok left
        ∧ Node.databaseTable "r" ⟨[⟨"k", .int64, true⟩, ⟨"b", .int64, true⟩]⟩ = .ok right
        ∧ Node.joinOn .innerJoin left right "k" "k" = .ok join
        ∧ join.kind ∈ [.innerJoin, .leftJoin, .outerJoin]
        ∧ Node.column right "b" = .ok old ∧ Node.column join "b" = .ok new
        ∧ Node.selectAs join old "x" = .ok m ∧ Node.selectAs join new "x" = .ok n
        ∧ (m.kind ∈ NodeKind.oneTable ∧ (n == Node.rereadParts old new m) = true)
        ∧ (join.child "left" = .ok left ∧ join.child "right" = .ok right)
        ∧ (left.outputSchema = .ok ⟨[⟨"k", .int64, true⟩]⟩
          ∧ right.outputSchema = .ok ⟨[⟨"k", .int64, true⟩, ⟨"b", .int64, true⟩]⟩)
        ∧ (Engine.execute {} ⟨0⟩ left catalog).map Batch.names = .ok ["k"]
        ∧ (Engine.execute {} ⟨0⟩ right catalog).map Batch.names = .ok ["k", "b"]
        ∧ Engine.execute {} ⟨0⟩ n catalog = .ok ⟨1, [("x", ⟨.int64, [.int 7]⟩)]⟩ := by
    subst hcatalog
    refine ⟨_, _, _, _, _, _, _, rfl, rfl, rfl, by decide, rfl, rfl, rfl, rfl,
      ⟨by decide, ?_⟩, ⟨rfl, rfl⟩, ⟨rfl, rfl⟩, ?_, ?_, ?_⟩ <;> decide +kernel
  have bright := Node.built_databaseTable hright
  have bjoin : join.Built := Node.built_joinOn (Node.built_databaseTable hleft) bright hjoin
  have bm : m.Built := Node.built_selectAs bjoin (Node.built_column bright hold) hm
  have bn : n.Built := Node.built_selectAs bjoin (Node.built_column bjoin hnew) hn
  obtain ⟨left', right', l, r, s, hj, hreferences⟩ := join_references bjoin hkind
  obtain ⟨rfl, rfl⟩ := hj.of_children hleftChild hrightChild
  cases hl.symm.trans hj.leftSchema
  cases hr.symm.trans hj.rightSchema
  obtain ⟨name, -, -, hfree, hsame⟩ := hreferences 1 "b" rfl
  obtain rfl : name = "b" := hfree (by decide) (by decide)
  obtain ⟨hany, hread⟩ := hsame old new hold hnew
  obtain ⟨lb, hlb, hlnames⟩ := map_eq_ok.1 hlb
  obtain ⟨rb, hrb, hrnames⟩ := map_eq_ok.1 hrb
  obtain ⟨rc, hrc, hexecute, -⟩ := hread {} ⟨0⟩ catalog lb rb hlb hrb hlnames hrnames
  exact ⟨left, right, join, old, new, n, m, catalog, lb, rb, rc, hleft, hright, hjoin,
    bjoin, hkind, hold, hnew, hm, hn, hlb, hrb, hrc, hany rfl n m bn bm hone hreread {}
    ⟨0⟩ catalog, hexecute rfl "x" n hn, hb⟩

/-- A column that both sides have: the reference to that of the right side gives
that of the left side. -/
theorem join_references_shadowed :
    ∃ left right join old new n m : Node,
      Node.databaseTable "l" ⟨[⟨"k", .int64, true⟩, ⟨"a", .int64, true⟩]⟩ = .ok left
        ∧ Node.databaseTable "r" ⟨[⟨"k", .int64, true⟩, ⟨"a", .int64, true⟩]⟩ = .ok right
        ∧ Node.joinOn .innerJoin left right "k" "k" = .ok join
        ∧ join.outputSchema.map Schema.names = .ok ["k", "a", "k_right", "a_right"]
        ∧ Node.column right "a" = .ok old ∧ Node.column join "a_right" = .ok new
        ∧ Node.selectAs join old "x" = .ok m ∧ Node.selectAs join new "x" = .ok n
        ∧ Engine.execute {} ⟨0⟩ m
          ⟨[("l", ⟨1, [("k", ⟨.int64, [.int 1]⟩), ("a", ⟨.int64, [.int 5]⟩)]⟩),
            ("r", ⟨1, [("k", ⟨.int64, [.int 1]⟩), ("a", ⟨.int64, [.int 7]⟩)]⟩)], {}⟩
          = .ok ⟨1, [("x", ⟨.int64, [.int 5]⟩)]⟩
        ∧ Engine.execute {} ⟨0⟩ n
          ⟨[("l", ⟨1, [("k", ⟨.int64, [.int 1]⟩), ("a", ⟨.int64, [.int 5]⟩)]⟩),
            ("r", ⟨1, [("k", ⟨.int64, [.int 1]⟩), ("a", ⟨.int64, [.int 7]⟩)]⟩)], {}⟩
          = .ok ⟨1, [("x", ⟨.int64, [.int 7]⟩)]⟩
        ∧ Sql.compile {} m
          = .ok ("SELECT t2.`a_right` AS `x` FROM (SELECT t0.`k`, t0.`a`, "
            ++ "t1.`k` AS `k_right`, t1.`a` AS `a_right` FROM `l` t0 "
            ++ "INNER JOIN `r` t1 ON (t0.`k` = t1.`k`)) t2") := by
  refine ⟨_, _, _, _, _, _, _, rfl, rfl, rfl, rfl, rfl, rfl, rfl, rfl, ?_, ?_, ?_⟩
    <;> decide +kernel

end TypedQuery

/-!
# References to columns of joined tables

A table that keeps all columns of the tables inside it is an item of a `FROM` clause. A
column of a table inside is then referred to by the name that it has in the select list of
the item, however many joins have renamed it on the way.
-/

namespace TypedQuery

open Emission

/-- A reference to a column of any table inside names the one column of the subquery that
holds it, or is refused because two subqueries bring the table in. -/
theorem column_resolution {outer : Node} (h : outer.Built)
    (hkeeps : outer.KeepsColumns) {depth : Nat} (hdepth : outer.depth ≤ depth)
    {s after : Session Sql.Statement String} {item : String × String}
    (hrun : (Sql.fromItem (Sql.rules.emitWithin depth) outer).run s = (.ok item, after)) :
    ∃ q : Sql.Query, q.table = outer ∧ q.Written
      ∧ q.item s.target.config.identifierQuote item.2 = item.1
      ∧ (q.JoinsDistinct → q.outputs.Nodup ∧ ∀ table : Node,
        table = outer ∨ outer.Reaches table → s.target.scope.reach? table = none →
        ∀ schema, table.outputSchema = .ok schema → ∀ c ∈ schema.names,
          (after.target.column table c
              = .error (.inexpressible
                (table.kind.name ++ " is reachable through more than one subquery"))
            ∧ outer.Ambiguous table)
          ∨ ∃ n ∈ q.outputs, after.target.column table c
            = .ok (after.target.qualified item.2 n)
            ∧ ∀ name, q.Carries table c name ↔ name = n) := by
  have hisTable := hkeeps.isTable
  obtain ⟨q, hq⟩ := Sql.fromItem_eq_ok h hisTable hdepth hrun
  obtain rfl := hq.table
  refine ⟨q, rfl, hq.written, hq.text, fun hdistinct => ?_⟩
  have hlabels : q.labels.Nodup := by
    have hnodup := Sql.Statement.nodup_labelsFrom s.target.labels (q.labels.length + 1)
    rw [← hq.labels] at hnodup
    exact (List.nodup_append.1 hnodup).1
  have hk := hq.written.keepsColumns h hkeeps hdistinct hlabels
  refine ⟨?_, fun table hbound hnew schema hschema c hc => ?_⟩
  · obtain ⟨schema, -, hschema⟩ := h.schemaRule_eq hisTable
    rw [hk.outputs_eq (Node.outputSchema_eq_ok hschema)]
    exact h.schema_nodup hisTable hschema
  have htable : table.Built := by
    rcases hbound with rfl | hreach
    · exact h
    · exact (hreach.built_of h).1
  have hfound : q.reachAs item.2 table ≠ none := by
    rw [Sql.Query.reachAs_ne_none_iff h htable,
      Sql.Query.inside_ne_none_iff (hk.reach?_ne_none_iff htable)]
    exact hbound.imp_right fun hreach => ⟨hkeeps.ne_aggregation, hreach⟩
  obtain ⟨reach, hreach⟩ := Option.ne_none_iff_exists'.1 hfound
  rw [Sql.Statement.column_eq, hq.reach?_of_none hnew, hreach]
  cases reach with
  | ambiguous => exact Or.inl ⟨rfl, hk.ambiguous htable (Sql.Query.reach?_of_reachAs hreach)⟩
  | through label direct renames =>
      obtain ⟨rfl, -, hfinds⟩ :=
        hk.finds_reachAs h htable (fun _ _ _ => hk.finds htable) hreach
      have hcarries := hfinds schema hschema c hc
      exact Or.inr ⟨_, hk.mem_outputs ((hcarries _).2 rfl), rfl, hcarries⟩

/-- Two joins rename a column of the table `r`, one after the other. -/
theorem column_resolution_renamed :
    ∃ (l r u inner outer : Node) (item : String) (after : Session Sql.Statement String)
    (q : Sql.Query) (n : String),
      Node.databaseTable "l" ⟨[⟨"i", .int64, true⟩, ⟨"a", .int64, true⟩]⟩ = .ok l
        ∧ Node.databaseTable "r" ⟨[⟨"j", .int64, true⟩, ⟨"a", .int64, true⟩]⟩ = .ok r
        ∧ Node.databaseTable "u" ⟨[⟨"m", .int64, true⟩, ⟨"a_right", .int64, true⟩]⟩ = .ok u
        ∧ Node.joinOn .innerJoin l r "i" "j" = .ok inner
        ∧ Node.joinOn .leftJoin u inner "m" "i" = .ok outer
        ∧ (Sql.fromItem (Sql.rules.emitWithin outer.depth) outer).run
          (Session.start { config := {} } true)
          = (.ok (item, "t4"), after)
        ∧ after.target.column r "a" = .ok "t4.`a_right_right`"
        ∧ q.table = outer ∧ q.item '\x60' "t4" = item ∧ q.JoinsDistinct
        ∧ q.outputs.Nodup ∧ n ∈ q.outputs
        ∧ after.target.column r "a" = .ok (after.target.qualified "t4" n)
        ∧ ∀ name, q.Carries r "a" name ↔ name = n := by
  obtain ⟨l, r, u, inner, outer, item, hl, hr, hu, hinner, houter, hkinds, hchildren,
    hschemas, hitem⟩ :
      ∃ (l r u inner outer : Node) (item : String),
        Node.databaseTable "l" ⟨[⟨"i", .int64, true⟩, ⟨"a", .int64, true⟩]⟩ = .ok l
          ∧ Node.databaseTable "r" ⟨[⟨"j", .int64, true⟩, ⟨"a", .int64, true⟩]⟩ = .ok r
          ∧ Node.databaseTable "u" ⟨[⟨"m", .int64, true⟩, ⟨"a_right", .int64, true⟩]⟩ = .ok u
          ∧ Node.joinOn .innerJoin l r "i" "j" = .ok inner
          ∧ Node.joinOn .leftJoin u inner "m" "i" = .ok outer
          ∧ ((l.kind = .databaseTable ∧ r.kind = .databaseTable ∧ u.kind = .databaseTable)
            ∧ inner.kind = .innerJoin ∧ outer.kind = .leftJoin)
          ∧ ((inner.child "left" = .ok l ∧ inner.child "right" = .ok r)
            ∧ outer.child "left" = .ok u ∧ outer.child "right" = .ok inner)
          ∧ ((l.outputSchema = .ok ⟨[⟨"i", .int64, true⟩, ⟨"a", .int64, true⟩]⟩
              ∧ r.outputSchema = .ok ⟨[⟨"j", .int64, true⟩, ⟨"a", .int64, true⟩]⟩)
            ∧ u.outputSchema = .ok ⟨[⟨"m", .int64, true⟩, ⟨"a_right", .int64, true⟩]⟩
            ∧ inner.outputSchema
              = .ok ⟨[⟨"i", .int64, true⟩, ⟨"a", .int64, true⟩, ⟨"j", .int64, true⟩,
                ⟨"a_right", .int64, true⟩]⟩)
          ∧ let run := (Sql.fromItem (Sql.rules.emitWithin outer.depth) outer).run
              (Session.start { config := {} } true)
            run.1 = .ok (item, "t4")
                ∧ run.2.target.column r "a" = .ok "t4.`a_right_right`" := by
    refine ⟨_, _, _, _, _,
      "(SELECT t0.`m`, t0.`a_right`, t3.`i`, t3.`a`, t3.`j`, "
        ++ "t3.`a_right` AS `a_right_right` FROM `u` t0 LEFT OUTER JOIN "
        ++ "(SELECT t1.`i`, t1.`a`, t2.`j`, t2.`a` AS `a_right` "
        ++ "FROM `l` t1 INNER JOIN `r` t2 ON (t1.`i` = t2.`j`)) t3 ON (t0.`m` = t3.`i`)) t4",
      rfl, rfl, rfl, rfl, rfl, ⟨⟨rfl, rfl, rfl⟩, rfl, rfl⟩, ⟨⟨rfl, rfl⟩, rfl, rfl⟩,
      ⟨⟨rfl, rfl⟩, rfl, rfl⟩, ?_⟩
    decide +kernel
  obtain ⟨⟨lkind, rkind, ukind⟩, ikind, okind⟩ := hkinds
  obtain ⟨⟨hileft, hiright⟩, holeft, horight⟩ := hchildren
  obtain ⟨⟨hlschema, hrschema⟩, huschema, hischema⟩ := hschemas
  have hiwide : inner.kind ∈ NodeKind.wideJoins := by rw [ikind]; decide
  have howide : outer.kind ∈ NodeKind.wideJoins := by rw [okind]; decide
  have binner :=
    Node.built_joinOn (Node.built_databaseTable hl) (Node.built_databaseTable hr) hinner
  have bouter := Node.built_joinOn (Node.built_databaseTable hu) binner houter
  have hkeeps : outer.KeepsColumns :=
    .joined howide holeft horight (.stored (Or.inl ukind))
      (.joined hiwide hileft hiright (.stored (Or.inl lkind)) (.stored (Or.inl rkind)))
  have hreach : outer.Reaches r :=
    .within (by rw [okind]; decide) horight (by rw [ikind]; decide)
      (.item (by rw [ikind]; decide) hiright)
  rcases hrun : (Sql.fromItem (Sql.rules.emitWithin outer.depth) outer).run
    (Session.start { config := {} } true)
    with ⟨result, after⟩
  rw [hrun] at hitem
  obtain ⟨hitem, hcolumn⟩ := hitem
  cases hitem
  obtain ⟨q, htable, hwritten, htext, hresolved⟩ :=
    column_resolution bouter hkeeps (Nat.le_refl _) hrun
  subst htable
  have hstored : ∀ {m : Node}, m.kind = .databaseTable →
      ∀ p : Sql.Query, p.Written → p.table = m → p.JoinsDistinct := by
    rintro _ hkind p hp rfl
    exact hp.joinsDistinct_of_stored (by rw [hkind]; rfl)
  have hdistinct : q.JoinsDistinct := by
    refine hwritten.joinsDistinct_of_joined howide holeft horight huschema hischema
      (by decide) (hstored ukind) ?_
    rintro p hp rfl
    exact hp.joinsDistinct_of_joined hiwide hileft hiright hlschema hrschema (by decide)
      (hstored lkind) (hstored rkind)
  obtain ⟨hnodup, hcolumns⟩ := hresolved hdistinct
  rcases hcolumns r (Or.inr hreach) rfl _ hrschema "a" (by decide)
    with ⟨herror, -⟩ | ⟨n, hn, hname, hcarries⟩
  · rw [hcolumn] at herror
    cases herror
  · exact ⟨l, r, u, inner, q.table, item, after, q, n, hl, hr, hu, hinner, houter, hrun,
      hcolumn, rfl, htext, hdistinct, hnodup, hn, hname, hcarries⟩

end TypedQuery
