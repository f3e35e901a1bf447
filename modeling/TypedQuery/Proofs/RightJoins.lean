import TypedQuery.Proofs.EquiJoin
import TypedQuery.Proofs.Join.Names
import TypedQuery.Proofs.NestedLoops

/-!
# A right join is a swapped left join

A right join joins its sides in the other order and then selects the columns back by their
names, of which the shared ones are marked on the other side meanwhile. A name that ends
in a mark by itself could be taken for a marked one there. It never is: if the selection
finds every name and gives none twice, both sides have the names of their schemas, no
names clash either way, and every name stands for one column. So the rows are those of
loops over the right rows.
-/

namespace TypedQuery

namespace Join

variable {ls rs : List Column} {m n lefts rights : Nat}

/-- The rows of a right join: for each right row the left rows that it meets, or none
beside it. -/
def rightRows (lefts rights : Nat) (meet : Nat → Nat → Bool) : List (Option Nat × Nat) :=
  (List.range rights).flatMap fun j =>
    let met := (List.range lefts).filter (meet · j)
    if met = [] then [(none, j)] else met.map fun i => (some i, j)

theorem rightRows_congr {meet meet' : Nat → Nat → Bool} (h : ∀ i j, meet i j = meet' i j) :
    rightRows lefts rights meet = rightRows lefts rights meet' := by
  rw [show meet = meet' from funext fun i => funext (h i)]

/-- They are the pairs of a left join with the sides swapped. -/
theorem loops_swapped (meet : Nat → Nat → Bool) :
    (loops .left rights lefts fun j i => meet i j).map Prod.swap
      = (rightRows lefts rights meet).map fun row => (row.1, some row.2) := by
  rw [loops, if_neg (by decide), List.append_nil, rightRows, List.map_flatMap,
    List.map_flatMap]
  refine List.flatMap_congr fun j _ => ?_
  simp only [loop]
  by_cases hmet : (List.range lefts).filter (fun i => meet i j) = []
  · rw [if_pos hmet, if_pos hmet]
    rfl
  · rw [if_neg hmet, if_neg hmet, List.map_map, List.map_map]
    rfl

theorem sameKeys_comm (ls rs : List Column) (i j : Nat) :
    sameKeys ls rs i j = sameKeys rs ls j i := by
  rw [sameKeys, sameKeys, ← List.zip_swap, List.all_map]
  simp only [Function.comp_def, Prod.fst_swap, Prod.snd_swap, eq_comm]

theorem rowsMatch_comm (null : List Column → Nat → Bool) (nullsMatch : Bool)
    (ls rs : List Column) (i j : Nat) :
    rowsMatch null nullsMatch ls rs i j = rowsMatch null nullsMatch rs ls j i := by
  rw [rowsMatch, rowsMatch, sameKeys_comm, Bool.or_comm (null ls i)]

theorem Comparable.swap (h : Comparable m n ls rs) : Comparable n m rs ls :=
  h.flip.imp fun _ _ hlr => ⟨hlr.1.symm, hlr.2.2, hlr.2.1⟩

/-- Keys that have the same types already are not converted. -/
theorem convertKeys_of_comparable (h : Comparable m n ls rs) :
    convertKeys ls rs = .ok rs := by
  induction h with
  | nil => rfl
  | @cons l r ls rs hlr _ ih =>
      have hcast : r.cast l.type = .ok r := if_pos hlr.1
      rw [convertKeys, hcast, ih]
      rfl

/-- The pairs of a join of keys with the same types are those of nested loops. -/
theorem pairing_eq_loops {left right : Batch} {leftKeys rightKeys : List Expr}
    {kind : JoinKind} {nullsMatch : Bool} {pairs : List RowPair}
    (h : left.pairing right leftKeys rightKeys kind nullsMatch = .ok pairs) :
    ∃ ls rs, left.computeKeys leftKeys = .ok ls ∧ right.computeKeys rightKeys = .ok rs
      ∧ ls.length = rs.length
      ∧ ((∀ k ∈ ls.zip rs, k.2.type = k.1.type) → Comparable left.rows right.rows ls rs
        ∧ pairs = loops kind left.rows right.rows
          (rowsMatch markedKey nullsMatch ls rs)) := by
  unfold Batch.pairing at h
  split at h
  · cases h
  · next hkeys =>
      obtain ⟨ls, hls, h⟩ := bind_eq_ok.1 h
      obtain ⟨rs, hrs, h⟩ := bind_eq_ok.1 h
      have hlength : ls.length = rs.length := by
        rw [Batch.length_computeKeys hls, Batch.length_computeKeys hrs]
        simp only [Bool.or_eq_true, decide_eq_true_eq, not_or, ne_eq, not_not] at hkeys
        exact hkeys.2
      refine ⟨ls, rs, hls, hrs, hlength, fun htypes => ?_⟩
      have hcomparable : Comparable left.rows right.rows ls rs :=
        List.forall₂_iff_zip.2 ⟨hlength, fun hk =>
        ⟨htypes _ hk, Batch.length_of_computeKeys hls _ (List.of_mem_zip hk).1,
          Batch.length_of_computeKeys hrs _ (List.of_mem_zip hk).2⟩⟩
      rw [convertKeys_of_comparable hcomparable] at h
      cases h
      exact ⟨hcomparable, matchRows_eq_loops kind nullsMatch hcomparable⟩

end Join

/-- What a right join makes of its rows: the columns of the left side, with nulls where
there is no left row, and those of the right side. -/
def Batch.rightJoined (names : List String) (left right : Batch)
    (rows : List (Option Nat × Nat)) : Batch where
  rows := rows.length
  columns := names.zip ((left.columns.map fun c => c.2.gather (rows.map (·.1)))
    ++ right.columns.map fun c => c.2.gather (rows.map fun row => some row.2))

theorem Batch.paired_eq_rightJoined (left right : Batch) (rows : List (Option Nat × Nat)) :
    left.paired right (rows.map fun row => (row.1, some row.2))
      = Batch.rightJoined (Rules.markedNames left.names right.names) left right rows := by
  have hleft : left.names.length
    = (left.columns.map fun c => c.2.gather (rows.map (·.1))).length := by simp [names]
  rw [paired, rightJoined, Rules.markedNames, List.zip_append hleft]
  simp only [names, List.map_map, List.zip_map', Function.comp_def, List.length_map]

theorem Column.isNull_vacancy (c : Column) : c.vacancy.isNull = true := by
  unfold vacancy
  split
  · rfl
  · split
    · rfl
    · split <;> rfl

namespace Engine

variable {n left right : Node} {l r s : Schema} {config : Config} {clock : Clock}
    {catalog : Catalog} {b : Batch}

/-! ## Names of both sides -/

/-- Whatever puts columns in the order of a right join finds each of them by its
name in the swapped join. -/
theorem names_of_rightJoinLayout {swapped : Batch}
    (h : swapped.select (rightJoinLayout l r) = .ok b) :
    (∀ name ∈ l.names, Rules.markedName r.names name ∈ swapped.names)
      ∧ ∀ name ∈ r.names, name ∈ swapped.names := by
  obtain ⟨columns, hcolumns, -⟩ := bind_eq_ok.1 h
  have hevaluate : ∀ e ∈ rightJoinLayout l r, ∃ c, Expr.evaluate swapped e = .ok c := by
    intro e he
    obtain ⟨c, -, hc⟩ :=
      exists_of_forall₂_right (Batch.computeAll_eq_ok.1 hcolumns).2.1.flip he
    obtain ⟨here, hhere, -⟩ := bind_eq_ok.1 hc
    exact ⟨here, hhere⟩
  refine ⟨fun name hname => ?_, fun name hname => ?_⟩
  · obtain ⟨c, hc⟩ := hevaluate _ (List.mem_append_left _ (List.mem_map_of_mem hname))
    simp only [Schema.contains_iff] at hc
    rw [Rules.markedName]
    split at hc
    · next hshared =>
        rw [if_pos hshared]
        exact Batch.mem_names_of_evaluate hc
    · next hown =>
        rw [if_neg hown]
        exact Batch.mem_names_of_evaluate hc
  · obtain ⟨c, hc⟩ := hevaluate _ (List.mem_append_right _ (List.mem_map_of_mem hname))
    split at hc <;> exact Batch.mem_names_of_evaluate hc

/-- Names that clash would be given twice. -/
theorem names_of_select (h : n.Joins left right l r s) {swapped : Batch}
    (hb : swapped.select (rightJoinLayout l r) = .ok b) :
    ¬ Rules.Clash l.names r.names ∧ b.names = s.names := by
  obtain ⟨hnames, hnodup⟩ := Batch.select_eq_ok hb
  rw [Batch.outputName_rightJoinLayout] at hnames
  have hclash : ¬ Rules.Clash l.names r.names :=
    fun hclash => Rules.not_nodup_of_clash hclash (hnames ▸ hnodup)
  exact ⟨hclash, hnames.trans (h.schema_names_iff.2 hclash).symm⟩

theorem execute_joins (h : n.Joins left right l r s)
    (hb : execute config clock n catalog = .ok b) :
    ∃ lb rb keys, execute config clock left catalog = .ok lb
      ∧ execute config clock right catalog = .ok rb
      ∧ keysOf clock n = .ok keys
      ∧ if n.kind = .rightJoin then ∃ pairs,
          rb.pairing lb (keys.map (·.2))
            (keys.map (·.1)) .left catalog.config.nullJoinKeysMatch = .ok pairs
          ∧ (rb.paired lb pairs).select (rightJoinLayout l r) = .ok b
        else ∃ pairs, b = lb.paired rb pairs := by
  have hjoins : n.kind ∈ NodeKind.joins := by
    rcases NodeKind.mem_wideJoins.1 h.kind with hkind | hkind | hkind | hkind
      <;> (rw [hkind]; decide)
  obtain ⟨lb, rb, keys, hlb, hrb, hkeys, hpairing⟩ :=
    execute_pairing h.built hjoins h.left_eq h.right_eq h.left_built h.right_built hb
  refine ⟨lb, rb, keys, hlb, hrb, hkeys, ?_⟩
  by_cases hswap : n.kind = .rightJoin
  · rw [if_pos hswap] at hpairing ⊢
    obtain ⟨l', r', pairs, hl, hr, hpairs, hselect⟩ := hpairing
    cases hl.symm.trans h.leftSchema
    cases hr.symm.trans h.rightSchema
    exact ⟨pairs, hpairs, hselect⟩
  · rw [if_neg hswap] at hpairing ⊢
    obtain ⟨pairs, -, hb⟩ := hpairing
    refine ⟨pairs, hb.trans (if_neg ?_)⟩
    rcases NodeKind.mem_wideJoins.1 h.kind with hkind | hkind | hkind | hkind
      <;> (rw [hkind]; decide)

/-- The names of a table that is executed, even where names clash. -/
theorem marked_execute (h : n.Built) (htable : n.kind.isTable = true)
    (hcatalog : catalog.Fits n) (hs : n.outputSchema = .ok s)
    (hb : execute config clock n catalog = .ok b) : Rules.Marked b.names s.names := by
  refine names_induction (R := Rules.Marked) (P := fun _ => True) Rules.Marked.refl
    (fun _ _ => trivial) ?_ h htable
    hcatalog trivial hs hb
  intro n left right l r s lb rb b _ hj hlb hrb hl hr hb
  obtain ⟨lb', rb', keys, hlb', hrb', -, hb⟩ := execute_joins hj hb
  cases hlb.symm.trans hlb'
  cases hrb.symm.trans hrb'
  by_cases hswap : n.kind = .rightJoin
  · rw [if_pos hswap] at hb
    obtain ⟨pairs, -, hselect⟩ := hb
    rw [(names_of_select hj hselect).2]
    exact .refl s.names
  · rw [if_neg hswap] at hb
    obtain ⟨pairs, rfl⟩ := hb
    rw [Batch.names_paired]
    exact hl.join hr hj.pushed

/-- A right join that is executed has the columns of both sides, as they are called in
their schemas, at the swapped pairs of a left join. -/
theorem execute_rightJoin (h : n.Joins left right l r s) (hkind : n.kind = .rightJoin)
    (hcatalog : catalog.Fits n) (hb : execute config clock n catalog = .ok b) :
    ∃ lb rb keys pairs, execute config clock left catalog = .ok lb
      ∧ execute config clock right catalog = .ok rb
      ∧ keysOf clock n = .ok keys ∧ lb.names = l.names ∧ rb.names = r.names
      ∧ b.names = s.names
      ∧ rb.pairing lb (keys.map (·.2))
        (keys.map (·.1)) .left catalog.config.nullJoinKeysMatch = .ok pairs
      ∧ b = lb.paired rb (pairs.map Prod.swap) := by
  obtain ⟨lb, rb, keys, hlb, hrb, hkeys, hswapped⟩ := execute_joins h hb
  rw [if_pos hkind] at hswapped
  obtain ⟨pairs, hpairs, hselect⟩ := hswapped
  obtain ⟨hclash, hnames⟩ := names_of_select h hselect
  obtain ⟨hleft, hright⟩ := names_of_rightJoinLayout hselect
  rw [Batch.names_paired] at hleft hright
  obtain ⟨hl, hr⟩ := Rules.Marked.eq_of_swapped
    (marked_execute h.left_built h.left_table (hcatalog.child h.left_mem) h.leftSchema hlb)
    (marked_execute h.right_built h.right_table (hcatalog.child h.right_mem)
      h.rightSchema hrb)
    h.left_nodup h.right_nodup hclash h.not_clash_swapped hleft hright
  refine ⟨lb, rb, keys, pairs, hlb, hrb, hkeys, hl, hr, hnames, hpairs, ?_⟩
  exact Except.ok.inj (hselect.symm.trans
    (Batch.select_rightJoinLayout hl hr h.left_nodup h.right_nodup hclash
      h.not_clash_swapped pairs))

end Engine

open Join

/-- A right join that is executed has the names of its schema, for the columns of its left
side first. If the types of its keys are the same, its rows are, for each right row in
order, the left rows that match it, or none with nulls for its values. -/
theorem right_join_is_swapped_left_join {n : Node} (h : n.Built)
    (hkind : n.kind = .rightJoin) {config : Config} {clock : Engine.Clock}
    {catalog : Catalog} (hcatalog : catalog.Fits n) {b : Batch}
    (hb : Engine.execute config clock n catalog = .ok b) :
    ∃ left right l r s lb rb predicates keys, n.Joins left right l r s
      ∧ n.childList "predicates" = .ok predicates
      ∧ Engine.execute config clock left catalog = .ok lb
      ∧ Engine.execute config clock right catalog = .ok rb
      ∧ List.Forall₂ (Engine.KeyColumns clock left right lb rb) predicates keys
      ∧ lb.names = l.names ∧ rb.names = r.names ∧ b.names = s.names ∧ l.names <+: s.names
      ∧ (∀ c ∈ lb.columns, c.2.vacancy.isNull = true)
      ∧ ((∀ k ∈ keys, k.1.type = k.2.type) →
        b = Batch.rightJoined s.names lb rb (rightRows lb.rows rb.rows
          (rowsMatch markedKey catalog.config.nullJoinKeysMatch (keys.map (·.1))
            (keys.map (·.2))))
        ∧ (catalog.config.nullJoinKeysMatch = true ∨ (∀ k ∈ keys, k.1.type ≠ .null) →
          b = Batch.rightJoined s.names lb rb (rightRows lb.rows rb.rows
            (rowsMatch nullKey catalog.config.nullJoinKeysMatch (keys.map (·.1))
              (keys.map (·.2)))))) := by
  obtain ⟨left, right, l, r, s, hj⟩ := h.joins (by rw [hkind]; decide)
  obtain ⟨lb, rb, exprs, pairs, hlb, hrb, hexprs, hl, hr, hnames, hpairs, hb⟩ :=
    Engine.execute_rightJoin hj hkind hcatalog hb
  obtain ⟨predicates, hpredicates, hpredicates'⟩ :=
    Engine.keysOf_eq_ok hj.left_eq hj.right_eq hexprs
  obtain ⟨rs, ls, hrs, hls, hlength, hloops⟩ := pairing_eq_loops hpairs
  have hfirst : (ls.zip rs).map (·.1) = ls := List.map_fst_zip (Nat.le_of_eq hlength.symm)
  have hsecond : (ls.zip rs).map (·.2) = rs := List.map_snd_zip (Nat.le_of_eq hlength)
  have hprefix : l.names <+: s.names := (Rules.columns_of_pushRight hj.pushed).1.map _
  refine ⟨left, right, l, r, s, lb, rb, predicates, ls.zip rs, hj, hpredicates, hlb, hrb,
    Engine.keyColumns_of_keyExprs hpredicates' hls hrs, hl, hr, hnames, hprefix,
    fun c _ => c.2.isNull_vacancy, fun htypes => ?_⟩
  rw [hfirst, hsecond]
  obtain ⟨hcomparable, hpairs⟩ := hloops fun k hk => htypes k.swap (by
    rw [← List.zip_swap]
    exact List.mem_map_of_mem hk)
  have hmarkedNames : s.names = Rules.markedNames lb.names rb.names := by
    rw [← hnames, hb, Batch.names_paired]
  have hswapped : rowsMatch markedKey catalog.config.nullJoinKeysMatch rs ls
      = fun j i => rowsMatch markedKey catalog.config.nullJoinKeysMatch ls rs i j :=
    funext fun j => funext fun i => rowsMatch_comm _ _ rs ls j i
  have hmarked : b = Batch.rightJoined s.names lb rb (rightRows lb.rows rb.rows
      (rowsMatch markedKey catalog.config.nullJoinKeysMatch ls rs)) := by
    rw [hb, hpairs, hswapped, loops_swapped, Batch.paired_eq_rightJoined, hmarkedNames]
  refine ⟨hmarked, fun hplain => ?_⟩
  have hkeys : catalog.config.nullJoinKeysMatch = true ∨ ∀ l ∈ ls, l.type ≠ .null := by
    refine hplain.imp_right fun hplain l hl => ?_
    rw [← hfirst] at hl
    obtain ⟨k, hk, rfl⟩ := List.mem_map.1 hl
    exact hplain k hk
  rw [hmarked, rightRows_congr fun i j => rowsMatch_markedKey hcomparable.swap hkeys i j]

/-- Both sides have a column `a`, and the right one has a name that ends in a mark. The
first right row matches twice, the second never. -/
theorem right_join_is_swapped_left_join_shared :
    ∃ (left right n : Node) (catalog : Catalog) (b : Batch),
      Node.databaseTable "l" ⟨[⟨"a", .int64, true⟩, ⟨"b", .string, true⟩]⟩ = .ok left
        ∧ Node.databaseTable "r" ⟨[⟨"a", .int64, true⟩, ⟨"b_right", .string, true⟩]⟩
          = .ok right
        ∧ Node.joinOn .rightJoin left right "a" "a" = .ok n ∧ n.Built ∧ n.kind = .rightJoin
        ∧ catalog = ⟨[("l", ⟨3, [("a", ⟨.int64, [.int 1, .int 2, .int 1]⟩),
              ("b", ⟨.text, [.text "x", .text "y", .text "z"]⟩)]⟩),
            ("r", ⟨2, [("a", ⟨.int64, [.int 1, .int 3]⟩),
              ("b_right", ⟨.text, [.text "p", .text "q"]⟩)]⟩)], {}⟩
        ∧ catalog.Fits n ∧ Engine.execute {} ⟨0⟩ n catalog = .ok b
        ∧ b = ⟨3, [("a", ⟨.int64, [.int 1, .int 1, .missing (.int 1)]⟩),
          ("b", ⟨.text, [.text "x", .text "z", .null]⟩),
            ("a_right", ⟨.int64, [.int 1, .int 1, .int 3]⟩),
            ("b_right", ⟨.text, [.text "p", .text "p", .text "q"]⟩)]⟩ := by
  obtain ⟨lstored, hlstored⟩ :
      ∃ stored : Batch,
        stored = ⟨3,
          [("a", ⟨.int64, [.int 1, .int 2, .int 1]⟩),
            ("b", ⟨.text, [.text "x", .text "y", .text "z"]⟩)]⟩ := ⟨_, rfl⟩
  obtain ⟨rstored, hrstored⟩ :
      ∃ stored : Batch,
        stored = ⟨2,
          [("a", ⟨.int64, [.int 1, .int 3]⟩),
            ("b_right", ⟨.text, [.text "p", .text "q"]⟩)]⟩ := ⟨_, rfl⟩
  obtain ⟨left, right, n, p, lc, rc, ⟨hleft, hright, hn⟩, ⟨hkind, hpkind, hlckind, hrckind⟩,
      ⟨hleftChild, hrightChild, hp, hpl, hpr⟩, ⟨hl, hr⟩, hreads,
      ⟨hnc, hpc, hlcc, hrcc, hlc, hrc⟩, ⟨hlkind, hlname, hls⟩, ⟨hrkind, hrname, hrs⟩, hs,
      hlb, hrb, hb⟩ : ∃ left right n p lc rc : Node,
      (Node.databaseTable "l" ⟨[⟨"a", .int64, true⟩, ⟨"b", .string, true⟩]⟩ = .ok left
          ∧ Node.databaseTable "r" ⟨[⟨"a", .int64, true⟩, ⟨"b_right", .string, true⟩]⟩
            = .ok right
          ∧ Node.joinOn .rightJoin left right "a" "a" = .ok n)
        ∧ (n.kind = .rightJoin ∧ p.kind = .equals ∧ lc.kind = .tableColumn
          ∧ rc.kind = .tableColumn)
        ∧ (n.child "left" = .ok left ∧ n.child "right" = .ok right
          ∧ n.childList "predicates" = .ok [p]
          ∧ p.child "left" = .ok lc ∧ p.child "right" = .ok rc)
        ∧ (Node.column left "a" = .ok lc ∧ Node.column right "a" = .ok rc)
        ∧ (lc.readsOnly (· == left) && rc.readsOnly (· == right)) = true
        ∧ (n.children = [left, right, p] ∧ p.children = [lc, rc] ∧ lc.children = [left]
          ∧ rc.children = [right]
          ∧ left.children = [] ∧ right.children = [])
        ∧ (left.kind = .databaseTable ∧ left.stringField "name" = .ok "l"
          ∧ left.outputSchema = .ok ⟨[⟨"a", .int64, true⟩, ⟨"b", .string, true⟩]⟩)
        ∧ (right.kind = .databaseTable ∧ right.stringField "name" = .ok "r"
          ∧ right.outputSchema = .ok ⟨[⟨"a", .int64, true⟩, ⟨"b_right", .string, true⟩]⟩)
        ∧ n.outputSchema.map Schema.names = .ok ["a", "b", "a_right", "b_right"]
        ∧ Engine.execute {} ⟨0⟩ left ⟨[("l", lstored), ("r", rstored)], {}⟩ = .ok lstored
        ∧ Engine.execute {} ⟨0⟩ right ⟨[("l", lstored), ("r", rstored)], {}⟩ = .ok rstored
        ∧ (Engine.execute {} ⟨0⟩ n ⟨[("l", lstored), ("r", rstored)], {}⟩).map Batch.rows
            = .ok 3 := by
    subst hlstored hrstored
    refine ⟨_, _, _, _, _, _, ⟨rfl, rfl, rfl⟩, ⟨rfl, rfl, rfl, rfl⟩,
      ⟨rfl, rfl, rfl, rfl, rfl⟩, ⟨rfl, rfl⟩, ?_, ⟨rfl, rfl, rfl, rfl, rfl, rfl⟩,
      ⟨rfl, rfl, rfl⟩, ⟨rfl, rfl, rfl⟩, rfl, ?_, ?_, ?_⟩ <;> with_unfolding_all decide
  obtain ⟨b, hb, -⟩ := map_eq_ok.1 hb
  have bleft := Node.built_databaseTable hleft
  have bright := Node.built_databaseTable hright
  have bn : n.Built := Node.built_joinOn bleft bright hn
  have hsides : Engine.joinSides left right p = .ok (lc, rc) := by
    rw [Engine.joinSides, if_neg (not_not.2 hpkind), hpl, hpr]
    exact if_pos hreads
  have hfits : Catalog.Fits ⟨[("l", lstored), ("r", rstored)], {}⟩ n := by
    intro m hm hkind name s stored hname hs hget
    have hcases : m ∈ [n, left, right, p, lc, rc] :=
      hm.mem (by simp) (by simp [hnc, hpc, hlcc, hrcc, hlc, hrc])
    simp only [List.mem_cons, List.not_mem_nil, or_false] at hcases
    rcases hcases with rfl | rfl | rfl | rfl | rfl | rfl
    · simp_all
    · cases hlname.symm.trans hname
      cases hls.symm.trans hs
      cases hget
      subst hlstored
      rfl
    · cases hrname.symm.trans hname
      cases hrs.symm.trans hs
      cases hget
      subst hrstored
      rfl
    all_goals simp_all
  obtain ⟨left', right', l, r, s, lb, rb, predicates, keys, hj, hpredicates, hlb', hrb',
      hkeys, -, -, hnames, -, -, hrows⟩ :=
    right_join_is_swapped_left_join bn hkind hfits hb
  obtain ⟨rfl, rfl⟩ := hj.of_children hleftChild hrightChild
  cases hlb.symm.trans hlb'
  cases hrb.symm.trans hrb'
  cases hp.symm.trans hpredicates
  obtain ⟨k, rest, hkey, hrest, rfl⟩ := List.forall₂_cons_left_iff.1 hkeys
  cases hrest
  obtain ⟨hlkey, hrkey⟩ := Engine.keyColumns_of_columns bleft bright hl hr hsides hkey
  have hs : s.names = ["a", "b", "a_right", "b_right"] := by
    rw [hj.schema] at hs
    exact Except.ok.inj hs
  subst hlstored hrstored
  obtain ⟨kl, kr⟩ := k
  cases hlkey
  cases hrkey
  refine ⟨left, right, n, _, b, hleft, hright, hn, bn, hkind, rfl, hfits, hb, ?_⟩
  rw [(hrows (by simp)).2 (.inr (by simp)), hs]
  with_unfolding_all decide

end TypedQuery
