import TypedQuery.Engine.Tables
import TypedQuery.Proofs.Join.Names
import TypedQuery.Proofs.Plan.Names

/-!
# Joined batches

A join first finds out which rows belong together, and only then makes columns of them.
`Batch.pairing` is the first half and may fail, `Batch.paired` is the second and can't. A
right join pairs with the sides swapped and then puts the columns back;
`select_rightJoinLayout` proves that this gives what pairing in the right order would have
given, unless names clash.
-/

namespace TypedQuery.Batch

/-! ## Pairs of rows -/

/-- The pairs of rows that a join makes. -/
def pairing (left right : Batch) (leftKeys rightKeys : List Expr) (kind : JoinKind)
    (nullsMatch : Bool) :
    Except Error (List Join.RowPair) :=
  if leftKeys.isEmpty || leftKeys.length ≠ rightKeys.length then
    .error (.inexpressible
      ("join needs matching non-empty key lists, got " ++ toString leftKeys.length ++ " and "
      ++ toString rightKeys.length))
  else do
    let ls ← left.computeKeys leftKeys
    let rs ← Join.convertKeys ls (← right.computeKeys rightKeys)
    .ok (Join.matchRows kind nullsMatch (Join.keyedRows left.rows ls)
      (Join.keyedRows right.rows rs))

/-- The columns of both sides at the given rows. -/
def paired (left right : Batch) (pairs : List Join.RowPair) : Batch where
  rows := pairs.length
  columns := (left.columns.map fun (name, c) => (name, c.gather (pairs.map (·.1))))
    ++ right.columns.map fun (name, c) =>
      (Rules.markedName left.names name, c.gather (pairs.map (·.2)))

theorem names_paired (left right : Batch) (pairs : List Join.RowPair) :
    (left.paired right pairs).names = Rules.markedNames left.names right.names := by
  simp [paired, names, Rules.markedNames, Function.comp_def]

theorem mem_paired_left {left : Batch} (right : Batch) (pairs : List Join.RowPair)
    {name : String} {c : Column} (h : (name, c) ∈ left.columns) :
    (name, c.gather (pairs.map (·.1))) ∈ (left.paired right pairs).columns :=
  List.mem_append_left _ (List.mem_map_of_mem h)

theorem mem_paired_right (left : Batch) {right : Batch} (pairs : List Join.RowPair)
    {name : String} {c : Column} (h : (name, c) ∈ right.columns) :
    (Rules.markedName left.names name, c.gather (pairs.map (·.2)))
      ∈ (left.paired right pairs).columns :=
  List.mem_append_right _ (List.mem_map.2 ⟨(name, c), h, rfl⟩)

/-- A name that the left side has is found there. -/
theorem column?_paired_left {left : Batch} (right : Batch) (pairs : List Join.RowPair)
    {name : String} {c : Column} (h : left.column? name = some c) :
    (left.paired right pairs).column? name = some (c.gather (pairs.map (·.1))) := by
  obtain ⟨⟨other, d⟩, hfind, rfl⟩ := Option.map_eq_some_iff.1 h
  have hleft : (left.columns.map fun (name, c) => (name, c.gather (pairs.map (·.1)))).find?
      (fun x : String × Column => x.1 == name)
        = some (other, d.gather (pairs.map (·.1))) := by
    rw [List.find?_map]
    exact congrArg (Option.map _) hfind
  rw [column?, paired, List.find?_append, hleft]
  rfl

/-- A name of the right side is found there, unless something before has it too. -/
theorem column?_paired_right {left right : Batch} (pairs : List Join.RowPair) {i : Nat}
    {name : String} {c : Column} (hi : right.columns[i]? = some (name, c))
    (hleft : Rules.markedName left.names name ∉ left.names)
    (hbefore : ∀ d ∈ (right.names.take i),
      Rules.markedName left.names d ≠ Rules.markedName left.names name) :
    (left.paired right pairs).column? (Rules.markedName left.names name)
      = some (c.gather (pairs.map (·.2))) := by
  have hnone : (left.columns.map fun (name, c) => (name, c.gather (pairs.map (·.1)))).find?
      (fun x : String × Column => x.1 == Rules.markedName left.names name) = none := by
    rw [List.find?_eq_none]
    intro x hx heq
    obtain ⟨⟨other, d⟩, hd, rfl⟩ := List.mem_map.1 hx
    refine hleft ?_
    rw [← beq_iff_eq.1 heq]
    exact List.mem_map_of_mem (f := (·.1)) hd
  obtain ⟨hlt, hget⟩ := List.getElem?_eq_some_iff.1 hi
  rw [column?, paired, List.find?_append, hnone, Option.none_or]
  refine Option.map_eq_some_iff.2
    ⟨(Rules.markedName left.names name, c.gather (pairs.map (·.2))), ?_, rfl⟩
  refine List.find?_eq_some_iff_getElem.2
    ⟨beq_self_eq_true _, i, by rwa [List.length_map], ?_, ?_⟩
  · rw [List.getElem_map, hget]
  · intro j hj
    rw [List.getElem_map, Bool.not_eq_true', beq_eq_false_iff_ne]
    have hj' : j < (right.columns.map (·.1)).length := by
      rw [List.length_map]
      omega
    refine hbefore _ (List.mem_take_iff_getElem.2 ⟨j, Nat.lt_min.2 ⟨hj, hj'⟩, ?_⟩)
    exact List.getElem_map _

theorem columns_paired_swapped (left right : Batch) (pairs : List Join.RowPair) :
    (left.paired right (pairs.map Prod.swap)).columns
      = (left.columns.map fun (name, c) => (name, c.gather (pairs.map (·.2))))
        ++ right.columns.map fun (name, c) =>
          (Rules.markedName left.names name, c.gather (pairs.map (·.1))) := by
  simp [paired, Function.comp_def]

theorem length_gather_pairs (c : Column) (pairs : List Join.RowPair)
    (side : Join.RowPair → Option Nat) :
    (c.gather (pairs.map side)).length = pairs.length := by
  simp [Column.length, Column.gather]

theorem join_eq (left right : Batch) (leftKeys rightKeys : List Expr) (kind : JoinKind)
    (nullsMatch : Bool) (hkind : kind ≠ .semi ∧ kind ≠ .anti) :
    left.join right leftKeys rightKeys kind Rules.rightMark nullsMatch
      = (left.pairing right leftKeys rightKeys kind nullsMatch).map (left.paired right) := by
  have hname : Join.rightName left.names Rules.rightMark = Rules.markedName left.names := by
    funext name
    simp [Join.rightName, Rules.markedName]
  unfold join pairing
  split
  · rfl
  · cases left.computeKeys leftKeys with
    | error e => rfl
    | ok ls =>
        cases hright : right.computeKeys rightKeys with
        | error e => rfl
        | ok rs =>
            simp only [bind, Except.bind]
            cases Join.convertKeys ls rs with
            | error e => rfl
            | ok rs =>
                simp only [hkind.1, hkind.2, decide_false, Bool.or_self,
                  Bool.false_eq_true, if_false, Except.map, Except.ok.injEq]
                simp [gather, paired, hname, Function.comp_def]

/-! ## Right joins -/

section

open Engine (rightJoinLayout marked)

variable {left right : Batch} {l r : Schema}

theorem outputName_rightJoinLayout (l r : Schema) :
    (rightJoinLayout l r).map Expr.outputName = Rules.markedNames l.names r.names := by
  rw [rightJoinLayout, List.map_append, List.map_map, List.map_map, Rules.markedNames]
  congr 1
  · refine (List.map_congr_left fun name _ => ?_).trans (List.map_id _)
    simp only [Function.comp]
    split <;> rfl
  · refine List.map_congr_left fun name _ => ?_
    simp only [Function.comp, Rules.markedName]
    by_cases hleft : name ∈ l.names
    · rw [if_pos (Schema.contains_iff.2 hleft), if_pos hleft]
      rfl
    · rw [if_neg (by rw [Schema.contains_iff]; exact hleft), if_neg hleft]
      rfl

theorem reduces_rightJoinLayout (l r : Schema) :
    ∀ e ∈ rightJoinLayout l r, e.reduces = false := by
  intro e he
  rcases List.mem_append.1 he with he | he
  · obtain ⟨name, -, rfl⟩ := List.mem_map.1 he
    split <;> rfl
  · obtain ⟨name, -, rfl⟩ := List.mem_map.1 he
    split <;> rfl

/-- The swapped join, put back in order, has the columns of both sides at the swapped
pairs. -/
theorem select_rightJoinLayout (hleft : left.names = l.names)
    (hright : right.names = r.names) (hl : l.names.Nodup) (hr : r.names.Nodup)
    (hclash : ¬ Rules.Clash l.names r.names) (hswapped : ¬ Rules.Clash r.names l.names)
    (pairs : List Join.RowPair) :
    (right.paired left pairs).select (rightJoinLayout l r)
      = .ok (left.paired right (pairs.map Prod.swap)) := by
  have hnodup : (right.paired left pairs).names.Nodup := by
    rw [names_paired, hleft, hright]
    exact Rules.nodup_markedNames hr hl hswapped hclash
  have hfind : ∀ {name : String} {c : Column} {e : Expr},
      (name, c) ∈ (right.paired left pairs).columns → c.length = pairs.length →
        (e = .column name ∨ ∃ other, e = .named (.column name) other) →
          (right.paired left pairs).compute pairs.length e = .ok c := by
    intro name c e hc hlength he
    have hcolumn : Expr.evaluate (right.paired left pairs) (.column name) = .ok c := by
      rw [Expr.evaluate, Expr.findColumn, column?_of_mem hnodup hc]
    rcases he with rfl | ⟨other, rfl⟩
    · rw [compute, hcolumn]
      exact broadcast_of_length hlength
    · rw [compute, Expr.evaluate, hcolumn]
      exact broadcast_of_length hlength
  -- Every item of the layout finds the column that it stands for, for names are given once.
  have hcompute : List.Forall₂
      (fun e c => (right.paired left pairs).compute pairs.length e = .ok c.2)
      (rightJoinLayout l r) (left.paired right (pairs.map Prod.swap)).columns := by
    rw [rightJoinLayout, columns_paired_swapped, ← hleft, ← hright, names, names,
      List.map_map, List.map_map]
    refine List.rel_append ?_ ?_
    · rw [List.forall₂_map_left_iff, List.forall₂_map_right_iff, List.forall₂_same]
      rintro ⟨name, c⟩ hc
      refine hfind (mem_paired_right right pairs hc) (length_gather_pairs c pairs _) ?_
      simp only [Function.comp, Rules.markedName, hright, Schema.contains_iff]
      split
      · exact Or.inr ⟨_, rfl⟩
      · exact Or.inl rfl
    · rw [List.forall₂_map_left_iff, List.forall₂_map_right_iff, List.forall₂_same]
      rintro ⟨name, c⟩ hc
      refine hfind (mem_paired_left left pairs hc) (length_gather_pairs c pairs _) ?_
      simp only [Function.comp]
      split
      · exact Or.inr ⟨_, rfl⟩
      · exact Or.inl rfl
  have hrows : left.paired right (pairs.map Prod.swap)
      = ⟨(right.paired left pairs).rows,
        (left.paired right (pairs.map Prod.swap)).columns⟩ := by
    simp [paired]
  rw [hrows]
  refine select_of_computeAll (reduces_rightJoinLayout l r)
    (computeAll_eq_ok.2 ⟨?_, hcompute, ?_, fun e _ => List.not_mem_nil⟩)
  · rw [outputName_rightJoinLayout, ← hleft, ← hright]
    exact names_paired left right (pairs.map Prod.swap)
  · rw [outputName_rightJoinLayout]
    exact Rules.nodup_markedNames hl hr hclash hswapped

end

end TypedQuery.Batch
