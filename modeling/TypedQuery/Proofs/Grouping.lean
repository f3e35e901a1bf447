import Mathlib.Algebra.Ring.Int.Defs
import TypedQuery.Proofs.Expr.Picked
import TypedQuery.Proofs.Plan.Aggregates

/-!
# Groups are a partition of the rows

Every row is in one group, with the rows that have the same keys. So an aggregation has one
row for each combination of keys, and what is counted or collected group by group adds up
to what is counted or collected over all rows: a filter accepts a row or it does not, and a
row has the same cell in its group as in the whole batch. Where a filter holds a reduction
this is not so, as that is taken over the rows of the group.
-/

namespace TypedQuery

/-! ## Counts and collected lists -/

/-- What a count says, or how many values have been collected. -/
def Cell.tally : Cell → Int
  | int n => n
  | list items => items.length
  | _ => 0

def Column.tally (c : Column) : Int := (c.cells.map Cell.tally).sum

/-- Counts and collections of expressions without reductions, with or without a filter and
a name. -/
def Expr.tallies : Expr → Bool
  | named e _ => tallies e
  | reduce f e filter =>
      decide (f = .count ∨ f = .collect) && e.aggregateFree && filter.all aggregateFree
  | countRows filter => filter.all aggregateFree
  | _ => false

namespace Expr

variable {b : Batch} {whole : Column}

/-- Every row of a choice of rows counts or does not, whichever the others are. -/
theorem tally_choice (hb : b.Rectangular) :
    ∀ {e : Expr}, e.tallies = true → e.evaluate b = .ok whole →
    ∃ (t : Physical) (counts : Nat → Bool), ∀ rows, Choice b rows →
      ∃ cell, e.evaluate (b.gather (rows.map some)) = .ok ⟨t, [cell]⟩
        ∧ cell.tally = rows.countP counts
  | named e _, htallies, h => tally_choice (e := e) hb htallies h
  | reduce f e filter, htallies, h => by
      simp only [tallies, Bool.and_eq_true, decide_eq_true_iff, Option.all_eq_true]
        at htallies
      obtain ⟨⟨hf, he⟩, hfilter⟩ := htallies
      rw [evaluate_reduce] at h
      obtain ⟨c, hc, -⟩ := bind_eq_ok.1 h
      obtain ⟨accepts, cell, hchoice⟩ := operand_choice hb he hfilter hc
      rcases hf with rfl | rfl
      · let fills (i : Nat) : Bool := !(c.marksNulls && (cell i).isNull)
        refine ⟨.int64, fun i => fills i && accepts i,
          fun rows hr => ⟨.int (rows.countP fun i => fills i && accepts i), ?_, rfl⟩⟩
        rw [evaluate_reduce, hchoice rows hr]
        show Except.ok (Reduction.oneInt _) = _
        rw [Reduction.filledCells_eq, ← List.countP_eq_length_filter, List.countP_map,
          List.countP_filter]
        rfl
      · let values (rows : List Nat) : List Cell :=
          ((rows.filter accepts).map cell).filter (!·.isNull)
        refine ⟨.list c.type, fun i => !(cell i).isNull && accepts i,
          fun rows hr => ⟨.list (values rows), ?_, ?_⟩⟩
        · rw [evaluate_reduce, hchoice rows hr]
          rfl
        · show ((values rows).length : Int) = _
          rw [← List.countP_eq_length_filter, List.countP_map, List.countP_filter]
          rfl
  | countRows filter, htallies, h => by
      simp only [tallies, Option.all_eq_true] at htallies
      obtain ⟨accepts, hchoice⟩ := countRows_choice hb htallies h
      exact ⟨.int64, accepts,
        fun rows hr => ⟨.int (rows.countP accepts), hchoice rows hr, rfl⟩⟩

end Expr

namespace Batch

variable {b : Batch} {keys : List (List Cell)}

/-- The rows of a group are a choice of rows. -/
theorem choice_of_mem_groupRows (hlength : keys.length = b.rows) {members : List Nat}
    (h : members ∈ groupRows keys) :
    Expr.Choice b members := by
  refine ⟨fun i hi => hlength ▸ lt_of_mem_groupRows h hi, fun hfew => ?_⟩
  obtain ⟨key, hkey, rfl⟩ := mem_groupRows.1 h
  have hone : keys.length = 1 := by
    have := List.length_pos_of_mem hkey
    omega
  obtain ⟨only, rfl⟩ := List.length_eq_one_iff.1 hone
  rw [List.mem_singleton.1 hkey, ← hlength]
  simp [placesOf]

theorem sum_countP_groups (keys : List (List Cell)) (counts : Nat → Bool) :
    ((groupRows keys).map fun members => (members.countP counts : Int)).sum
      = (List.range keys.length).countP counts := by
  have hflatten : ∀ groups : List (List Nat),
      (groups.map fun members => (members.countP counts : Int)).sum
        = groups.flatten.countP counts := by
    intro groups
    induction groups with
    | nil => rfl
    | cons members rest ih =>
        rw [List.map_cons, List.sum_cons, ih, List.flatten_cons, List.countP_append,
          Int.natCast_add]
  rw [hflatten, (flatten_groupRows_perm keys).countP_eq]

/-- Reduced over the groups a count gives numbers that add up to the count over all rows. -/
theorem exists_tallied (hb : b.Rectangular) (hlength : keys.length = b.rows) {e : Expr}
    (htallies : e.tallies = true) {whole : Column} (h : e.evaluate b = .ok whole) :
    ∃ c, b.ReducedOver (groupRows keys) e c ∧ c.type = whole.type
      ∧ c.tally = whole.tally := by
  obtain ⟨t, counts, hchoice⟩ := Expr.tally_choice hb htallies h
  have hmembers :=
    fun members hmembers => hchoice members (choice_of_mem_groupRows hlength hmembers)
  obtain ⟨cell, hcell, htally⟩ := hchoice _ (.all b)
  rw [gather_range hb] at hcell
  cases h.symm.trans hcell
  refine ⟨⟨t, (groupRows keys).map fun members => (b.gather (members.map some)).metricCell
    e⟩, ⟨rfl, ?_, ?_⟩, rfl, ?_⟩
  · intro members hmem
    obtain ⟨_, hevaluate, -⟩ := hmembers members hmem
    exact ⟨_, reduceGroup_eq_ok.2 ⟨_, hevaluate, rfl⟩, rfl⟩
  · intro hempty
    -- Without groups there are no rows, and the batch is its own empty part.
    have hrows : b.rows = 0 := by
      rw [← hlength, groupRows_eq_nil_iff.1 hempty, List.length_nil]
    have hslice : b.slice 0 (some 0) = b := by
      have hnone : ((List.range b.rows).drop 0).take ((some 0).getD b.rows)
        = List.range b.rows := by simp [hrows]
      rw [slice_eq_gather hb, hnone, gather_range hb]
    exact ⟨_, reduceGroup_eq_ok.2 ⟨_, hslice ▸ h, rfl⟩, rfl⟩
  · have hsum : (groupRows keys).map
        (fun members => ((b.gather (members.map some)).metricCell e).tally)
        = (groupRows keys).map fun members => (members.countP counts : Int) := by
      refine List.map_congr_left fun members hmem => ?_
      obtain ⟨cell, hevaluate, htally⟩ := hmembers members hmem
      rw [metricCell_eq hevaluate]
      exact htally
    rw [Column.tally, List.map_map]
    refine (congrArg List.sum hsum).trans ?_
    rw [sum_countP_groups, hlength, ← htally, Column.tally, List.map_singleton,
      List.sum_singleton]

/-! ## The partition -/

section

variable {es metrics : List Expr} {columns : List Column} {out : Batch}

/-- An aggregation has one row for each combination of keys, with the keys of the
rows that it stands for. -/
theorem aggregate_keys (hne : es ≠ []) (hkeys : b.computeKeys es = .ok columns)
    (h : b.aggregate es metrics = .ok out) :
    let rows := tuples b.rows columns
    let found := tuples out.rows ((out.columns.take es.length).map (·.2))
    out.rows = (groupRows rows).length ∧ found.Nodup ∧ (∀ key, key ∈ found ↔ key ∈ rows)
      ∧ ∀ (g : Nat) (members : List Nat), (groupRows rows)[g]? = some members →
        ∀ i ∈ members, found[g]? = rows[i]? := by
  intro rows found
  have hfound : found = rows.eraseDups := tuples_keys hne h hkeys
  obtain ⟨_, _, hsame, hcount, -⟩ := values_aggregate hne h
  cases hkeys.symm.trans hsame
  refine ⟨hcount, hfound ▸ nodup_eraseDups rows,
    fun key => by rw [hfound, List.mem_eraseDups], ?_⟩
  intro g members hg i hi
  rw [groupRows_eq, List.getElem?_map] at hg
  obtain ⟨key, hkey, rfl⟩ := Option.map_eq_some_iff.1 hg
  rw [hfound, hkey, mem_placesOf.1 hi]

/-- An aggregation with counts and collections succeeds where they do over all rows, and
what they say of the groups adds up. -/
theorem exists_aggregate_tallied (hb : b.Rectangular) (hne : es ≠ [])
    (hkeys : b.computeKeys es = .ok columns)
    (hnames : ((es ++ metrics).map Expr.outputName).Nodup)
    (htallies : ∀ e ∈ metrics, e.tallies = true) {wholes : List Column}
    (hwholes : Expr.evaluateList b metrics = .ok wholes) :
    ∃ out, b.aggregate es metrics = .ok out
      ∧ List.Forall₂ (fun whole c => c.type = whole.type ∧ c.tally = whole.tally) wholes
          ((out.columns.drop es.length).map (·.2)) := by
  have hrows : (tuples b.rows columns).length = b.rows :=
    length_tuples (length_of_computeKeys hkeys)
  obtain ⟨metricsOver, hreduced, htally⟩ :=
    exists_forall₂ (Expr.evaluateList_eq_ok.1 hwholes) fun e he whole hwhole =>
    exists_tallied hb hrows (htallies e he) hwhole
  refine ⟨_, (aggregate_eq_ok hne).2
    ⟨hnames, columns, hkeys, metricsOver, metricColumns_eq_ok.2 hreduced, rfl⟩, ?_⟩
  have hcount := length_computeKeys hkeys
  rw [List.map_drop, List.map_snd_zip (by simp [hcount, hreduced.length_eq]),
    List.drop_left' (by rw [List.length_map, hcount])]
  exact htally

end

/-- Grouping is a partition of the rows: groups have rows, in order, every row is in one
of them, rows are together if and only if all their keys are the same data, and groups
come in the order of their first rows. So an aggregation has one row for each combination
of keys, with the keys of the rows that it stands for; counts and lengths of collected
lists add up to those over the whole batch, and they can be computed for the groups
wherever they can be for the batch. -/
theorem grouping_partitions_rows {n : Nat} {columns : List Column} (hne : columns ≠ [])
    (hlength : ∀ c ∈ columns, c.length = n) :
    let rows := tuples n columns
    let groups := groupRows rows
    (∀ members ∈ groups, members ≠ [] ∧ members.Pairwise (· < ·))
      ∧ groups.flatten.Perm (List.range n)
      ∧ (∀ i < n, ∀ j < n, (∃ members ∈ groups, i ∈ members ∧ j ∈ members)
          ↔ ∀ c ∈ columns, c.cells[i]?.map Cell.bare = c.cells[j]?.map Cell.bare)
      ∧ (groups.map (·.headD 0)).Pairwise (· < ·)
      ∧ ∀ (b : Batch) (keys metrics : List Expr), b.rows = n →
          b.computeKeys keys = .ok columns →
          (∀ out, b.aggregate keys metrics = .ok out →
            let found := tuples out.rows ((out.columns.take keys.length).map (·.2))
            out.rows = groups.length ∧ found.Nodup ∧ (∀ key, key ∈ found ↔ key ∈ rows)
              ∧ ∀ (g : Nat) (members : List Nat), groups[g]? = some members →
                ∀ i ∈ members, found[g]? = rows[i]?)
          ∧ (b.Rectangular → ((keys ++ metrics).map Expr.outputName).Nodup →
            (∀ e ∈ metrics, e.tallies = true) →
              ∀ wholes, Expr.evaluateList b metrics = .ok wholes →
                ∃ out, b.aggregate keys metrics = .ok out
                  ∧ List.Forall₂ (fun whole c => c.type = whole.type ∧ c.tally = whole.tally)
                    wholes ((out.columns.drop keys.length).map (·.2))) := by
  intro rows groups
  have hrows : rows.length = n := length_tuples hlength
  have hget : ∀ i < n,
      rows[i]? = some (columns.map fun c => (c.cells[i]?.map Cell.bare).getD .null) :=
    fun i hi => Join.getElem?_tuples hlength hi
  refine ⟨fun members hmembers => ?_, hrows ▸ flatten_groupRows_perm rows,
    fun i hi j hj => ?_, ?_, fun b keys metrics hn hkeys => ?_⟩
  · obtain ⟨key, hkey, rfl⟩ := mem_groupRows.1 hmembers
    exact ⟨placesOf_ne_nil hkey, pairwise_placesOf rows key⟩
  · rw [together_iff (hrows ▸ hi), hget i hi, hget j hj, Option.some.injEq,
      List.map_inj_left]
    refine forall₂_congr fun c hc => ?_
    have hc : c.cells.length = n := hlength c hc
    simp [hc, hi, hj]
  · exact firsts_groupRows rows ▸ pairwise_idxOf_eraseDups rows
  · subst hn
    have hkeysne : keys ≠ [] := by
      rintro rfl
      cases hkeys
      exact hne rfl
    exact ⟨fun out => aggregate_keys hkeysne hkeys,
      fun hb hnames htallies wholes =>
        exists_aggregate_tallied hb hkeysne hkeys hnames htallies⟩

open Reduction in
/-- Three rows with the keys 1, null and 1: two of the three values and all three rows are
counted, and two values collected. -/
theorem grouping_of_three_rows :
    let k : Column := ⟨.int64, [.int 1, .null, .int 1]⟩
    let b : Batch := ⟨3, [("k", k), ("a", ⟨.int64, [.int 5, .int 6, .null]⟩)]⟩
    let metrics : List Expr :=
      [.reduce .count (.column "a") none, .countRows none,
        .named (.reduce .collect (.column "a") none) "all"]
    groupRows (tuples 3 [k]) = [[0, 2], [1]]
      ∧ ∃ out, b.aggregate [.column "k"] metrics = .ok out
        ∧ List.Forall₂ (fun whole c => c.type = whole.type ∧ c.tally = whole.tally)
            [oneInt 2, oneInt 3, single (.list .int64) (.list [.int 5, .int 6])]
            ((out.columns.drop 1).map (·.2)) := by
  intro k b metrics
  have h := (grouping_partitions_rows (n := 3) (List.cons_ne_nil k []) (by decide)).2.2.2.2
    b [.column "k"] metrics rfl
    (by rfl)
  exact ⟨by decide, h.2 (by decide) (by decide) (by decide) _ (by rfl)⟩

open Reduction in
/-- A reduction in the filter of a count is taken over the group. In each of two groups one
row has the greatest `a` of the group, and of all rows it is one, too. -/
theorem grouping_of_reduced :
    ∃ (b grouped whole : Batch) (metric : Expr),
      b = ⟨2, [("k", ⟨.int64, [.int 1, .int 2]⟩), ("a", ⟨.int64, [.int 5, .int 7]⟩)]⟩
      ∧ metric = .named (.reduce .count (.column "a")
          (some (.binary (.column "a") (.compare .equal)
            (.reduce .max (.column "a") none)))) "n"
      ∧ b.aggregate [.column "k"] [metric] = .ok grouped
      ∧ b.aggregate [] [metric] = .ok whole
      ∧ metric.evaluate b = .ok (oneInt 1) ∧ whole = ⟨1, [("n", oneInt 1)]⟩
      ∧ grouped = ⟨2,
        [("k", ⟨.int64, [.int 1, .int 2]⟩), ("n", ⟨.int64, [.int 1, .int 1]⟩)]⟩ :=
  ⟨_, _, _, _, rfl, rfl, rfl, rfl, rfl, rfl, rfl⟩

end Batch

end TypedQuery
