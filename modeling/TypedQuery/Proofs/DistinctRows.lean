import TypedQuery.Proofs.Plan.Groups

/-!
# Distinct rows

The rows of a batch are scanned from the first one on, and a row is kept unless it is
among those before it. What is kept of a list of rows are its members, each where it
first stands (`firstsFrom_eq`), also where the scan is spared: when no row would go,
and when there are no columns, so that all rows are the same. Everything else is about
lists without repetitions.
-/

namespace TypedQuery

namespace Batch

/-! ## Rows as data -/

/-- A row without what is left in missing cells: there a null is like another. -/
def row (b : Batch) (i : Nat) : List Cell :=
  b.columns.map fun c => (c.2.cells.getD i .null).bare

def data (b : Batch) : List (List Cell) := (List.range b.rows).map b.row

variable {b c : Batch} {places : List Nat}

theorem length_data (b : Batch) :
    b.data.length = b.rows := by rw [data, List.length_map, List.length_range]

theorem tuples_eq_data (hb : b.Rectangular) :
    tuples b.rows (b.columns.map (·.2)) = b.data := by
  have hlength : ∀ c ∈ b.columns.map (·.2), c.length = b.rows := List.forall_mem_map.2 hb
  refine List.ext_getElem? fun i => ?_
  by_cases hi : i < b.rows
  · rw [Join.getElem?_tuples hlength hi, data, List.getElem?_map, List.getElem?_range hi,
      Option.map_some, row, List.map_map]
    refine congrArg some (List.map_congr_left fun c hc => ?_)
    have hcell : i < c.2.cells.length := Nat.lt_of_lt_of_eq hi (hb c hc).symm
    simp [hcell]
  · have hnone : (tuples b.rows (b.columns.map (·.2))).length ≤ i := by
      rw [length_tuples hlength]; omega
    rw [List.getElem?_eq_none hnone, List.getElem?_eq_none (by rw [length_data]; omega)]

theorem data_gather (hb : b.Rectangular) (hplaces : ∀ i ∈ places, i < b.rows) :
    (b.gather (places.map some)).data = places.map b.row := by
  refine List.ext_getElem (by simp [data, gather]) fun i hi hi' => ?_
  have hplace : i < places.length := by simpa using hi'
  simp only [data, List.getElem_map, List.getElem_range, row, gather, List.map_map]
  refine List.map_congr_left fun c hc => ?_
  have hcell : places[i] < c.2.cells.length :=
    Nat.lt_of_lt_of_eq (hplaces _ (List.getElem_mem hplace)) (hb c hc).symm
  simp [Column.gather, hplace, hcell]

/-! ## The scan -/

variable {rows seen : List (List Cell)}

theorem firstsFrom_append_singleton (position : Nat) (seen rows : List (List Cell))
    (last : List Cell) :
    firstsFrom position seen (rows ++ [last])
      = firstsFrom position seen rows ++ if last ∈ seen ∨ last ∈ rows then []
        else [position + rows.length] := by
  induction rows generalizing position seen with
  | nil => simp [firstsFrom]
  | cons first rest ih =>
      rw [List.cons_append, firstsFrom, firstsFrom]
      split
      · next hfirst =>
          have hmem : (last ∈ seen ∨ last ∈ first :: rest) ↔ last ∈ seen ∨ last ∈ rest := by
            have hseen : first ∈ seen := by simpa using hfirst
            rw [List.mem_cons]
            constructor
            · rintro (h | rfl | h)
              · exact .inl h
              · exact .inl hseen
              · exact .inr h
            · exact Or.imp_right .inr
          rw [ih]
          simp only [hmem, List.length_cons, Nat.add_assoc, Nat.add_comm 1]
      · have hmem : (last ∈ seen ∨ last ∈ first :: rest)
            ↔ last ∈ first :: seen ∨ last ∈ rest := by
          rw [List.mem_cons, List.mem_cons, or_left_comm, or_assoc]
        rw [ih]
        simp only [hmem, List.length_cons, Nat.add_assoc, Nat.add_comm 1, List.cons_append]

/-- The scan keeps every row where it first stands. -/
theorem firstsFrom_eq (rows : List (List Cell)) :
    firstsFrom 0 [] rows = rows.eraseDups.map rows.idxOf := by
  induction rows using List.reverseRecOn with
  | nil => rfl
  | append_singleton rows last ih =>
      have hbefore : rows.eraseDups.map (rows ++ [last]).idxOf
          = rows.eraseDups.map rows.idxOf :=
        List.map_congr_left fun row hrow =>
          List.idxOf_append_of_mem (List.mem_eraseDups.1 hrow)
      rw [firstsFrom_append_singleton, ih, eraseDups_append_singleton]
      simp only [List.not_mem_nil, false_or, Nat.zero_add]
      split
      · rw [hbefore, List.append_nil]
      · next h =>
          rw [List.map_append, hbefore, List.map_singleton, List.idxOf_append_of_notMem h,
            List.idxOf_cons_self, Nat.add_zero]

theorem length_firstsFrom_le (position : Nat) (seen rows : List (List Cell)) :
    (firstsFrom position seen rows).length ≤ rows.length := by
  induction rows generalizing position seen with
  | nil => exact Nat.le_refl _
  | cons first rest ih =>
      rw [firstsFrom]
      split
      · exact Nat.le_succ_of_le (ih _ _)
      · exact Nat.succ_le_succ (ih _ _)

/-- If as many rows are kept as there are, all are. -/
theorem firstsFrom_of_length {position : Nat}
    (h : (firstsFrom position seen rows).length = rows.length) :
    firstsFrom position seen rows = List.range' position rows.length := by
  induction rows generalizing position seen with
  | nil => rfl
  | cons first rest ih =>
      rw [firstsFrom] at h ⊢
      split
      · next hfirst =>
          have := length_firstsFrom_le (position + 1) seen rest
          rw [if_pos hfirst, List.length_cons] at h
          omega
      · next hfirst =>
          rw [if_neg hfirst, List.length_cons, List.length_cons, Nat.succ_inj] at h
          rw [ih h, List.length_cons, List.range'_succ]

theorem eraseDups_of_nodup {rows : List (List Cell)} (h : rows.Nodup) :
    rows.eraseDups = rows := by
  induction rows using List.reverseRecOn with
  | nil => rfl
  | append_singleton rows last ih =>
      obtain ⟨hrows, -, hlast⟩ := List.nodup_append.1 h
      rw [eraseDups_append_singleton, ih hrows,
        if_neg fun hmem => hlast _ hmem _ (List.mem_singleton_self _) rfl]

/-! ## Rows that are kept -/

/-- Where the different rows first stand. -/
def firsts (b : Batch) : List Nat := b.data.eraseDups.map b.data.idxOf

theorem lt_of_mem_firsts {i : Nat} (h : i ∈ b.firsts) : i < b.rows := by
  obtain ⟨row, hrow, rfl⟩ := List.mem_map.1 h
  exact length_data b ▸ List.idxOf_lt_length_of_mem (List.mem_eraseDups.1 hrow)

theorem getElem?_data {i : Nat} (hi : i < b.rows) : b.data[i]? = some (b.row i) := by
  rw [data, List.getElem?_map, List.getElem?_range hi, Option.map_some]

theorem row_mem_data {i : Nat} (hi : i < b.rows) : b.row i ∈ b.data :=
  List.mem_of_getElem? (getElem?_data hi)

theorem row_idxOf {row : List Cell} (h : row ∈ b.data) : b.row (b.data.idxOf row) = row := by
  have hlt := List.idxOf_lt_length_of_mem h
  have hget := getElem?_data (length_data b ▸ hlt)
  rw [List.getElem?_eq_getElem hlt, List.getElem_idxOf] at hget
  exact (Option.some.inj hget).symm

/-- At the places that are kept stand the different rows. -/
theorem map_row_firsts (b : Batch) : b.firsts.map b.row = b.data.eraseDups := by
  rw [firsts, List.map_map]
  refine (List.map_congr_left fun row hrow => ?_).trans (List.map_id _)
  exact row_idxOf (List.mem_eraseDups.1 hrow)

/-- A row of the batch first stands at a place that is kept. -/
theorem exists_first {i : Nat} (hi : i < b.rows) :
    ∃ j ∈ b.firsts, b.row j = b.row i ∧ ∀ k < j, b.row k ≠ b.row i := by
  have hmem := row_mem_data hi
  refine ⟨b.data.idxOf (b.row i), List.mem_map_of_mem (List.mem_eraseDups.2 hmem),
    row_idxOf hmem, fun k hk heq => ?_⟩
  have hk' : k < b.data.length := Nat.lt_trans hk (List.idxOf_lt_length_of_mem hmem)
  have hget := getElem?_data (length_data b ▸ hk')
  rw [List.getElem?_eq_getElem hk', heq] at hget
  have hne := List.not_of_lt_findIdx hk
  rw [Option.some.inj hget, beq_self_eq_true] at hne
  cases hne

theorem firstsFrom_replicate (n : Nat) :
    firstsFrom 0 [] (List.replicate n []) = (List.range n).take 1 := by
  induction n with
  | zero => rfl
  | succ n ih =>
      rw [List.replicate_succ', firstsFrom_append_singleton, ih]
      cases n <;> simp [List.range_succ_eq_map]

/-- In all cases the rows at those places are kept. -/
theorem unique_eq (hb : b.Rectangular) : b.unique = b.gather (b.firsts.map some) := by
  have hscan : firstsFrom 0 [] (tuples b.rows (b.columns.map (·.2))) = b.firsts := by
    rw [tuples_eq_data hb, firstsFrom_eq, firsts]
  unfold unique
  split
  · next hnone =>
      have hdata : tuples b.rows (b.columns.map (·.2)) = List.replicate b.rows [] := by
        rw [List.isEmpty_iff.1 hnone]
        rfl
      rw [slice_eq_gather hb, ← hscan, hdata, firstsFrom_replicate]
      rfl
  · rw [hscan]
    dsimp only
    split
    · next hall =>
        have hrange : b.firsts = List.range b.rows := by
          rw [← hscan, tuples_eq_data hb, firstsFrom_of_length, length_data,
            List.range_eq_range']
          rw [← tuples_eq_data hb, hscan, hall, tuples_eq_data hb, length_data]
        rw [hrange, gather_range hb]
    · rfl

theorem data_unique (hb : b.Rectangular) : b.unique.data = b.data.eraseDups := by
  rw [unique_eq hb, data_gather hb fun _ => lt_of_mem_firsts, map_row_firsts]

theorem rectangular_unique (hb : b.Rectangular) : b.unique.Rectangular := by
  rw [unique_eq hb]
  exact rectangular_gather _ _

/-- Nothing goes where no two rows are the same. -/
theorem unique_of_nodup (hb : b.Rectangular) (h : b.data.Nodup) : b.unique = b := by
  have hrange : b.firsts = List.range b.rows := by
    rw [firsts, eraseDups_of_nodup h]
    refine List.ext_getElem (by rw [List.length_map, length_data, List.length_range])
      fun i hi _ => ?_
    rw [List.getElem_map, List.getElem_range, h.idxOf_getElem]
  rw [unique_eq hb, hrange, gather_range hb]

/-! ## Rows that are added -/

/-- The rows of a batch and then those of another one with the same columns. -/
def append (b c : Batch) : Batch :=
  ⟨b.rows + c.rows,
    List.zipWith (fun x y => (x.1, ⟨x.2.type, x.2.cells ++ y.2.cells⟩)) b.columns c.columns⟩

theorem columns_append_self (b : Batch) :
    (b.append b).columns = b.columns.map fun x =>
      (x.1, ⟨x.2.type, x.2.cells ++ x.2.cells⟩) := List.zipWith_self

theorem rectangular_append_self (hb : b.Rectangular) : (b.append b).Rectangular := by
  intro c hc
  rw [columns_append_self] at hc
  obtain ⟨x, hx, rfl⟩ := List.mem_map.1 hc
  exact List.length_append.trans (congrArg₂ (· + ·) (hb x hx) (hb x hx))

theorem row_append_self (b : Batch) (i : Nat) :
    (b.append b).row i = b.columns.map fun x =>
      ((x.2.cells ++ x.2.cells).getD i .null).bare := by
  rw [row, columns_append_self, List.map_map]
  rfl

theorem data_append_self (hb : b.Rectangular) : (b.append b).data = b.data ++ b.data := by
  have hlength : ∀ x ∈ b.columns, x.2.cells.length = b.rows := hb
  have hrow : ∀ i < b.rows, (b.append b).row i = b.row i
      ∧ (b.append b).row (b.rows + i) = b.row i := by
    intro i hi
    rw [row_append_self, row_append_self]
    refine ⟨List.map_congr_left fun x hx => ?_, List.map_congr_left fun x hx => ?_⟩
    · exact congrArg Cell.bare (List.getD_append _ _ _ _ ((hlength x hx).symm ▸ hi))
    · refine congrArg Cell.bare ((List.getD_append_right _ _ _ _ ?_).trans ?_)
      · rw [hlength x hx]
        exact Nat.le_add_right _ _
      · rw [hlength x hx, Nat.add_sub_cancel_left]
  rw [data, data, show (b.append b).rows = b.rows + b.rows from rfl, List.range_add,
    List.map_append, List.map_map]
  exact congrArg₂ (· ++ ·) (List.map_congr_left fun i hi => (hrow i (List.mem_range.1 hi)).1)
    (List.map_congr_left fun i hi => (hrow i (List.mem_range.1 hi)).2)

/-- Rows that are there already are dropped again. -/
theorem unique_append_self (hb : b.Rectangular) : (b.append b).unique = b.unique := by
  have hfirsts : (b.append b).firsts = b.firsts := by
    have hnone : b.data.removeAll b.data = [] := by simp [List.removeAll]
    rw [firsts, data_append_self hb, List.eraseDups_append, hnone, List.eraseDups_nil,
      List.append_nil]
    exact List.map_congr_left fun row hrow =>
      List.idxOf_append_of_mem (List.mem_eraseDups.1 hrow)
  rw [unique_eq (rectangular_append_self hb), hfirsts, unique_eq hb, gather, gather,
    columns_append_self, List.map_map]
  refine congrArg _ (List.map_congr_left fun x hx => congrArg (x.1, ·) ?_)
  rw [Column.gather, Column.gather]
  refine congrArg (Column.mk x.2.type) (List.map_congr_left fun i hi => ?_)
  obtain ⟨j, hj, rfl⟩ := List.mem_map.1 hi
  have hlt : j < x.2.cells.length := Nat.lt_of_lt_of_eq (lt_of_mem_firsts hj) (hb x hx).symm
  simp only [Option.bind_some]
  rw [List.getElem?_append_left hlt, List.getElem?_eq_getElem hlt]
  rfl

/-! ## Rows in another order -/

theorem data_gather_perm (hb : b.Rectangular) {order : List Nat}
    (h : order.Perm (List.range b.rows)) :
    (b.gather (order.map some)).data.Perm b.data := by
  rw [data_gather hb fun i hi => List.mem_range.1 (h.mem_iff.1 hi)]
  exact h.map b.row

end Batch

open Batch

/-- What is kept of the rows of a batch. They are as they were and in their order, no two
of them are the same, and every row of the batch is the same as one that is kept and has
none before it. So nothing more goes the second time, the rows that are kept are the same
ones in whatever order the batch has its rows, and a batch after itself adds none. Without
columns one row is kept if there is any. -/
theorem distinct_rows {b : Batch} (hb : b.Rectangular) :
    (∃ places : List Nat, b.unique = b.gather (places.map some) ∧ places.Pairwise (· < ·)
      ∧ (∀ i ∈ places, i < b.rows) ∧ (places.map b.row).Nodup
      ∧ ∀ i < b.rows, ∃ j ∈ places, b.row j = b.row i ∧ ∀ k < j, b.row k ≠ b.row i)
      ∧ b.unique.data.Nodup ∧ (∀ row, row ∈ b.unique.data ↔ row ∈ b.data)
      ∧ b.unique.unique = b.unique
      ∧ (∀ order : List Nat, order.Perm (List.range b.rows) →
        (b.gather (order.map some)).unique.data.Perm b.unique.data)
      ∧ (b.append b).unique = b.unique
      ∧ (b.columns = [] → b.unique = ⟨min b.rows 1, []⟩) := by
  have hnodup : b.unique.data.Nodup := data_unique hb ▸ nodup_eraseDups b.data
  refine ⟨⟨b.firsts, unique_eq hb, pairwise_idxOf_eraseDups b.data,
    fun _ => lt_of_mem_firsts, ?_, fun _ => exists_first⟩, hnodup, fun row => ?_,
    unique_of_nodup (rectangular_unique hb) hnodup, fun order horder => ?_,
    unique_append_self hb, fun hnone => ?_⟩
  · exact map_row_firsts b ▸ nodup_eraseDups b.data
  · rw [data_unique hb, List.mem_eraseDups]
  · rw [data_unique hb, data_unique (rectangular_gather _ _)]
    exact eraseDups_perm fun row => (data_gather_perm hb horder).mem_iff
  · rw [unique, if_pos (List.isEmpty_iff.2 hnone), slice, hnone]
    simp [Nat.min_comm]

/-- Nulls are the same also where something else was left beneath them. -/
theorem distinct_rows_with_nulls :
    ∃ b : Batch,
      b = ⟨5, [("a", ⟨.int64, [.int 1, .missing (.int 7), .int 1, .null, .int 2]⟩),
        ("s", ⟨.text, [.text "x", .text "y", .text "x", .text "y", .null]⟩)]⟩ ∧ b.Rectangular
      ∧ b.unique = b.gather ([0, 1, 4].map some) ∧ b.unique.unique = b.unique
      ∧ (b.append b).unique = b.unique
      ∧ (b.gather ([3, 4, 2, 0, 1].map some)).unique.data.Perm b.unique.data := by
  have hb : (⟨5, [("a", ⟨.int64, [.int 1, .missing (.int 7), .int 1, .null, .int 2]⟩),
      ("s", ⟨.text, [.text "x", .text "y", .text "x", .text "y", .null]⟩)]⟩ :
      Batch).Rectangular := by
    simp [Rectangular, Column.length]
  obtain ⟨-, -, -, hagain, horder, htwice, -⟩ := distinct_rows hb
  exact ⟨_, rfl, hb, by decide, hagain, htwice, horder _ (by decide)⟩

end TypedQuery
