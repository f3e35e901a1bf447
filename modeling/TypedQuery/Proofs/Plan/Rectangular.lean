import TypedQuery.Proofs.Columnar.Heights
import TypedQuery.Proofs.NullTests
import TypedQuery.Proofs.Plan.Aggregates
import TypedQuery.Proofs.Plan.Preserved

/-!
# Columns stay of one height

Rows are moved in all columns alike, and what is computed is brought to the height of the
batch. So every step of a plan leaves the columns as high as the batch says.
-/

namespace TypedQuery

/-- The columns of every table of the catalog are of one height. -/
def Catalog.Rectangular (catalog : Catalog) : Prop := ∀ t ∈ catalog.tables, t.2.Rectangular

namespace Batch

variable {b : Batch}

theorem rectangular_zip {names : List String} {columns : List Column} {rows : Nat}
    (h : ∀ c ∈ columns, c.length = rows) :
    Rectangular ⟨rows, names.zip columns⟩ := fun _ hc => h _ (List.of_mem_zip hc).2

theorem rectangular_keep (hb : b.Rectangular) {mask : List Bool}
    (h : mask.length = b.rows) : (b.keep mask).Rectangular := by
  rw [keep_eq_gather hb h]
  exact rectangular_gather b _

/-! ## Computed columns -/

theorem length_computeAll {rows : Nat} {seen : List String} {items : List Expr} :
    Yields (∀ c ∈ ·, c.2.length = rows) (b.computeAll rows seen items) := by
  intro columns hcolumns c hc
  obtain ⟨e, -, hcompute⟩ := exists_of_forall₂_right (computeAll_eq_ok.1 hcolumns).2.1 hc
  obtain ⟨_, -, hbroadcast⟩ := bind_eq_ok.1 hcompute
  exact length_broadcast hbroadcast

theorem mem_put {columns : List (String × Column)} {name : String} {c : Column}
    {d : String × Column} (h : d ∈ put columns name c) : d ∈ columns ∨ d.2 = c := by
  induction columns with
  | nil => exact .inr (by rw [List.mem_singleton.1 h])
  | cons first rest ih =>
      rw [put] at h
      split at h
      · rcases List.mem_cons.1 h with rfl | h
        · exact .inr rfl
        · exact .inl (List.mem_cons_of_mem _ h)
      · rcases List.mem_cons.1 h with rfl | h
        · exact .inl List.mem_cons_self
        · exact (ih h).imp_left (List.mem_cons_of_mem _)

/-- Columns that are put among others are all the columns there are then. -/
theorem mem_foldl_put {computed columns : List (String × Column)} {d : String × Column}
    (h : d ∈ computed.foldl (fun columns c => put columns c.1 c.2) columns) :
    d ∈ columns ∨ ∃ c ∈ computed, d.2 = c.2 := by
  induction computed generalizing columns with
  | nil => exact .inl h
  | cons first rest ih =>
      rcases ih h with h | ⟨c, hc, heq⟩
      · exact (mem_put h).imp_right fun heq => ⟨first, List.mem_cons_self, heq⟩
      · exact .inr ⟨c, List.mem_cons_of_mem _ hc, heq⟩

/-! ## Given rows -/

theorem length_cellsOf (column : ColumnInfo) (position : Nat) (rows : List (List Value)) :
    Yields (fun parts => (parts.flatMap (·.cells)).length = rows.length)
      (cellsOf column position rows) := by
  induction rows with
  | nil => exact .ok rfl
  | cons row rest ih =>
      refine .bind (P := (·.length = 1)) ?_ fun here hhere =>
        .bind ih fun parts hparts => .ok ?_
      · unfold cellOf
        split
        · exact Column.length_literal _ _ _
        · exact .error _
      · rw [List.flatMap_cons, List.length_append, hparts, List.length_cons, Nat.add_comm]
        exact congrArg (rest.length + ·) hhere

theorem length_columnOf (rows : List (List Value)) (column : ColumnInfo) (position : Nat) :
    Yields (·.length = rows.length) (columnOf rows column position) := by
  unfold columnOf
  split
  · next hempty => exact .ok (by rw [List.isEmpty_iff.1 hempty]; rfl)
  · refine .bind (length_cellsOf column position rows) fun parts hparts c hc => ?_
    rw [Column.length, (stack_eq_ok.1 hc).2.2, hparts]

theorem length_columnsOf (rows : List (List Value)) (position : Nat)
    (columns : List ColumnInfo) :
    Yields (∀ c ∈ ·, c.2.length = rows.length) (columnsOf rows position columns) := by
  induction columns generalizing position with
  | nil => exact .ok fun _ h => by cases h
  | cons column rest ih =>
      exact .bind (length_columnOf rows column position) fun _ hhere =>
        .bind (ih _) fun _ hrest =>
        .ok (List.forall_mem_cons.2 ⟨hhere, hrest⟩)

/-! ## Steps -/

theorem chosen_of_dropNulls {names : Option (List String)} {out : Batch}
    (h : b.dropNulls names = .ok out) :
    ∃ cs, b.chosen names = .ok cs := by
  cases names with
  | none => exact ⟨_, rfl⟩
  | some names =>
      obtain ⟨cs, hcs, -⟩ := bind_eq_ok.1 h
      exact ⟨cs, hcs⟩

theorem preserved_rectangular : Preserved Rectangular where
  ofRows s rows := by
    refine .bind (length_columnsOf rows 0 s.columns) fun columns h => ?_
    split
    · exact .ok h
    · exact .error _
  filterBy hb predicate := by
    refine .bind_any fun known hknown => .ok (rectangular_keep hb ?_)
    obtain ⟨_, -, hknown⟩ := bind_eq_ok.1 hknown
    obtain ⟨cells, hcells, hknown⟩ := bind_eq_ok.1 hknown
    cases hknown
    rw [List.length_map, List.length_map, Column.length_asPredicate hcells]
  select _ items := .bind length_computeAll fun _ h => .ok h
  extend hb items := by
    refine .bind length_computeAll fun computed hcomputed => .ok fun d hd => ?_
    rcases mem_foldl_put hd with hd | ⟨c, hc, heq⟩
    · exact hb d hd
    · exact heq ▸ hcomputed c hc
  sort hb keys descending := by
    intro sorted hsorted
    obtain ⟨rows, -, rfl⟩ := sort_eq_gather hb hsorted
    exact rectangular_gather _ _
  slice hb offset length := by
    rw [slice_eq_gather hb]
    exact rectangular_gather _ _
  aggregate _ keys metrics := by
    intro out hout
    by_cases hkeys : keys = []
    · subst hkeys
      obtain ⟨-, columns, hcolumns, rfl⟩ := aggregate_all_eq_ok.1 hout
      refine rectangular_zip fun c hc => ?_
      obtain ⟨e, -, he⟩ := exists_of_forall₂_right hcolumns hc
      obtain ⟨d, -, rfl⟩ := reduceGroup_eq_ok.1 he
      rfl
    · obtain ⟨-, keyColumns, -, columns, hcolumns, rfl⟩ := (aggregate_eq_ok hkeys).1 hout
      refine rectangular_zip fun c hc => ?_
      rcases List.mem_append.1 hc with hc | hc
      · obtain ⟨k, -, rfl⟩ := List.mem_map.1 hc
        simp [Column.gather, Column.length]
      · obtain ⟨e, -, he⟩ := exists_of_forall₂_right (metricColumns_eq_ok.1 hcolumns) hc
        exact he.length
  join _ _ leftKeys rightKeys kind suffix nullsMatch := by
    unfold Batch.join
    split
    · exact .error _
    · refine .bind_any fun _ _ => .bind_any fun _ _ => .bind_any fun _ _ => ?_
      dsimp only
      split
      · exact .ok (rectangular_gather _ _)
      · refine .ok fun c hc => ?_
        rcases List.mem_append.1 hc with hc | hc
        · exact rectangular_gather _ _ c hc
        · obtain ⟨d, hd, rfl⟩ := List.mem_map.1 hc
          exact (rectangular_gather _ _ d hd).trans (by simp [gather])
  dropNulls hb names := by
    intro out hout
    obtain ⟨cs, hcs⟩ := chosen_of_dropNulls hout
    rw [dropNulls_of_chosen hb hcs] at hout
    cases hout
    exact rectangular_keep hb (by simp)
  unique {b} hb := by
    rcases b.unique_cases with h | h | ⟨rows, h⟩
    · rw [h, slice_eq_gather hb]
      exact rectangular_gather _ _
    · exact h.symm ▸ hb
    · exact h ▸ rectangular_gather b rows

end Batch

end TypedQuery
