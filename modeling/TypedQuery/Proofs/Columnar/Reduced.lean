import TypedQuery.Proofs.Columnar.Typed

/-!
# What a reduction sees of a column

Of a column that has a place for nulls a reduction sees its type and the cells that are
present, in their order. So it makes no difference whether a row is taken away or its cell
is made null. Only two things are seen besides, and neither is data: the least of nothing
is the first cell of the column with its residue, and a column that cannot be put in order
is only refused if it has a row.
-/

namespace TypedQuery

namespace Cell

theorem missing_of_isNull {a : Cell} (h : a.isNull = true) : ∃ r, a = missing r := by
  cases a with
  | missing r => exact ⟨r, rfl⟩
  | _ => cases h

theorem isNull_bare (a : Cell) : a.bare.isNull = a.isNull := by cases a <;> rfl

theorem bare_of_isNull {a : Cell} (h : a.isNull = true) : a.bare = null := by
  obtain ⟨r, rfl⟩ := missing_of_isNull h
  rfl

end Cell

namespace Column

/-- The cells that are not null. -/
def present (c : Column) : List Cell := c.cells.filter (!·.isNull)

/-- The same type and the same cells, but for what is left in the slots of missing ones. -/
def SameData (c d : Column) : Prop :=
  c.type = d.type ∧ c.cells.map Cell.bare = d.cells.map Cell.bare

theorem SameData.refl (c : Column) : c.SameData c := ⟨rfl, rfl⟩

end Column

namespace Reduction

open Column

variable {c d x y : Column}

/-! ## Counts -/

theorem filledCells_eq (c : Column) :
    filledCells c = c.cells.filter fun cell => !(c.marksNulls && cell.isNull) := by
  have hmasked : ∀ (keep : Cell → Bool) (cells : List Cell),
      ((cells.zip (cells.map keep)).filter (·.2)).map (·.1) = cells.filter keep := by
    intro keep cells
    induction cells with
    | nil => rfl
    | cons cell rest ih => cases h : keep cell <;> simp [h, ih]
  exact hmasked _ _

theorem filledCells_eq_present (h : c.type ≠ .null) : filledCells c = c.present := by
  simp [filledCells_eq, marksNulls, h, present]

/-! ## Numbers

A number is asked for in every cell; missing cells give none. -/

theorem exists_cast_number {target : Physical}
    (htarget : target = .int64 ∨ target = .float64) (source : Physical) (cell : Cell) :
    ∃ out, Cast.cell source target cell = .ok out := by
  rcases htarget with rfl | rfl <;> cases source <;> cases cell <;> exact ⟨_, rfl⟩

/-- A conversion to a type of numbers converts every cell. -/
theorem cast_number {target : Physical}
    (htarget : target = .int64 ∨ target = .float64) (c : Column) :
    if c.type = target ∨ c.type.casts target = true then
      ∃ d, c.cast target = .ok d ∧ List.Forall₂
        (fun cell out => Cast.cell c.type target cell = .ok out) c.cells d.cells
    else c.cast target = .error (.compute .cast) := by
  split
  · next hcasts =>
      by_cases htype : c.type = target
      · refine ⟨c, if_pos htype, List.forall₂_same.2 fun cell _ => ?_⟩
        rw [htype]
        rcases htarget with rfl | rfl <;> cases cell <;> rfl
      · obtain ⟨cells, hcells⟩ : ∃ cells,
            c.cells.mapM (Cast.cell c.type target) = .ok cells :=
          mapM_isOk fun cell _ => exists_cast_number htarget c.type cell
        refine ⟨⟨target, cells⟩, ?_, mapM_eq_ok.1 hcells⟩
        rw [Column.cast, if_neg htype, if_pos (hcasts.resolve_left htype),
          castCells_eq_mapM, hcells]
  · next hcasts =>
      obtain ⟨htype, hcasts⟩ := not_or.1 hcasts
      rw [Column.cast, if_neg htype, if_neg hcasts]

theorem numbers_of_forall₂ {α : Type} {target : Physical}
    (htarget : target = .int64 ∨ target = .float64) {source : Physical}
    {view : Cell → Option α} (hview : ∀ r, view (.missing r) = none)
    {cells outs : List Cell}
    (h : List.Forall₂ (fun cell out => Cast.cell source target cell = .ok out) cells outs) :
    (outs.map view).filterMap id
      = (cells.filter (!·.isNull)).filterMap fun cell =>
        (Cast.cell source target cell).toOption.bind view := by
  rw [List.filterMap_map, Function.id_comp]
  induction h with
  | nil => rfl
  | @cons cell out cells outs hcell _ ih =>
      cases hnull : cell.isNull with
      | true =>
          obtain ⟨r, rfl⟩ : ∃ r, cell = .missing r := by
            cases cell <;> cases hnull; exact ⟨_, rfl⟩
          rw [Cast.cell_missing (by rcases htarget with rfl | rfl <;> rfl)] at hcell
          cases hcell
          rw [List.filterMap_cons, hview, List.filter_cons, hnull]
          exact ih
      | false =>
          have hhere : (Cast.cell source target cell).toOption.bind view
            = view out := by rw [hcell]; rfl
          rw [List.filterMap_cons, List.filter_cons, hnull, Bool.not_false, if_pos rfl,
            List.filterMap_cons, hhere, ih]

/-- Numbers of columns with the same present cells. -/
theorem numbers_congr {α : Type} {target : Physical}
    (htarget : target = .int64 ∨ target = .float64) {view : Cell → Option α}
    (hview : ∀ r, view (.missing r) = none) (htype : c.type = d.type)
    (h : c.present = d.present) :
    (c.cast target).map (fun e => (e.cells.map view).filterMap id)
      = (d.cast target).map fun e => (e.cells.map view).filterMap id := by
  have hc := cast_number htarget c
  have hd := cast_number htarget d
  rw [← htype] at hd
  split at hc
  · next hcasts =>
      rw [if_pos hcasts] at hd
      obtain ⟨c', hc', hcells⟩ := hc
      obtain ⟨d', hd', hcells'⟩ := hd
      rw [hc', hd']
      refine congrArg Except.ok ?_
      show (c'.cells.map view).filterMap id = (d'.cells.map view).filterMap id
      rw [numbers_of_forall₂ htarget hview hcells, numbers_of_forall₂ htarget hview hcells']
      exact congrArg (List.filterMap _) h
  · next hcasts =>
      rw [if_neg hcasts] at hd
      rw [hc, hd]

theorem floatValues_congr (htype : c.type = d.type) (h : c.present = d.present) :
    floatValues c = floatValues d := by
  have hvalues : ∀ e : Column, floatValues e = (e.cast .float64).map fun e =>
      (e.cells.map Cell.float?).filterMap id := by
    intro e
    unfold floatValues toFloats
    cases e.cast .float64 <;> rfl
  rw [hvalues, hvalues]
  exact numbers_congr (.inr rfl) (fun _ => rfl) htype h

theorem intValues_congr (htype : c.type = d.type) (h : c.present = d.present) :
    intValues c = intValues d := by
  have hvalues : ∀ e : Column, intValues e = (e.cast .int64).map fun e =>
      (e.cells.map Cell.int?).filterMap id := by
    intro e
    unfold intValues toInts
    cases e.cast .int64 <;> rfl
  rw [hvalues, hvalues]
  exact numbers_congr (.inl rfl) (fun _ => rfl) htype h

/-! ## Order -/

/-- Whether a cell comes before another in the order of a least or of a greatest cell. -/
def before (greatest : Bool) (a b : Cell) : Bool :=
  if greatest then Cell.order true a b = .gt else Cell.order false a b = .lt

theorem leastCell_eq_none {before : Cell → Cell → Bool} {cells : List Cell} :
    leastCell before cells = none ↔ cells = [] := by
  cases cells with
  | nil => exact ⟨fun _ => rfl, fun _ => rfl⟩
  | cons cell rest =>
      rw [leastCell]
      split <;> simp

/-- What is found in order is the first present cell, and null where there is none. -/
theorem extreme_eq_ok {greatest : Bool} (h : extreme greatest c = .ok x) :
    x.SameData (single c.type ((leastCell (before greatest) c.present).getD .null)) := by
  unfold extreme at h
  split at h
  · next hempty =>
      cases h
      have hpresent : c.present = [] := by
        rw [present, List.isEmpty_iff.1 hempty, List.filter_nil]
      rw [hpresent]
      exact .refl _
  · split at h
    · cases h
    · have h := Except.ok.inj h
      change single c.type
        ((leastCell (before greatest) c.present).getD (c.cells.headD .null)) = x at h
      subst h
      cases hleast : leastCell (before greatest) c.present with
      | some cell => exact .refl _
      | none =>
          refine ⟨rfl, congrArg (fun cell => [cell]) ?_⟩
          have hall := List.filter_eq_nil_iff.1 (leastCell_eq_none.1 hleast)
          cases hcells : c.cells with
          | nil => rfl
          | cons cell rest =>
              have hcell := hall cell (by rw [hcells]; exact List.mem_cons_self)
              cases cell <;> first | rfl | exact absurd rfl hcell

/-! ## All reductions -/

/-- Columns of one type with the same present cells are reduced to the same data. -/
theorem apply_sameData (htype : c.type = d.type) (hnull : c.type ≠ .null)
    (h : c.present = d.present) (f : Reduction) (hx : f.apply c = .ok x)
    (hy : f.apply d = .ok y) : x.SameData y := by
  have hfilled : filledCells c = filledCells d := by
    rw [filledCells_eq_present hnull, filledCells_eq_present (htype ▸ hnull), h]
  have hsame (heq : f.apply c = f.apply d) : x.SameData y := by
    rw [heq, hy] at hx
    cases hx
    exact .refl _
  have hextreme (greatest : Bool) (hx : extreme greatest c = .ok x)
      (hy : extreme greatest d = .ok y) : x.SameData y := by
    have hx := extreme_eq_ok hx
    have hy := extreme_eq_ok hy
    rw [htype, h] at hx
    exact ⟨hx.1.trans hy.1.symm, hx.2.trans hy.2.symm⟩
  cases f with
  | count => exact hsame (by rw [apply, apply, hfilled])
  | countDistinct => exact hsame (by rw [apply, apply, hfilled])
  | sum =>
      exact hsame (by rw [apply, apply, htype, floatValues_congr htype h,
        intValues_congr htype h])
  | mean | median | std | variance =>
      exact hsame (by rw [apply, apply, floatValues_congr htype h])
  | min => exact hextreme false hx hy
  | max => exact hextreme true hx hy
  | collect =>
      refine hsame ?_
      show Except.ok (single (.list c.type) (.list c.present))
        = .ok (single (.list d.type) (.list d.present))
      rw [htype, h]

end Reduction

end TypedQuery
