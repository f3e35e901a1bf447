import TypedQuery.Proofs.Columnar.Coerced
import TypedQuery.Proofs.Columnar.Heights
import TypedQuery.Proofs.Columnar.ResultTypes

/-!
# Columns row by row

What an operation makes of a row depends on the cells of that row alone, a single row
standing for every one. Read in this way (`Column.row`), bringing columns to one height
disappears from view, and what is left of each operation is what it does with cells:
conversion to another type, and then the comparison, the logic or the choice.
-/

namespace TypedQuery

/-! ## Cells -/

namespace Cell

theorem isTrue_iff {c : Cell} : c.isTrue = true ↔ c.bool? = some true := by
  cases c <;> simp [isTrue, bool?]

end Cell

/-- The cell in another type. -/
def Converts (source target : Physical) (cell out : Cell) : Prop :=
  if source = target then out = cell else Cast.cell source target cell = .ok out

/-- A comparison with an unknown: it is unknown if one of the cells is. -/
def Column.Comparison.known (op : Column.Comparison) (x y : Cell) : Option Bool :=
  if x.isNull || y.isNull then none else some (op.holds (Cell.order true x y))

/-- Whatever goes up to a type goes up to what that type goes up to. -/
theorem Physical.upwards_trans {s t u : Physical} (hst : s.upwards t = true)
    (htu : t.upwards u = true) :
    s.upwards u = true := by
  by_cases hne : s = t
  · exact hne ▸ htu
  · cases s with
    | null => cases u <;> rfl
    | int32 =>
        cases t <;> simp [upwards] at hst hne
        · cases u <;> first | rfl | cases htu
        · rw [← of_decide_eq_true htu]
          rfl
    | int64 | date =>
        cases t <;> simp [upwards] at hst hne
        rw [← of_decide_eq_true htu]
        rfl
    | _ => exact absurd (of_decide_eq_true hst) hne

namespace Column

variable {s t u : Physical}

theorem commonType_symm (h : commonType s u = .ok t) : commonType u s = .ok t := by
  unfold commonType at *
  split at h
  · next hsu => rw [if_pos hsu.symm, ← hsu, h]
  · next hsu =>
      rw [if_neg (Ne.symm hsu)]
      split at h <;> cases h <;> first | rfl | (split <;> simp_all)

/-- The types that are brought to another one to be combined. -/
theorem commonType_widens (h : commonType s u = .ok t) (hne : s ≠ t) (hnull : s ≠ .null) :
    t = .float64 ∨ (s = .int32 ∧ t = .int64)
      ∨ ((s = .date ∨ s = .text) ∧ ∃ unit, t = .timestamp unit)
      ∨ (s = .text ∧ t = .date) := by
  unfold commonType at h
  split at h
  · cases h
    exact absurd rfl hne
  · split at h <;> cases h <;> simp_all

/-- Lists are brought together with their like and with nulls only. -/
theorem commonType_list (h : commonType s u = .ok (.list t)) : s = .list t ∨ s = .null := by
  unfold commonType at h
  split at h
  · cases h
    exact .inl rfl
  · split at h <;> cases h <;> simp

end Column

namespace Converts

variable {s t u : Physical} {x y z : Cell}

theorem self (t : Physical) (x : Cell) : Converts t t x x := by
  rw [Converts, if_pos rfl]

theorem unique (h : Converts s t x y) (h' : Converts s t x z) : y = z := by
  unfold Converts at h h'
  split at h
  · next hst =>
      rw [if_pos hst] at h'
      rw [h, h']
  · next hst =>
      rw [if_neg hst] at h'
      exact Except.ok.inj (h.symm.trans h')

/-- A conversion upwards gives null for null only. -/
theorem isNull_upwards (h : Converts s t x y) (hup : s.upwards t = true)
    (hx : x.fits s = true) :
    y.isNull = x.isNull := by
  unfold Converts at h
  split at h
  · rw [h]
  · next hne =>
      cases s with
      | null => cases x <;> cases hx; cases t <;> cases h <;> rfl
      | int32 | int64 => cases t <;> cases hup <;> cases x <;> cases hx <;> first
        | exact absurd rfl hne
        | (cases h; rfl)
      | date => cases t <;> cases hup <;> cases x <;> cases hx <;> cases h <;> rfl
      | _ => exact absurd (of_decide_eq_true hup) hne

/-- Of the type of nulls there is nothing but null, and nothing is left in the slot. -/
theorem of_null (hne : .null ≠ t) (hx : x.fits .null = true) :
    Converts .null t x y ↔ y = .null := by
  cases x <;> cases hx
  rw [Converts, if_neg hne]
  cases t <;> first
    | exact absurd rfl hne
    | exact ⟨fun h => (Except.ok.inj h).symm, fun h => congrArg _ h.symm⟩

/-- Null stays null where two types are brought together. -/
theorem isNull_of_common (h : Converts s t x y) (ht : Column.commonType s u = .ok t)
    (hx : x.isNull = true) :
    y.isNull = true := by
  by_cases hne : s = t
  · subst hne
    rwa [h.unique (.self s x)]
  · rw [Converts, if_neg hne] at h
    cases x <;> cases hx
    cases t with
    | list t =>
        obtain rfl : s = .null := (Column.commonType_list ht).resolve_left hne
        cases h
        rfl
    | _ =>
        rw [Cast.cell_missing rfl] at h
        cases h
        rfl

theorem null_upwards (h : Converts s t .null y) (hne : s ≠ t) (hup : s.upwards t = true) :
    y = .null := by
  rw [Converts, if_neg hne] at h
  cases s with
  | null | int32 | int64 | date => cases t <;> cases hup <;> first
    | exact absurd rfl hne
    | (cases h; rfl)
  | _ => exact absurd (of_decide_eq_true hup) hne

/-- Conversions upwards one after the other are one conversion. -/
theorem trans_upwards (h : Converts s t x y) (h' : Converts t u y z)
    (hst : s.upwards t = true) (htu : t.upwards u = true) (hx : x.fits s = true) :
    Converts s u x z := by
  by_cases hne : s = t
  · subst hne
    rwa [h.unique (.self s x)] at h'
  · by_cases hne' : t = u
    · subst hne'
      rwa [h'.unique (.self t y)]
    · cases s with
      | null =>
          obtain rfl := (of_null hne hx).1 h
          have hu : .null ≠ u := by
            rintro rfl
            cases t <;> cases htu
            exact hne' rfl
          exact (of_null hu hx).2 (h'.null_upwards hne' htu)
      | int32 =>
          cases t <;> simp [Physical.upwards] at hst hne
          · -- Through whole numbers of 64 bits, to doubles.
            cases u <;> simp [Physical.upwards] at htu hne'
            cases x <;> cases hx <;> cases h <;> cases h' <;> rfl
          · exact absurd (of_decide_eq_true htu) hne'
      | int64 | date =>
          cases t <;> simp [Physical.upwards] at hst hne
          exact absurd (of_decide_eq_true htu) hne'
      | _ => exact absurd (of_decide_eq_true hst) hne

end Converts

namespace Column

variable {c d l r out : Column} {cs : List Column} {t : Physical} {mask : List Bool}
    {rows i m : Nat}

/-! ## Rows -/

/-- The cell of a row; a single row stands for every one. -/
def row (c : Column) (i : Nat) : Cell := c.cells.getD (if c.length = 1 then 0 else i) .null

theorem row_of_length (h : c.length = rows) (hi : i < rows) :
    c.cells[i]? = some (c.row i) := by
  have hindex : (if c.length = 1 then 0 else i) = i := by
    split
    · omega
    · rfl
  have hlength : i < c.cells.length := Nat.lt_of_lt_of_eq hi h.symm
  rw [row, hindex, List.getD_eq_getElem?_getD, List.getElem?_eq_getElem hlength]
  rfl

theorem row_single {cell : Cell} (h : c.cells = [cell]) (i : Nat) : c.row i = cell := by
  rw [row, length, h]
  rfl

/-- A result of a single row stands for every row, and so do the columns that it is
computed from. -/
theorem exists_row (hspan : out.Spans rows) (hi : i < rows)
    (hcs : ∀ c ∈ cs, c.Spans out.length) :
    ∃ j < out.length, out.row j = out.row i ∧ ∀ c ∈ cs, c.row j = c.row i := by
  have hsingle {c : Column} (hc : c.length = 1) : c.row 0 = c.row i := by
    rw [row, row, if_pos hc, if_pos hc]
  rcases hspan with hlength | hlength
  · exact ⟨i, hlength ▸ hi, rfl, fun _ _ => rfl⟩
  · refine ⟨0, by omega, hsingle hlength, fun c hc => hsingle ?_⟩
    have hspan := hcs c hc
    unfold Spans at hspan
    omega

/-- Cells at each of the rows that a column has tell its rows. -/
theorem row_eq (h : c.length = rows) (hi : i < rows) {cell : Cell}
    (hcell : c.cells[i]? = some cell) : c.row i = cell :=
  Option.some.inj ((row_of_length h hi).symm.trans hcell)

/-- Where a row of the one column stands, the corresponding row of the other does. -/
theorem row_forall₂ {R : Cell → Cell → Prop} (h : List.Forall₂ R c.cells d.cells)
    (hspan : c.Spans rows) (hi : i < rows) :
    R (c.row i) (d.row i) := by
  have hlength : c.length = d.length := h.length_eq
  have hindex : (if c.length = 1 then 0 else i) < c.length := by
    unfold Spans at hspan
    split <;> omega
  rw [row, row, ← hlength, List.getD_eq_getElem?_getD, List.getD_eq_getElem?_getD,
    List.getElem?_eq_getElem hindex, List.getElem?_eq_getElem (hlength ▸ hindex)]
  exact h.get hindex (hlength ▸ hindex)

/-- Where cells of two columns are related, those of every row are; beyond the last row
there are only nulls. -/
theorem row_of_forall₂ {R : Cell → Cell → Prop} (h : List.Forall₂ R c.cells d.cells)
    (hnull : R .null .null) (i : Nat) :
    R (c.row i) (d.row i) := by
  have hlength : c.length = d.length := h.length_eq
  rw [row, row, ← hlength, List.getD_eq_getElem?_getD, List.getD_eq_getElem?_getD]
  generalize (if c.length = 1 then 0 else i) = j
  rcases Nat.lt_or_ge j c.cells.length with hj | hj
  · have hj' : j < d.cells.length := h.length_eq ▸ hj
    rw [List.getElem?_eq_getElem hj, List.getElem?_eq_getElem hj']
    exact h.get hj hj'
  · rwa [List.getElem?_eq_none hj, List.getElem?_eq_none (h.length_eq ▸ hj)]

theorem row_map {f : Cell → Cell} (hspan : c.Spans rows) (hi : i < rows) :
    row ⟨t, c.cells.map f⟩ i = f (c.row i) :=
  row_forall₂ (c := c) (d := ⟨t, c.cells.map f⟩) (R := fun x y => y = f x)
    (List.forall₂_map_right_iff.2 (List.forall₂_same.2 fun _ _ => rfl)) hspan hi

theorem row_mem (hspan : c.Spans rows) (hi : i < rows) : c.row i ∈ c.cells :=
  row_forall₂ (c := c) (d := c) (R := fun x _ => x ∈ c.cells)
    (List.forall₂_same.2 fun _ h => h) hspan hi

/-! ## Bringing columns together -/

theorem row_broadcast (h : c.broadcast rows = .ok d) (hi : i < rows) :
    d.row i = c.row i := by
  unfold broadcast at h
  split at h
  · cases h
    rfl
  · split at h
    · next cell hcell =>
        cases h
        rw [row_single hcell]
        refine row_eq (c := constant c.type cell rows) List.length_replicate hi ?_
        simp [constant, hi]
    · cases h

theorem row_cast (h : c.cast t = .ok d) (hspan : c.Spans rows) (hi : i < rows) :
    Converts c.type t (c.row i) (d.row i) := by
  unfold Converts
  split
  · next htype =>
      rw [cast, if_pos htype] at h
      cases h
      rfl
  · next htype => exact row_forall₂ (cast_eq_ok h htype).2.2 hspan hi

theorem coerce_eq_ok {p : Column × Column} (h : l.coerce r = .ok p) :
    ∃ t, commonType l.type r.type = .ok t ∧ l.cast t = .ok p.1 ∧ r.cast t = .ok p.2 := by
  obtain ⟨t, ht, h⟩ := bind_eq_ok.1 h
  obtain ⟨l', hl, h⟩ := bind_eq_ok.1 h
  obtain ⟨r', hr, h⟩ := bind_eq_ok.1 h
  cases h
  exact ⟨t, ht, hl, hr⟩

/-- The cells of two columns that stand beside each other; there are none where a
single row is missing. -/
theorem row_pairs {ps : List (Option (Cell × Cell))} (h : pairs l r = .ok ps)
    (hi : i < ps.length) :
    ps[i]? = some (some (l.row i, r.row i))
      ∨ ps[i]? = some none ∧ ((l.row i).isNull || (r.row i).isNull) = true := by
  unfold pairs at h
  split at h
  · next heq =>
      cases h
      have hlength : i < l.length := by
        simpa [length, show l.cells.length = r.cells.length from heq] using hi
      have hzip : (l.cells.zip r.cells)[i]? = some (l.row i, r.row i) :=
        List.getElem?_zip_eq_some.2 ⟨row_of_length rfl hlength,
          row_of_length heq.symm hlength⟩
      left
      rw [List.getElem?_map, hzip]
      rfl
  · split at h
    · next cell hcell =>
        cases h
        have hlength : i < r.length := by simpa [length] using hi
        rw [List.getElem?_map, row_of_length rfl hlength, row_single hcell]
        cases hnull : cell.isNull <;> simp
    · next cell hcell _ =>
        cases h
        have hlength : i < l.length := by simpa [length] using hi
        rw [List.getElem?_map, row_of_length rfl hlength, row_single hcell]
        cases hnull : cell.isNull <;> simp
    · cases h

theorem row_zipWith {f : Cell → Cell → Cell} (hl : l.length = rows) (hr : r.length = rows)
    (hi : i < rows) :
    row ⟨t, List.zipWith f l.cells r.cells⟩ i = f (l.row i) (r.row i) := by
  have hlength : length ⟨t, List.zipWith f l.cells r.cells⟩ = rows := by
    rw [length, List.length_zipWith, show l.cells.length = rows from hl,
      show r.cells.length = rows from hr, Nat.min_self]
  refine row_eq hlength hi ?_
  rw [List.getElem?_zipWith, row_of_length hl hi, row_of_length hr hi]

/-! ## Operators -/

theorem bool?_compareCells (op : Comparison) (t : Physical) (x y : Cell) :
    (compareCells op t x y).bool? = op.known x y := by
  unfold compareCells Comparison.known
  split
  · split <;> rfl
  · rfl

theorem bool?_compare {op : Comparison} (h : compare op l r = .ok out)
    (hi : i < out.length) :
    (out.row i).bool? = op.known (l.row i) (r.row i) := by
  obtain ⟨ps, hps, h⟩ := bind_eq_ok.1 h
  split at h
  · cases h
  · cases h
    have hlength : i < ps.length := by simpa [length] using hi
    rcases row_pairs hps hlength with hpair | ⟨hpair, hnull⟩
    · rw [row_eq rfl hi (by rw [List.getElem?_map, hpair]; rfl)]
      exact bool?_compareCells _ _ _ _
    · rw [row_eq rfl hi (by rw [List.getElem?_map, hpair]; rfl),
        Comparison.known, if_pos hnull]
      rfl

theorem bool?_logicCells (op : Logic) (x y : Cell) :
    (logicCells op x y).bool? = op.apply x.bool? y.bool? := by
  unfold logicCells
  split
  · next b hb => exact hb.symm
  · next hb => exact hb.symm

theorem condition_eq_ok {cells : List Cell} (h : c.condition = .ok cells) :
    c.type = .boolean ∧ cells = c.cells := by
  unfold condition at h
  split at h
  · next htype =>
      cases h
      exact ⟨htype, rfl⟩
  · cases h

/-- Logic on columns is that on what is known of the rows. -/
theorem bool?_logic {op : Logic} (h : logic op l r = .ok out) (hi : i < out.length) :
    (out.row i).bool? = op.apply (l.row i).bool? (r.row i).bool? := by
  obtain ⟨l', hl, h⟩ := bind_eq_ok.1 h
  obtain ⟨ls, hls, h⟩ := bind_eq_ok.1 h
  obtain ⟨r', hr, h⟩ := bind_eq_ok.1 h
  obtain ⟨rs, hrs, h⟩ := bind_eq_ok.1 h
  cases h
  obtain ⟨-, rfl⟩ := condition_eq_ok hls
  obtain ⟨-, rfl⟩ := condition_eq_ok hrs
  have hlengthl := Batch.length_broadcast hl
  have hlengthr := Batch.length_broadcast hr
  have hi : i < max l.length r.length := by
    rw [length, List.length_zipWith] at hi
    exact Nat.lt_of_lt_of_eq (Nat.lt_of_lt_of_le hi (Nat.min_le_left _ _)) hlengthl
  rw [row_zipWith hlengthl hlengthr hi, bool?_logicCells, row_broadcast hl hi,
    row_broadcast hr hi]

theorem bool?_negateBool (x : Cell) : (negateBool x).bool? = x.bool?.map (!·) := by
  cases x <;> rfl

theorem bool?_negateCondition (h : c.negateCondition = .ok out) (hi : i < out.length) :
    (out.row i).bool? = (c.row i).bool?.map (!·) := by
  obtain ⟨cells, hcells, h⟩ := bind_eq_ok.1 h
  cases h
  obtain ⟨-, rfl⟩ := condition_eq_ok hcells
  have hlength : i < c.length := by simpa [length] using hi
  rw [row_map (.inl rfl) hlength, bool?_negateBool]

/-- What is known of how the cells of a row compare, in the common type of their columns. -/
def Compared (op : Comparison) (l r : Column) (i : Nat) (known : Option Bool) : Prop :=
  ∃ t x y, commonType l.type r.type = .ok t ∧ Converts l.type t (l.row i) x
    ∧ Converts r.type t (r.row i) y
    ∧ known = op.known x y

theorem row_compared {op : Comparison} (h : BinaryOp.apply (.compare op) l r = .ok out)
    (hi : i < out.length) :
    Compared op l r i (out.row i).bool? := by
  have hspans : ∀ c ∈ [l, r], c.Spans out.length :=
    spans_of_covers (covers_binary _ l r out h)
  obtain ⟨hl, hr⟩ := List.forall_mem_cons.1 hspans
  obtain ⟨p, hp, h⟩ := bind_eq_ok.1 h
  obtain ⟨t, ht, hpl, hpr⟩ := coerce_eq_ok hp
  exact ⟨t, _, _, ht, row_cast hpl hl hi,
    row_cast hpr (hr r (List.mem_singleton_self r)) hi, bool?_compare h hi⟩

theorem Compared.eq_none_of_isNull {op : Comparison} {known : Option Bool}
    (h : Compared op l r i known)
    (hnull : (l.row i).isNull = true ∨ (r.row i).isNull = true) : known = none := by
  obtain ⟨t, x, y, ht, hx, hy, rfl⟩ := h
  rw [Comparison.known, if_pos]
  rcases hnull with hnull | hnull
  · rw [hx.isNull_of_common ht hnull, Bool.true_or]
  · rw [hy.isNull_of_common (commonType_symm ht) hnull, Bool.or_true]

/-! ## Choices -/

theorem getElem?_choose {as bs : List Cell} {m : Bool} {a b : Cell} (hm : mask[i]? = some m)
    (ha : as[i]? = some a) (hb : bs[i]? = some b) :
    (choose mask as bs)[i]? = some (if m then a else b) := by
  induction mask generalizing as bs i with
  | nil => cases hm
  | cons _ mask ih =>
      cases as with
      | nil => cases ha
      | cons _ as =>
          cases bs with
          | nil => cases hb
          | cons _ bs =>
              cases i with
              | zero =>
                  cases hm
                  cases ha
                  cases hb
                  rfl
              | succ i => exact ih hm ha hb

/-- A choice brings both cells of a row to the common type of the columns, and which it
takes is told by another column. -/
theorem row_select {k : Column} {holds : Cell → Bool}
    (h : select (k.cells.map holds) l r = .ok out) (hi : i < out.length) :
    ∃ x y, commonType l.type r.type = .ok out.type ∧ Converts l.type out.type (l.row i) x
      ∧ Converts r.type out.type (r.row i) y ∧ out.row i = if holds (k.row i)
        then x else y := by
  obtain ⟨-, hheights⟩ := covers_select _ l r out h
  rw [List.length_map] at hheights
  obtain ⟨hk, hheights⟩ := List.forall_mem_cons.1 hheights
  obtain ⟨hl, hheights⟩ := List.forall_mem_cons.1 hheights
  obtain ⟨hr, -⟩ := List.forall_mem_cons.1 hheights
  unfold select at h
  obtain ⟨mask, hmask, h⟩ := bind_eq_ok.1 h
  obtain ⟨p, hp, h⟩ := bind_eq_ok.1 h
  obtain ⟨a, ha, h⟩ := bind_eq_ok.1 h
  obtain ⟨b, hb, h⟩ := bind_eq_ok.1 h
  cases h
  obtain ⟨t, ht, hpl, hpr⟩ := coerce_eq_ok hp
  have hrows : (choose (mask.cells.map Cell.isTrue) a.cells b.cells).length = _ :=
    length_choose (Batch.length_broadcast ha) (Batch.length_broadcast hb)
      (by rw [List.length_map]; exact Batch.length_broadcast hmask)
  have hirows := Nat.lt_of_lt_of_eq hi hrows
  have htype : a.type = t := (type_broadcast _ _ _ ha).trans (type_cast _ _ _ hpl)
  refine ⟨_, _, htype ▸ ht, htype ▸ row_cast hpl hl hi, htype ▸ row_cast hpr hr hi, ?_⟩
  have hholds : mask.row i = .bool (holds (k.row i)) := by
    rw [row_broadcast hmask hirows, bools, List.map_map, List.map_map]
    exact row_map hk hi
  refine row_eq
    (c := ⟨a.type, choose (mask.cells.map Cell.isTrue) a.cells b.cells⟩) hrows hirows ?_
  have hmaski : (mask.cells.map Cell.isTrue)[i]? = some (holds (k.row i)) := by
    rw [List.getElem?_map, row_of_length (Batch.length_broadcast hmask) hirows, hholds]
    rfl
  have hai := row_of_length (Batch.length_broadcast ha) hirows
  have hbi := row_of_length (Batch.length_broadcast hb) hirows
  rw [row_broadcast ha hirows] at hai
  rw [row_broadcast hb hirows] at hbi
  exact getElem?_choose hmaski hai hbi

/-- Where there is null, the other column stands in, in the type of the column. -/
theorem row_orElse (h : l.orElse r = .ok out) (hi : i < out.length) :
    ∃ y, Converts r.type l.type (r.row i) y ∧ out.row i = if (l.row i).isNull then y
      else l.row i := by
  have hspans : ∀ c ∈ [l, r], c.Spans out.length := spans_of_covers (covers_orElse l r out h)
  have htype := type_orElse l r out h
  obtain ⟨fill, hfill, h⟩ := bind_eq_ok.1 h
  rw [isNull, List.map_map] at h
  obtain ⟨x, y, -, hx, hy, hrow⟩ := row_select h hi
  rw [htype] at hx
  rw [htype, type_cast _ _ _ hfill] at hy
  refine ⟨fill.row i, row_cast hfill (hspans r (by simp)) hi, ?_⟩
  rw [hrow, hx.unique (.self _ _), hy.unique (.self _ _)]
  cases hnull : (l.row i).isNull <;> simp [hnull]

end Column

/-! ## Functions of one column

A function of texts is applied to the text of each row by itself, and a null stays null. -/

/-- A function of one column is applied to what its operand gives. -/
theorem Expr.callOne_eq_ok {b : Batch} {arg : Expr} {f : Function} {c out : Column}
    (hc : arg.evaluate b = .ok c) :
    (arg.callOne f).evaluate b = .ok out ↔ f.apply [c] = .ok out := by
  have hlist : Expr.evaluateList b [arg] = .ok [c] := by
    rw [Expr.evaluateList, hc]
    rfl
  have halign : Column.align [c] = .ok [c] :=
    Column.Taken.align_of_length (m := c.length) fun d hd => by rw [List.mem_singleton.1 hd]
  rw [Expr.callOne, Expr.evaluate, hlist]
  show (Column.align [c] >>= f.apply) = _ ↔ _
  rw [halign]
  rfl

namespace Column

variable {c : Column}

/-- Columns of texts, and those of nulls only. -/
def OfTexts (c : Column) : Prop := c.Typed ∧ (c.type = .text ∨ c.type = .null)

/-- What a function of texts makes of a cell. -/
def mappedText (f : List Char → Option Cell) (cell : Cell) : Cell :=
  (cell.text?.bind fun s => f s.toList).getD .null

theorem toTexts_eq (h : c.OfTexts) : c.toTexts = .ok (c.cells.map Cell.text?) := by
  obtain ⟨htyped, ht | ht⟩ := h
  · rw [toTexts, cast, if_pos ht]
    rfl
  · have hcells : castCells .null .text c.cells = .ok (c.cells.map fun _ => .null) := by
      rw [castCells_eq_mapM, mapM_eq_ok, List.forall₂_map_right_iff, List.forall₂_same]
      intro cell hcell
      have hfits := htyped cell hcell
      rw [ht] at hfits
      cases cell with
      | missing r => exact Cast.cell_missing rfl r
      | _ => cases hfits
    have hnone : c.cells.map Cell.text? = c.cells.map fun _ => none := by
      refine List.map_congr_left fun cell hcell => ?_
      have hfits := htyped cell hcell
      rw [ht] at hfits
      cases cell <;> first | rfl | cases hfits
    rw [toTexts, cast, ht, if_neg (show Physical.null ≠ .text by decide),
      if_pos (show Physical.null.casts .text = true from rfl), hcells, hnone]
    show Except.ok _ = _
    rw [List.map_map]
    rfl

theorem mapTexts_eq (h : c.OfTexts) (type : Physical) (f : List Char → Option Cell) :
    c.mapTexts type f = .ok ⟨type, c.cells.map (mappedText f)⟩ := by
  rw [mapTexts, toTexts_eq h]
  show Except.ok _ = _
  rw [List.map_map]
  rfl

theorem row_mappedText (type : Physical) (f : List Char → Option Cell) (i : Nat) :
    row ⟨type, c.cells.map (mappedText f)⟩ i = mappedText f (c.row i) :=
  row_of_forall₂ (c := c) (d := ⟨type, c.cells.map (mappedText f)⟩)
    (R := fun x y => y = mappedText f x)
    (List.forall₂_map_right_iff.2 (List.forall₂_same.2 fun _ _ => rfl)) rfl i

/-- A row of a column of texts is a text or null. -/
theorem OfTexts.row (h : c.OfTexts) (i : Nat) :
    (∃ s, c.row i = .text s) ∨ (c.row i).isNull = true := by
  have hcells : ∀ cell ∈ c.cells, (∃ s, cell = .text s) ∨ cell.isNull = true :=
    fun cell hcell => by
    have hfits := h.1 cell hcell
    rcases h.2 with ht | ht <;> rw [ht] at hfits
    · cases cell <;> first | exact .inl ⟨_, rfl⟩ | exact .inr rfl | cases hfits
    · cases cell <;> first | exact .inr rfl | cases hfits
  rw [Column.row, List.getD_eq_getElem?_getD]
  generalize (if c.length = 1 then 0 else i) = j
  cases hj : c.cells[j]? with
  | none => exact .inr rfl
  | some cell => exact hcells cell (List.mem_of_getElem? hj)

end Column

end TypedQuery
