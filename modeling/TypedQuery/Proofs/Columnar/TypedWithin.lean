import TypedQuery.Proofs.Columnar.Order
import TypedQuery.Proofs.Columnar.ResultTypes

/-!
# Elements of the type of their list

Whether the cells of a column are in order is a question of the elements of lists as well.
Few operations make lists or take them over; all others give a column of a plain type,
whose cells are typed within because they are typed.
-/

namespace TypedQuery

/-- Every cell of the column is of its type, and so are the elements of lists. -/
def Column.TypedWithin (c : Column) : Prop := ∀ cell ∈ c.cells, cell.fitsWithin c.type = true

namespace Cell

variable {t : Physical} {cell : Cell}

theorem fitsWithin_of_plain (ht : t.isList = false) (h : cell.fits t = true) :
    cell.fitsWithin t = true := by
  cases t with
  | list => cases ht
  | _ => exact Bool.and_eq_true_iff.2 ⟨h, rfl⟩

theorem fitsWithin_missing (t : Physical) (r : Residue) :
    (missing r).fitsWithin t = true := by
  cases t <;> rfl

theorem fitsWithin_list {s : Physical} {items : List Cell} :
    (list items).fitsWithin (.list s) = true ↔ ∀ item ∈ items, item.fits s = true := by
  rw [fitsWithin, fits, Bool.true_and, List.all_eq_true]

end Cell

namespace Cast

/-- Conversion to a list type converts the elements. -/
theorem cell_fitsWithin {source target : Physical} {c out : Cell}
    (hcasts : source.casts target = true) (hne : source ≠ target)
    (hc : c.fitsWithin source = true) (h : cell source target c = .ok out) :
    out.fitsWithin target = true := by
  have hfits := cell_fits hcasts hne (Cell.fits_of_fitsWithin hc) h
  cases target with
  | list t =>
      -- An element of the type that is asked for stays; any other is converted.
      have hitem : ∀ {s : Physical} {item converted : Cell}, (s = t ∨ s.casts t = true) →
          item.fits s = true →
          (s = t → t.isList = false) → cell s t item = .ok converted →
              converted.fits t = true := by
        intro s item converted hcasts hitem hplain hcell
        by_cases hst : s = t
        · subst hst
          cases hnull : item.isNull with
          | true =>
              obtain ⟨r, rfl⟩ := Cell.missing_of_isNull hnull
              rw [cell_missing (hplain rfl)] at hcell
              cases hcell
              exact Cell.fits_missing _ _
          | false =>
              rw [cell_filled (hplain rfl) hnull, if_pos rfl] at hcell
              cases hcell
              exact hitem
        · exact cell_fits (hcasts.resolve_left hst) hst hitem hcell
      cases source with
      | null => cases h; exact Cell.fitsWithin_missing _ _
      | list s =>
          have hst : s ≠ t := fun heq => hne (congrArg Physical.list heq)
          cases c with
          | list items =>
              obtain ⟨converted, hconverted, h⟩ := bind_eq_ok.1 h
              cases h
              refine Cell.fitsWithin_list.2 fun item hmem => ?_
              obtain ⟨before, hbefore, hcell⟩ :=
                exists_of_forall₂_right (mapM_eq_ok.1 hconverted) hmem
              simp only [Physical.casts, Bool.or_eq_true, decide_eq_true_iff] at hcasts
              exact hitem hcasts (Cell.fitsWithin_list.1 hc before hbefore)
                (fun heq => absurd heq hst) hcell
          | missing r => cases h; exact Cell.fitsWithin_missing _ _
          | _ => cases hc
      | _ =>
          obtain ⟨item, hcell, h⟩ := bind_eq_ok.1 h
          cases h
          simp only [Physical.casts, Bool.or_eq_true, decide_eq_true_iff] at hcasts
          refine Cell.fitsWithin_list.2 (List.forall_mem_singleton.2 ?_)
          exact hitem hcasts (Cell.fits_of_fitsWithin hc) (fun heq => heq ▸ rfl) hcell
  | _ => exact Cell.fitsWithin_of_plain rfl hfits

end Cast

theorem Cell.kept_fitsWithin : Cell.Kept fun t cell => cell.fitsWithin t = true where
  missing := fitsWithin_missing
  cast := Cast.cell_fitsWithin

namespace Column

variable {c l r : Column} {cs : List Column}

theorem TypedWithin.typed (h : c.TypedWithin) :
    c.Typed := fun cell hcell => Cell.fits_of_fitsWithin (h cell hcell)

theorem Typed.within (h : c.Typed) (hplain : c.type.isList = false) : c.TypedWithin :=
  fun cell hcell => Cell.fitsWithin_of_plain hplain (h cell hcell)

/-- What is typed and of a plain type is typed within. -/
theorem yields_within {x : Except Error Column} (h : Yields Typed x)
    (hplain : Yields (·.type.isList = false) x) :
    Yields TypedWithin x := fun c hc => (h c hc).within (hplain c hc)

theorem TypedWithin.keep (h : c.TypedWithin) (mask : List Bool) :
    (c.keep mask).TypedWithin :=
  Holds.keep (P := fun t cell => cell.fitsWithin t = true) h mask

theorem TypedWithin.cast (h : c.TypedWithin) (target : Physical) :
    Yields (fun out => out.type = target ∧ out.TypedWithin) (c.cast target) :=
  Holds.cast Cell.kept_fitsWithin h target

/-! ## Operators -/

theorem plain_computed {t : Physical} (ht : t.isList = false)
    (x : Except ComputeFailure (List Cell)) :
    Yields (·.type.isList = false) (computed t x) :=
  (type_computed t x).mono fun _ h => h ▸ ht

theorem plain_binary (op : BinaryOp) (l r : Column) :
    Yields (·.type.isList = false) (op.apply l r) := by
  refine .bind_any fun p _ => ?_
  cases op with
  | arithmetic op =>
      refine .bind_any fun rows _ => ?_
      split
      · exact plain_computed rfl _
      · exact plain_computed rfl _
      · exact .ok rfl
      · exact .error _
  | power => exact (type_power _ _).mono fun _ h => by rw [h]; rfl
  | compare op => exact (type_compare op _ _).mono fun _ h => by rw [h]; rfl
  | logic op => exact (type_logic op _ _).mono fun _ h => by rw [h]; rfl
  | bitwise op => exact (type_bitwise op _ _).mono fun _ h => by rw [h]; rfl

theorem within_binary (op : BinaryOp) (l r : Column) : Yields TypedWithin (op.apply l r) :=
  yields_within (typed_binary op l r) (plain_binary op l r)

theorem within_mapDoubles (f : Double → Double) (c : Column) :
    Yields TypedWithin (c.mapDoubles f) :=
  yields_within (typed_mapDoubles f c) ((type_mapDoubles f c).mono fun _ h => by rw [h]; rfl)

theorem within_unary (op : UnaryOp) (c : Column) : Yields TypedWithin (op.apply c) := by
  cases op with
  | negate =>
      refine yields_within (typed_negate c) ?_
      show Yields _ c.negate
      unfold negate
      split
      · exact plain_computed rfl _
      · exact plain_computed rfl _
      · exact .ok rfl
      · exact .error _
  | not => exact yields_within (typed_unary .not c) (.bind_any fun _ _ => .ok rfl)
  | complement =>
      exact yields_within (typed_unary .complement c) (.bind_any fun _ _ => .ok rfl)
  | isNull | isNotNull => exact .ok ((typed_bools _).within rfl)
  | isNan | isInfinite =>
      exact yields_within (typed_floatTest _ c) (.bind_any fun _ _ => .ok rfl)
  | abs =>
      show Yields _ c.abs
      unfold abs
      split
      · refine (TypedWithin.cast (Typed.within (typed_map (fun cell => ?_) c.cells) rfl)
          c.type).mono fun _ h => h.2
        cases cell <;> rfl
      · exact within_mapDoubles _ _
  | sign => exact .bind (within_mapDoubles _ c) fun _ h => (h.cast _).mono fun _ h => h.2
  | _ => exact within_mapDoubles _ c

/-! ## Functions -/

theorem within_splitTexts (separator : String) (c : Column) :
    Yields TypedWithin (c.splitTexts separator) := by
  refine .bind_any fun texts _ => .ok fun cell hcell => ?_
  obtain ⟨s, -, rfl⟩ := List.mem_map.1 hcell
  cases s with
  | none => exact Cell.fitsWithin_missing _ _
  | some s =>
      refine Cell.fitsWithin_list.2 fun item hitem => ?_
      obtain ⟨part, -, rfl⟩ := List.mem_map.1 hitem
      rfl

theorem TypedWithin.listConcat (hl : l.TypedWithin) (hr : r.TypedWithin) :
    Yields TypedWithin (listConcat l r) := by
  rw [listConcat_eq]
  refine .bind (hr.cast l.type) fun r hr => .bind_any fun _ hlist => .ok fun cell hcell => ?_
  obtain ⟨htype, hr⟩ := hr
  rw [← List.map_uncurry_zip_eq_zipWith] at hcell
  obtain ⟨⟨a, b⟩, hp, rfl⟩ := List.mem_map.1 hcell
  obtain ⟨ha, hb⟩ := List.of_mem_zip hp
  have ha := hl a ha
  have hb := htype ▸ hr b hb
  show (concatCells a b).fitsWithin l.type = true
  unfold concatCells
  split
  · cases ht : l.type with
    | list s =>
        rw [ht] at ha hb
        refine Cell.fitsWithin_list.2 fun item hitem => ?_
        rcases List.mem_append.1 hitem with hitem | hitem
        · exact Cell.fitsWithin_list.1 ha item hitem
        · exact Cell.fitsWithin_list.1 hb item hitem
    | _ => rw [ht] at ha; cases ha
  · exact Cell.fitsWithin_missing _ _

theorem within_listFromColumns (h : ∀ c ∈ cs, c.TypedWithin) :
    Yields TypedWithin (listFromColumns cs) := by
  cases cs with
  | nil => exact .error _
  | cons first rest =>
      rw [listFromColumns_eq]
      split
      · next htypes =>
          refine .ok fun cell hcell => ?_
          obtain ⟨i, -, rfl⟩ := List.mem_map.1 hcell
          refine Cell.fitsWithin_list.2 fun item hitem => ?_
          obtain ⟨c, hc, rfl⟩ := List.mem_map.1 hitem
          have htype : c.type = first.type := by
            rcases List.mem_cons.1 hc with rfl | hmem
            · rfl
            · exact of_decide_eq_true (List.all_eq_true.1 htypes c hmem)
          rw [List.getD_eq_getElem?_getD]
          cases hget : c.cells[i]? with
          | none => exact Cell.fits_null _
          | some cell => exact htype ▸ (h c hc).typed cell (List.mem_of_getElem? hget)
      · exact .error _

end Column

open Column

theorem Function.within_applyOne {c : Column} (h : c.TypedWithin) (f : Function) :
    Yields TypedWithin (applyOne c f) := by
  have hplain (hf : Yields (·.type.isList = false) (applyOne c f)) :
      Yields TypedWithin (applyOne c f) :=
    yields_within (typed_applyOne h.typed f) hf
  have htype (hf : (f.resultType c.type).isList = false) :
      Yields TypedWithin (applyOne c f) :=
    hplain ((type_applyOne f c).mono fun _ h => h ▸ hf)
  cases f with
  | split => exact within_splitTexts _ c
  | truncate unit =>
      refine hplain (.bind_any fun _ hinstants => .bind_any fun _ _ => .ok ?_)
      have htemporal := isTemporal_of_instants hinstants
      show c.type.isList = false
      cases ht : c.type with
      | list => rw [ht] at htemporal; cases htemporal
      | _ => rfl
  | concat | dateFromParts | timestampFromParts | atan2 | listConcat | listFromColumns =>
      exact .error _
  | _ => exact htype rfl

theorem Function.within_apply {cs : List Column} (h : ∀ c ∈ cs, c.TypedWithin)
    (f : Function) :
    Yields TypedWithin (f.apply cs) := by
  have htype (hf : ∀ t, (f.resultType t).isList = false) : Yields TypedWithin (f.apply cs) :=
    yields_within (typed_apply (fun c hc => (h c hc).typed) f)
      ((type_apply f cs).mono fun _ h => h ▸ hf _)
  cases f with
  | concat | dateFromParts | timestampFromParts | atan2 => exact htype fun _ => rfl
  | listConcat =>
      simp only [apply]
      split
      · exact (h _ List.mem_cons_self).listConcat
          (h _ (List.mem_cons_of_mem _ List.mem_cons_self))
      · exact .error _
  | listFromColumns => exact within_listFromColumns h
  | _ =>
      simp only [apply]
      split
      · exact within_applyOne (h _ List.mem_cons_self) _
      · exact .error _

/-! ## Reductions -/

theorem Reduction.within_single {t : Physical} {cell : Cell}
    (h : cell.fitsWithin t = true) : TypedWithin (single t cell) :=
  List.forall_mem_singleton.2 h

theorem Reduction.within_extreme {c : Column} (h : c.TypedWithin) (greatest : Bool) :
    Yields TypedWithin (extreme greatest c) := by
  unfold extreme
  split
  · exact .ok (within_single (Cell.fitsWithin_missing _ _))
  · split
    · exact .error _
    · refine .ok (within_single ?_)
      cases hleast : leastCell _ (c.cells.filter (!·.isNull)) with
      | none =>
          rw [Option.getD_none]
          cases hcells : c.cells with
          | nil => exact Cell.fitsWithin_missing _ _
          | cons first rest => exact h first (hcells ▸ List.mem_cons_self)
      | some cell => exact h cell (List.mem_filter.1 (mem_of_leastCell hleast)).1

theorem Reduction.within_apply {c : Column} (h : c.TypedWithin) (f : Reduction) :
    Yields TypedWithin (f.apply c) := by
  have htype (hf : (f.resultType c.type).isList = false) : Yields TypedWithin (f.apply c) :=
    yields_within (typed_apply h.typed f) ((type_apply f c).mono fun _ h => h ▸ hf)
  cases f with
  | min | max => exact within_extreme h _
  | collect =>
      refine .ok (within_single (Cell.fitsWithin_list.2 fun item hitem => ?_))
      exact h.typed item (List.mem_filter.1 hitem).1
  | sum =>
      refine htype ?_
      simp only [resultType]
      split <;> rfl
  | _ => exact htype rfl

/-! ## Expressions -/

theorem Literal.within_column (v : Value) (t : DataType) (rows : Nat) :
    Yields TypedWithin (column v t rows) := by
  unfold column
  dsimp only
  split
  · refine .ok fun cell hcell => ?_
    rw [List.eq_of_mem_replicate hcell]
    exact Cell.fitsWithin_missing _ _
  · have hstored : Yields (fun stored => stored.2.fits stored.1 = true
        ∧ stored.1.isList = false) (stored v) := by
      cases v <;> first | exact .ok ⟨rfl, rfl⟩ | exact .error _
    refine .bind hstored fun p hp => ?_
    have hconstant := (typed_constant hp.1 rows).within hp.2
    split
    · exact .ok hconstant
    · exact (hconstant.cast _).mono fun _ h => h.2

/-- Every column of the batch holds cells of its type, with elements of the type of their
list. -/
def Batch.TypedWithin (b : Batch) : Prop := ∀ c ∈ b.columns, c.2.TypedWithin

theorem Batch.TypedWithin.gather {b : Batch} (hb : b.TypedWithin)
    (rows : List (Option Nat)) :
    (b.gather rows).TypedWithin := by
  intro c hc
  obtain ⟨d, hd, rfl⟩ := List.mem_map.1 hc
  exact Holds.gather Cell.kept_fitsWithin (hb d hd) rows

namespace Expr

variable {b : Batch}

theorem invariant_fitsWithin : Invariant fun t cell => cell.fitsWithin t = true where
  toKept := Cell.kept_fitsWithin
  bool := fun _ => rfl
  int := fun _ => rfl
  literal := Literal.within_column
  unary := within_unary
  binary := within_binary
  function := fun f _ h => f.within_apply h
  reduction := fun f _ h => f.within_apply h

theorem within_evaluate (hb : b.TypedWithin) (e : Expr) :
    Yields TypedWithin (e.evaluate b) :=
  holds_evaluate invariant_fitsWithin hb e

end Expr

end TypedQuery
