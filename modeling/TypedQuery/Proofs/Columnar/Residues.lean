import TypedQuery.Proofs.Columnar.Functions
import TypedQuery.Proofs.Columnar.Reduced

/-!
# Residues are no data

What is left in the slot of a missing cell is seen by nothing but a condition that
chooses. So columns with the same data are taken by every operation to columns with the
same data, where the rows that are chosen are given. A cell without residues,
`Cell.bare`, stands for all cells with its data: an operation on cells respects data if
it may be given the bare cells instead.
-/

namespace TypedQuery

variable {ε α β γ δ : Type}

/-! ## Lists with the same data

What is looked at of an item is told by a function that leaves nothing else of it. -/

theorem map_of_respects {g : α → α} {f : α → β} (hf : ∀ a, f (g a) = f a) {as bs : List α}
    (h : as.map g = bs.map g) :
    as.map f = bs.map f := by
  have hmap : ∀ xs : List α, (xs.map g).map f = xs.map f := fun xs => by
    rw [List.map_map]
    exact List.map_congr_left fun a _ => hf a
  rw [← hmap as, h, hmap]

theorem map_mapM (f : α → Except ε β) (k : β → δ) (xs : List α) :
    (xs.mapM f).map (List.map k) = xs.mapM fun a => (f a).map k := by
  induction xs with
  | nil => rfl
  | cons x rest ih =>
      rw [List.mapM_cons, List.mapM_cons, ← ih]
      cases f x with
      | error e => rfl
      | ok y => cases rest.mapM f <;> rfl

theorem follows_of_map_eq {x y : Except ε α} {k : α → γ} (h : x.map k = y.map k) :
    Follows (fun a b => k a = k b) x y := by
  intro a ha
  rcases map_eq_map.1 h with ⟨e, hx, -⟩ | ⟨a', b, hx, hy, hab⟩
  · cases ha.symm.trans hx
  · cases ha.symm.trans hx
    exact ⟨b, hy, hab⟩

theorem mapM_of_respects {g : α → α} {k : β → δ} {f : α → Except ε β}
    (hf : ∀ a, (f (g a)).map k = (f a).map k) {as bs : List α} (h : as.map g = bs.map g) :
    Follows (fun xs ys => xs.map k = ys.map k) (as.mapM f) (bs.mapM f) := by
  have hmapM : ∀ xs : List α, (xs.mapM f).map (List.map k) = (xs.map g).mapM fun a =>
      (f a).map k := by
    intro xs
    rw [map_mapM, List.mapM_map]
    exact congrArg (fun f => xs.mapM f) (funext fun a => (hf a).symm)
  refine follows_of_map_eq ?_
  rw [hmapM, hmapM, h]

theorem zip_map_eq {g : α → γ} {k : β → δ} {as as' : List α} {bs bs' : List β}
    (ha : as.map g = as'.map g) (hb : bs.map k = bs'.map k) :
    (as.zip bs).map (Prod.map g k) = (as'.zip bs').map (Prod.map g k) := by
  rw [← List.zip_map, ha, hb, List.zip_map]

/-! ## Cells -/

namespace Cell

theorem bareList_eq_map (items : List Cell) : bareList items = items.map bare := by
  induction items with
  | nil => rfl
  | cons cell rest ih => rw [bareList, ih, List.map_cons]

/-- Residues may be anything, so those that are computed need not be compared. -/
theorem bare_missing (r r' : Residue) : (missing r).bare = (missing r').bare := rfl

theorem bool?_bare (a : Cell) : a.bare.bool? = a.bool? := by cases a <;> rfl

theorem int?_bare (a : Cell) : a.bare.int? = a.int? := by cases a <;> rfl

theorem float?_bare (a : Cell) : a.bare.float? = a.float? := by cases a <;> rfl

theorem text?_bare (a : Cell) : a.bare.text? = a.text? := by cases a <;> rfl

theorem isTrue_bare (a : Cell) : a.bare.isTrue = a.isTrue := by cases a <;> rfl

mutual

theorem bare_bare : ∀ a : Cell, a.bare.bare = a.bare
  | missing _ | bool _ | int _ | float _ | text _ | bytes _ => rfl
  | list items => congrArg list (bareList_bareList items)

theorem bareList_bareList : ∀ items : List Cell, bareList (bareList items) = bareList items
  | [] => rfl
  | cell :: rest => by rw [bareList, bareList, bare_bare cell, bareList_bareList rest]

end

mutual

theorem order_bare (nullsFirst : Bool) :
    ∀ a b : Cell, order nullsFirst a.bare b.bare = order nullsFirst a b
  | missing _, b => by cases b <;> rfl
  | bool _, b => by cases b <;> rfl
  | int _, b => by cases b <;> rfl
  | float _, b => by cases b <;> rfl
  | text _, b => by cases b <;> rfl
  | bytes _, b => by cases b <;> rfl
  | list as, b => by
      cases b with
      | list bs => exact orderList_bare nullsFirst as bs
      | _ => rfl

theorem orderList_bare (nullsFirst : Bool) : ∀ as bs : List Cell,
    orderList nullsFirst (bareList as) (bareList bs) = orderList nullsFirst as bs
  | [], [] | [], _ :: _ | _ :: _, [] => rfl
  | a :: as, b :: bs => by
      rw [bareList, bareList, orderList, orderList, order_bare nullsFirst a b,
        orderList_bare nullsFirst as bs]

end

mutual

theorem written_bare : ∀ (t : Physical) (a : Cell), Cast.written t a.bare = Cast.written t a
  | t, missing _ => by cases t <;> rfl
  | t, bool _ => by cases t <;> rfl
  | t, int _ => rfl
  | t, float _ => by cases t <;> rfl
  | t, text _ => by cases t <;> rfl
  | t, bytes _ => by cases t <;> rfl
  | t, list items => by
      cases t <;> simp only [bare, Cast.written, writtenItems_bare _ items]

theorem writtenItems_bare (t : Physical) :
    ∀ items : List Cell, Cast.writtenItems t (bareList items) = Cast.writtenItems t items
  | [] => rfl
  | a :: rest => by rw [bareList, Cast.writtenItems, Cast.writtenItems, written_bare t a,
    writtenItems_bare t rest]

end

theorem filled_bare (source target : Physical) {a : Cell} (ha : a.isNull = false) :
    (Cast.filled source target a.bare).map bare
      = (Cast.filled source target a).map bare := by
  cases a with
  | list items =>
      have hsame : (Except.ok (list items).bare : Except ComputeFailure Cell).map bare
          = (Except.ok (list items)).map bare :=
        congrArg Except.ok (bare_bare (list items))
      cases target with
      | text =>
          exact congrArg (Except.map bare)
            (congrArg (Except.map text) (written_bare source (list items)))
      | _ => exact hsame
  | missing r => cases ha
  | _ => rfl

theorem cast_bare_of_plain {source target : Physical}
    (hlist : target.isList = false) (a : Cell) :
    (Cast.cell source target a.bare).map bare = (Cast.cell source target a).map bare := by
  cases hnull : a.isNull with
  | true =>
      obtain ⟨r, rfl⟩ := missing_of_isNull hnull
      rw [bare, null, Cast.cell_missing hlist, Cast.cell_missing hlist]
      rfl
  | false =>
      rw [Cast.cell_filled hlist hnull, Cast.cell_filled hlist ((isNull_bare a).trans hnull)]
      split
      · exact congrArg Except.ok (bare_bare a)
      · exact filled_bare source target hnull

/-- Conversion looks at the data of a cell and leaves a residue besides. -/
theorem cast_bare (source target : Physical) (a : Cell) :
    (Cast.cell source target a.bare).map bare = (Cast.cell source target a).map bare := by
  induction target generalizing source a with
  | list t ih =>
      have hlist : ∀ x : Except ComputeFailure (List Cell),
          (x >>= fun items => .ok (list items)).map bare
            = (x.map (List.map bare)).map list := by
        intro x
        cases x with
        | error e => rfl
        | ok items => exact congrArg Except.ok (congrArg list (bareList_eq_map items))
      have hone : ∀ x : Except ComputeFailure Cell,
          (x >>= fun item => .ok (list [item])).map bare = (x.map bare).map fun item =>
            list [item] := by
        intro x
        cases x <;> rfl
      cases source with
      | null => rfl
      | list s =>
          cases a with
          | list items =>
              rw [bare, bareList_eq_map]
              show (((items.map bare).mapM fun item => Cast.cell s t item) >>= fun items =>
                .ok (list items)).map bare
                = ((items.mapM fun item => Cast.cell s t item) >>= fun items =>
                  .ok (list items)).map bare
              rw [hlist, hlist, List.mapM_map, map_mapM, map_mapM]
              exact congrArg (fun f => Except.map list (items.mapM f))
                (funext fun item => ih s item)
          | missing r => rfl
          | _ => rfl
      | _ => exact (hone _).trans ((congrArg _ (ih _ a)).trans (hone _).symm)
  | _ => exact cast_bare_of_plain rfl a

end Cell

/-! ## Columns -/

namespace Column

/-- What is seen of two cells side by side: nothing if one of them is missing. -/
def seen : Option (Cell × Cell) → Option (Cell × Cell)
  | some (a, b) => if a.isNull || b.isNull then none else some (a.bare, b.bare)
  | none => none

theorem seen_bare (a b : Cell) : seen (some (a.bare, b.bare)) = seen (some (a, b)) := by
  simp only [seen, Cell.isNull_bare, Cell.bare_bare]

theorem seen_congr {a a' b b' : Cell} (ha : a.bare = a'.bare) (hb : b.bare = b'.bare) :
    seen (some (a, b)) = seen (some (a', b')) := by
  rw [← seen_bare, ha, hb, seen_bare]

/-- A row in which the cell that is repeated is missing shows nothing anyway. -/
theorem seen_left (a : Cell) (bs : List Cell) :
    (bs.map fun b => if a.isNull then none else some (a, b)).map seen = bs.map fun b =>
      seen (some (a, b)) := by
  rw [List.map_map]
  refine List.map_congr_left fun b _ => ?_
  cases h : a.isNull <;> simp [seen, h]

theorem seen_right (as : List Cell) (b : Cell) :
    (as.map fun a => if b.isNull then none else some (a, b)).map seen = as.map fun a =>
      seen (some (a, b)) := by
  rw [List.map_map]
  refine List.map_congr_left fun a _ => ?_
  cases h : b.isNull <;> simp [seen, h]

theorem pairs_of_single_left {l r : Column} {a : Cell} (ha : l.cells = [a])
    (hne : l.length ≠ r.length) :
    l.pairs r = .ok (r.cells.map fun b => if a.isNull then none else some (a, b)) := by
  rw [pairs, if_neg hne, ha]

theorem pairs_of_single_right {l r : Column} {b : Cell} (hb : r.cells = [b])
    (hne : l.length ≠ r.length) :
    l.pairs r = .ok (l.cells.map fun a => if b.isNull then none else some (a, b)) := by
  rw [pairs, if_neg hne, hb]
  obtain ⟨t, cells⟩ := l
  rcases cells with _ | ⟨a, _ | ⟨a', rest⟩⟩
  · rfl
  · rw [length, length, hb] at hne
    exact absurd rfl hne
  · rfl

namespace SameData

variable {c c' l l' r r' : Column} {cs cs' : List Column}

theorem symm (h : c.SameData c') : c'.SameData c := ⟨h.1.symm, h.2.symm⟩

theorem trans {d : Column} (h : c.SameData c') (h' : c'.SameData d) :
    c.SameData d := ⟨h.1.trans h'.1, h.2.trans h'.2⟩

theorem length_eq (h : c.SameData c') : c.length = c'.length := by
  rw [length, length, ← List.length_map Cell.bare, h.2, List.length_map]

theorem views {β : Type} {f : Cell → β} (hf : ∀ a, f a.bare = f a) (h : c.SameData c') :
    c.cells.map f = c'.cells.map f :=
  map_of_respects hf h.2

/-- A computation cell by cell whose results have the same data. -/
theorem map {f : Cell → Cell} (t : Physical) (hf : ∀ a, (f a.bare).bare = (f a).bare)
    (h : c.SameData c') :
    SameData ⟨t, c.cells.map f⟩ ⟨t, c'.cells.map f⟩ := by
  refine ⟨rfl, ?_⟩
  rw [List.map_map, List.map_map]
  exact h.views hf

theorem computed {x y : Except ComputeFailure (List Cell)} (t : Physical)
    (h : Follows (fun xs ys => xs.map Cell.bare = ys.map Cell.bare) x y) :
    Follows SameData (Column.computed t x) (Column.computed t y) := by
  intro out hout
  cases x with
  | error failure => cases hout
  | ok cells =>
      cases hout
      obtain ⟨cells', rfl, hcells⟩ := h cells rfl
      exact ⟨_, rfl, rfl, hcells⟩

theorem cast (h : c.SameData c') (target : Physical) :
    Follows SameData (c.cast target) (c'.cast target) := by
  unfold Column.cast
  rw [h.1, castCells_eq_mapM, castCells_eq_mapM]
  split
  · exact .ok h
  · split
    · exact computed target (mapM_of_respects (Cell.cast_bare c'.type target) h.2)
    · exact .error _ _

theorem coerce (hl : l.SameData l') (hr : r.SameData r') :
    Follows (fun p p' => p.1.SameData p'.1 ∧ p.2.SameData p'.2) (l.coerce r)
      (l'.coerce r') := by
  unfold Column.coerce
  rw [hl.1, hr.1]
  exact .bind_same fun t _ => .bind (hl.cast t) fun _ _ hl =>
    .bind (hr.cast t) fun _ _ hr => .ok ⟨hl, hr⟩

theorem exists_single {cell : Cell} (h : c.SameData c') (hcell : c.cells = [cell]) :
    ∃ cell', c'.cells = [cell'] ∧ cell.bare = cell'.bare := by
  obtain ⟨cell', hcell'⟩ :=
    List.length_eq_one_iff.1 (h.length_eq ▸ congrArg List.length hcell : c'.length = 1)
  have hcells := h.2
  rw [hcell, hcell'] at hcells
  exact ⟨cell', hcell', (List.cons.inj hcells).1⟩

theorem broadcast (h : c.SameData c') (rows : Nat) :
    Follows SameData (c.broadcast rows) (c'.broadcast rows) := by
  unfold Column.broadcast
  rw [h.length_eq]
  split
  · exact .ok h
  · split
    · next cell hcell =>
        obtain ⟨cell', hcell', hbare⟩ := h.exists_single hcell
        rw [hcell', h.1]
        refine .ok ⟨rfl, ?_⟩
        simp only [constant, List.map_replicate, hbare]
    · exact .error _ _

theorem condition (h : c.SameData c') :
    Follows (fun xs ys => xs.map Cell.bare = ys.map Cell.bare) c.condition c'.condition := by
  unfold Column.condition
  rw [h.1]
  split
  · exact .ok h.2
  · exact .error _ _

/-! ## Two columns side by side -/

theorem pairs (hl : l.SameData l') (hr : r.SameData r') :
    Follows (fun ps ps' => ps.map seen = ps'.map seen) (l.pairs r) (l'.pairs r') := by
  by_cases heq : l.length = r.length
  · rw [Column.pairs, Column.pairs, if_pos heq, if_pos (hl.length_eq ▸ hr.length_eq ▸ heq)]
    refine .ok ?_
    rw [List.map_map, List.map_map]
    exact map_of_respects (fun p => seen_bare p.1 p.2) (zip_map_eq hl.2 hr.2)
  · have hne : l'.length ≠ r'.length := by rw [← hl.length_eq, ← hr.length_eq]; exact heq
    intro ps hps
    rw [Column.pairs, if_neg heq] at hps
    split at hps
    · next a ha =>
        cases hps
        obtain ⟨a', ha', hbare⟩ := hl.exists_single ha
        refine ⟨_, pairs_of_single_left ha' hne, ?_⟩
        show List.map seen _ = List.map seen _
        rw [seen_left, seen_left, funext fun b => seen_congr hbare rfl]
        exact hr.views fun b => seen_congr rfl (Cell.bare_bare b)
    · next b hb _ =>
        cases hps
        obtain ⟨b', hb', hbare⟩ := hr.exists_single hb
        refine ⟨_, pairs_of_single_right hb' hne, ?_⟩
        show List.map seen _ = List.map seen _
        rw [seen_right, seen_right, funext fun a => seen_congr rfl hbare]
        exact hl.views fun a => seen_congr (Cell.bare_bare a) rfl
    · cases hps

theorem checked_seen (fits : Int → Bool) (op : Arithmetic) (p : Option (Cell × Cell)) :
    (((seen p).map fun p => op.checked fits p.1 p.2).getD (.ok .null)).map Cell.bare
      = ((p.map fun p => op.checked fits p.1 p.2).getD (.ok .null)).map Cell.bare := by
  rcases p with _ | ⟨a, b⟩
  · rfl
  · cases a <;> cases b <;> rfl

theorem unchecked_bare (op : Arithmetic) (a b : Cell) :
    (op.unchecked a.bare b.bare).bare = (op.unchecked a b).bare := by
  cases a with
  | float x =>
      cases b with
      | float y => rfl
      | _ => exact Cell.bare_missing _ _
  | _ => exact Cell.bare_missing _ _

theorem unchecked_missing (op : Arithmetic) {a b : Cell}
    (h : (a.isNull || b.isNull) = true) :
    (op.unchecked a b).bare = .null := by
  cases a with
  | float x =>
      cases b with
      | missing r => exact Cell.bare_missing _ .blank
      | _ => cases h
  | _ => exact Cell.bare_missing _ .blank

theorem compareCells_bare (op : Comparison) (t : Physical) (a b : Cell) :
    (compareCells op t a.bare b.bare).bare = (compareCells op t a b).bare := by
  unfold compareCells
  rw [Cell.isNull_bare, Cell.isNull_bare, Cell.order_bare]
  split
  · split <;> rfl
  · rfl

theorem compareCells_missing (op : Comparison) (t : Physical) {a b : Cell}
    (h : (a.isNull || b.isNull) = true) :
    (compareCells op t a b).bare = .null := by
  rw [compareCells, if_pos h]
  split <;> rfl

/-- A computation on two cells side by side gives null where nothing is seen of them. -/
theorem pairwise {f : Cell → Cell → Cell} (t : Physical)
    (hf : ∀ a b, (f a.bare b.bare).bare = (f a b).bare)
    (hmissing : ∀ {a b}, (a.isNull || b.isNull) = true → (f a b).bare = .null)
    {ps ps' : List (Option (Cell × Cell))} (h : ps.map seen = ps'.map seen) :
    SameData ⟨t, ps.map fun p => (p.map fun (a, b) => f a b).getD .null⟩
      ⟨t, ps'.map fun p => (p.map fun (a, b) => f a b).getD .null⟩ := by
  refine ⟨rfl, ?_⟩
  show List.map Cell.bare _ = List.map Cell.bare _
  rw [List.map_map, List.map_map]
  refine map_of_respects (fun p => ?_) h
  rcases p with _ | ⟨a, b⟩
  · rfl
  · cases hnull : a.isNull || b.isNull with
    | true =>
        rw [seen, if_pos hnull]
        exact (hmissing hnull).symm
    | false =>
        rw [seen, if_neg (by rw [hnull]; exact Bool.false_ne_true)]
        exact hf a b

/-- Arithmetic and comparison see of their operands what is side by side. -/
theorem arithmetic (op : Arithmetic) (htype : l.type = l'.type)
    (h : Follows (fun ps ps' => ps.map seen = ps'.map seen) (l.pairs r) (l'.pairs r')) :
    Follows SameData (Column.arithmetic op l r) (Column.arithmetic op l' r') := by
  unfold Column.arithmetic
  rw [htype]
  refine .bind h fun ps ps' hps => ?_
  simp only [rowwise_eq_mapM]
  split
  · exact computed _ (mapM_of_respects (checked_seen _ op) hps)
  · exact computed _ (mapM_of_respects (checked_seen _ op) hps)
  · exact .ok (pairwise _ (unchecked_bare op) (unchecked_missing op) hps)
  · exact .error _ _

theorem compare (op : Comparison) (htype : l.type = l'.type)
    (h : Follows (fun ps ps' => ps.map seen = ps'.map seen) (l.pairs r) (l'.pairs r')) :
    Follows SameData (Column.compare op l r) (Column.compare op l' r') := by
  unfold Column.compare
  rw [htype]
  refine .bind h fun ps ps' hps => ?_
  split
  · exact .error _ _
  · exact .ok (pairwise _ (compareCells_bare op l'.type)
      (compareCells_missing op l'.type) hps)

/-- A computation on two cells in the same row. -/
theorem zipWith {f : Cell → Cell → Cell} (t : Physical)
    (hf : ∀ a b, (f a.bare b.bare).bare = (f a b).bare) {as as' bs bs' : List Cell}
    (ha : as.map Cell.bare = as'.map Cell.bare) (hb : bs.map Cell.bare = bs'.map Cell.bare) :
    SameData ⟨t, List.zipWith f as bs⟩ ⟨t, List.zipWith f as' bs'⟩ := by
  refine ⟨rfl, ?_⟩
  show List.map Cell.bare _ = List.map Cell.bare _
  rw [← List.map_uncurry_zip_eq_zipWith, ← List.map_uncurry_zip_eq_zipWith,
    List.map_map, List.map_map]
  exact map_of_respects (fun p => hf p.1 p.2) (zip_map_eq ha hb)

theorem logicCells_bare (op : Logic) (a b : Cell) :
    (logicCells op a.bare b.bare).bare = (logicCells op a b).bare := by
  unfold logicCells
  rw [Cell.bool?_bare, Cell.bool?_bare]
  split <;> rfl

theorem logic (op : Logic) (hl : l.SameData l') (hr : r.SameData r') :
    Follows SameData (Column.logic op l r) (Column.logic op l' r') := by
  unfold Column.logic
  rw [hl.length_eq, hr.length_eq]
  refine .bind (hl.broadcast _) fun _ _ hl => .bind hl.condition fun _ _ hls => ?_
  exact .bind (hr.broadcast _) fun _ _ hr => .bind hr.condition fun _ _ hrs =>
    .ok (zipWith _ (logicCells_bare op) hls hrs)

theorem bitwiseCells_bare (op : Bitwise) (a b : Cell) :
    (bitwiseCells op a.bare b.bare).bare = (bitwiseCells op a b).bare := by
  cases a with
  | int m =>
      cases b with
      | int n => rfl
      | _ => exact Cell.bare_missing _ _
  | _ => exact Cell.bare_missing _ _

theorem bitwise (op : Bitwise) (hl : l.SameData l') (hr : r.SameData r') :
    Follows SameData (Column.bitwise op l r) (Column.bitwise op l' r') := by
  unfold Column.bitwise
  rw [hl.length_eq, hr.length_eq]
  refine .bind (hl.broadcast _) fun _ _ hl => .bind (hl.cast _) fun _ _ hls => ?_
  exact .bind (hr.broadcast _) fun _ _ hr => .bind (hr.cast _) fun _ _ hrs =>
    .ok (zipWith _ (bitwiseCells_bare op) hls.2 hrs.2)

theorem power (hl : l.SameData l') (hr : r.SameData r') :
    Follows SameData (Column.power l r) (Column.power l' r') := by
  unfold Column.power
  refine .bind (hl.cast _) fun base base' hbase =>
    .bind (hr.cast _) fun exponent exponent' hexponent => ?_
  rw [hbase.length_eq, hexponent.length_eq]
  refine .bind (hbase.broadcast _) fun x x' hx =>
    .bind (hexponent.broadcast _) fun y y' hy => .ok ⟨rfl, ?_⟩
  refine congrArg (List.map Cell.bare) (congrArg (List.map _) ?_)
  refine map_of_respects (fun p => ?_) (zip_map_eq hx.2 hy.2)
  obtain ⟨a, b⟩ := p
  cases a <;> cases b <;> rfl

theorem binary (op : BinaryOp) (hl : l.SameData l') (hr : r.SameData r') :
    Follows SameData (op.apply l r) (op.apply l' r') := by
  unfold BinaryOp.apply
  refine .bind (hl.coerce hr) fun p p' hp => ?_
  obtain ⟨hl, hr⟩ := hp
  cases op with
  | arithmetic op => exact arithmetic op hl.1 (hl.pairs hr)
  | power => exact hl.power hr
  | compare op => exact compare op hl.1 (hl.pairs hr)
  | logic op => exact hl.logic op hr
  | bitwise op => exact hl.bitwise op hr

/-! ## One column -/

theorem toInts (h : c.SameData c') : Follows (· = ·) c.toInts c'.toInts :=
  .bind (h.cast _) fun _ _ h => .ok (h.views Cell.int?_bare)

theorem toFloats (h : c.SameData c') : Follows (· = ·) c.toFloats c'.toFloats :=
  .bind (h.cast _) fun _ _ h => .ok (h.views Cell.float?_bare)

theorem toTexts (h : c.SameData c') : Follows (· = ·) c.toTexts c'.toTexts :=
  .bind (h.cast _) fun _ _ h => .ok (h.views Cell.text?_bare)

/-- A step that sees nothing but what was read. -/
theorem of_read {x y : Except Error α} {f : α → Except Error Column}
    (h : Follows (· = ·) x y) :
    Follows SameData (x >>= f) (y >>= f) :=
  .bind h fun _ _ hab => hab ▸ fun out hout => ⟨out, hout, .refl out⟩

theorem negate (h : c.SameData c') : Follows SameData c.negate c'.negate := by
  have hints (fits : Int → Bool) :
      Follows SameData (Column.computed c'.type (negateInts fits c.cells))
      (Column.computed c'.type (negateInts fits c'.cells)) := by
    rw [negateInts_eq_mapM, negateInts_eq_mapM]
    refine computed _ (mapM_of_respects (fun a => ?_) h.2)
    cases a <;> rfl
  unfold Column.negate
  rw [h.1]
  split
  · next ht => exact ht ▸ hints _
  · next ht => exact ht ▸ hints _
  · exact .ok (h.map _ fun a => by cases a <;> rfl)
  · exact .error _ _

theorem negateCondition (h : c.SameData c') :
    Follows SameData c.negateCondition c'.negateCondition := by
  unfold Column.negateCondition
  refine .bind h.condition fun xs ys hcells => .ok ?_
  have hsame : SameData ⟨.boolean, xs⟩ ⟨.boolean, ys⟩ := ⟨rfl, hcells⟩
  exact hsame.map .boolean fun a => by cases a <;> rfl

theorem complement (h : c.SameData c') : Follows SameData c.complement c'.complement :=
  .bind (h.cast _) fun _ _ h => .ok (h.map _ fun a => by cases a <;> rfl)

theorem mapDoubles (f : Double → Double) (h : c.SameData c') :
    Follows SameData (c.mapDoubles f) (c'.mapDoubles f) :=
  of_read h.toFloats

theorem abs (h : c.SameData c') : Follows SameData c.abs c'.abs := by
  unfold Column.abs
  rw [h.1]
  split
  · exact SameData.cast (h.map _ fun a => by cases a <;> rfl) _
  · exact h.mapDoubles _

theorem sign (h : c.SameData c') : Follows SameData c.sign c'.sign := by
  unfold Column.sign
  rw [h.1]
  exact .bind (h.mapDoubles _) fun _ _ h => h.cast _

theorem isNull (h : c.SameData c') : c.isNull = c'.isNull := h.views Cell.isNull_bare

theorem unary (op : UnaryOp) (h : c.SameData c') :
    Follows SameData (op.apply c) (op.apply c') := by
  cases op with
  | negate => exact h.negate
  | not => exact h.negateCondition
  | complement => exact h.complement
  | isNull => exact .ok (by rw [h.isNull]; exact .refl _)
  | isNotNull => exact .ok (by rw [h.isNull]; exact .refl _)
  | isNan | isInfinite => exact of_read h.toFloats
  | abs => exact h.abs
  | sign => exact h.sign
  | _ => exact h.mapDoubles _

/-! ## Choices -/

theorem choose (mask : List Bool) {as as' bs bs' : List Cell}
    (ha : as.map Cell.bare = as'.map Cell.bare) (hb : bs.map Cell.bare = bs'.map Cell.bare) :
    (Column.choose mask as bs).map Cell.bare
      = (Column.choose mask as' bs').map Cell.bare := by
  have hmap : ∀ (mask : List Bool) (as bs : List Cell),
      (Column.choose mask as bs).map Cell.bare
        = Column.choose mask (as.map Cell.bare) (bs.map Cell.bare) := by
    intro mask
    induction mask with
    | nil => intros; rfl
    | cons m mask ih =>
        intro as bs
        cases as with
        | nil => rfl
        | cons a as =>
            cases bs with
            | nil => rfl
            | cons b bs =>
                rw [Column.choose, List.map_cons, List.map_cons, List.map_cons,
                  Column.choose, ih]
                cases m <;> rfl
  rw [hmap, hmap, ha, hb]

theorem select (mask : List Bool) (hl : l.SameData l') (hr : r.SameData r') :
    Follows SameData (Column.select mask l r) (Column.select mask l' r') := by
  unfold Column.select
  rw [hl.length_eq, hr.length_eq]
  refine .bind_same fun m _ => .bind (hl.coerce hr) fun p p' hp => ?_
  refine .bind (hp.1.broadcast _) fun a a' ha =>
    .bind (hp.2.broadcast _) fun b b' hb => .ok ⟨ha.1, ?_⟩
  exact choose _ ha.2 hb.2

theorem orElse (hl : l.SameData l') (hr : r.SameData r') :
    Follows SameData (l.orElse r) (l'.orElse r') := by
  unfold Column.orElse
  rw [hl.1, hl.isNull]
  exact .bind (hr.cast _) fun _ _ hr => hl.select _ hr

theorem fillNan (hl : l.SameData l') (hr : r.SameData r') :
    Follows SameData (l.fillNan r) (l'.fillNan r') := by
  have hmask : l.cells.map (fun cell => !(cell.float?.any Double.isNaN))
      = l'.cells.map fun cell => !(cell.float?.any Double.isNaN) :=
    hl.views fun a => by rw [Cell.float?_bare]
  unfold Column.fillNan
  rw [hmask]
  exact .bind (hr.cast _) fun _ _ hr => hl.select _ hr

theorem better (op : Comparison) (hl : l.SameData l') (hr : r.SameData r') :
    Follows SameData (Column.better op l r) (Column.better op l' r') := by
  unfold Column.better
  refine .bind (hl.coerce hr) fun p p' hp => ?_
  obtain ⟨l, r⟩ := p
  obtain ⟨l', r'⟩ := p'
  obtain ⟨hl, hr⟩ := hp
  refine .bind (compare op hl.1 (hl.pairs hr)) fun x x' hx => ?_
  have hzip := zip_map_eq hl.2 (zip_map_eq hr.2 hx.2)
  rw [map_of_respects ?respects hzip, hl.length_eq, hr.length_eq]
  case respects =>
    rintro ⟨c, n, b⟩
    simp only [Prod.map_apply, Cell.isNull_bare, Cell.isTrue_bare]
  split
  · exact hl.select _ hr
  · exact .error _ _

theorem extremeFrom (op : Comparison) (h : List.Forall₂ SameData cs cs')
    (hl : l.SameData l') :
    Follows SameData (Column.extremeFrom op l cs) (Column.extremeFrom op l' cs') := by
  induction h generalizing l l' with
  | nil => exact .ok hl
  | cons hc _ ih => exact .bind (hl.better op hc) fun _ _ h => ih h

theorem horizontal (op : Comparison) (h : List.Forall₂ SameData cs cs') :
    Follows SameData (Column.horizontal op cs) (Column.horizontal op cs') := by
  cases h with
  | nil => exact .error _ _
  | cons hc hrest => exact extremeFrom op hrest hc

/-! ## Functions -/

/-- What is read from each of several columns. -/
theorem reads {read : Column → Except Error α}
    {readAll : List Column → Except Error (List α)} (hnil : readAll [] = .ok [])
    (hcons : ∀ c rest, readAll (c :: rest) = do .ok ((← read c) :: (← readAll rest)))
    (hread : ∀ {c c'}, SameData c c' → Follows (· = ·) (read c) (read c'))
    (h : List.Forall₂ SameData cs cs') :
    Follows (· = ·) (readAll cs) (readAll cs') := by
  induction h with
  | nil =>
      rw [hnil]
      exact .ok rfl
  | cons hc _ ih =>
      rw [hcons, hcons]
      exact .bind (hread hc) fun _ _ hhere => .bind ih fun _ _ hrest =>
        .ok (by rw [hhere, hrest])

theorem allTexts (h : List.Forall₂ SameData cs cs') :
    Follows (· = ·) (Column.allTexts cs) (Column.allTexts cs') :=
  reads rfl (fun _ _ => rfl) toTexts h

theorem allInts (h : List.Forall₂ SameData cs cs') :
    Follows (· = ·) (Column.allInts cs) (Column.allInts cs') :=
  reads rfl (fun _ _ => rfl) toInts h

theorem instants (h : c.SameData c') : c.instants = c'.instants := by
  unfold Column.instants
  rw [h.1]
  split
  · rw [h.views fun a => by rw [Cell.int?_bare]]
  · rw [h.views fun a => by rw [Cell.int?_bare]]
  · rfl

theorem temporalField (field : TemporalField) (h : c.SameData c') :
    Follows SameData (c.temporalField field) (c'.temporalField field) := by
  unfold Column.temporalField
  rw [h.1]
  split
  · exact .ok (h.map _ fun a => by cases a <;> rfl)
  · exact .ok (h.map _ fun a => by cases a <;> rfl)
  · exact .error _ _

theorem strftime (format : String) (h : c.SameData c') :
    Follows SameData (c.strftime format) (c'.strftime format) := by
  unfold Column.strftime
  rw [h.instants]
  exact fun out hout => ⟨out, hout, .refl out⟩

theorem truncate (unit : String) (h : c.SameData c') :
    Follows SameData (c.truncate unit) (c'.truncate unit) := by
  unfold Column.truncate
  rw [h.instants, h.1]
  exact fun out hout => ⟨out, hout, .refl out⟩

theorem requireList (h : c.SameData c') : c.requireList = c'.requireList := by
  unfold Column.requireList
  rw [h.1]

theorem listLength (h : c.SameData c') : Follows SameData c.listLength c'.listLength := by
  have hlengths : (c.cells.map fun cell => cell.list?.map fun items => (items.length : Int))
      = c'.cells.map fun cell => cell.list?.map fun items => (items.length : Int) := by
    refine h.views fun a => ?_
    cases a with
    | list items => simp [Cell.bare, Cell.list?, Cell.bareList_eq_map]
    | _ => rfl
  rw [Column.listLength_eq, Column.listLength_eq, h.requireList, hlengths]
  exact fun out hout => ⟨out, hout, .refl out⟩

theorem concatCells_bare (a b : Cell) :
    (concatCells a.bare b.bare).bare = (concatCells a b).bare := by
  cases a with
  | list as =>
      cases b with
      | list bs =>
          have hlist : Cell.bareList (Cell.bareList as ++ Cell.bareList bs)
              = Cell.bareList (as ++ bs) := by
            rw [Cell.bareList_eq_map, List.map_append, ← Cell.bareList_eq_map,
              ← Cell.bareList_eq_map, Cell.bareList_bareList, Cell.bareList_bareList,
              Cell.bareList_eq_map, Cell.bareList_eq_map, Cell.bareList_eq_map,
              List.map_append]
          exact congrArg Cell.list hlist
      | _ => rfl
  | _ => rfl

theorem listConcat (hl : l.SameData l') (hr : r.SameData r') :
    Follows SameData (Column.listConcat l r) (Column.listConcat l' r') := by
  rw [Column.listConcat_eq, Column.listConcat_eq, hl.1, hl.requireList]
  exact .bind (hr.cast _) fun _ _ hr => .bind_same fun _ _ =>
    .ok (zipWith _ concatCells_bare hl.2 hr.2)

/-- The lists of a row have the same data if the columns have. -/
theorem row (h : List.Forall₂ SameData cs cs') (i : Nat) :
    Cell.bareList (cs.map fun c => c.cells.getD i .null)
      = Cell.bareList (cs'.map fun c => c.cells.getD i .null) := by
  have hcell {c c' : Column} (h : c.SameData c') : (c.cells.getD i .null).bare
      = (c'.cells.getD i .null).bare := by
    have hat := congrArg (fun cells => cells[i]?) h.2
    simp only [List.getElem?_map] at hat
    rw [List.getD, List.getD]
    cases hc : c.cells[i]? with
    | none =>
        cases hc' : c'.cells[i]? with
        | none => rfl
        | some b => simp [hc, hc'] at hat
    | some a =>
        cases hc' : c'.cells[i]? with
        | none => simp [hc, hc'] at hat
        | some b => simpa [hc, hc'] using hat
  induction h with
  | nil => rfl
  | cons hc _ ih =>
      rw [List.map_cons, List.map_cons, Cell.bareList, Cell.bareList, hcell hc, ih]

theorem listFromColumns (h : List.Forall₂ SameData cs cs') :
    Follows SameData (Column.listFromColumns cs) (Column.listFromColumns cs') := by
  have hrow := row h
  cases h with
  | nil => exact .error _ _
  | @cons c c' rest rest' hc hrest =>
      have htypes : (rest.all fun r => decide (r.type = c.type)) = rest'.all fun r =>
          decide (r.type = c.type) := by
        clear hrow
        induction hrest with
        | nil => rfl
        | cons hd _ ih => rw [List.all_cons, List.all_cons, hd.1, ih]
      rw [Column.listFromColumns_eq, Column.listFromColumns_eq]
      simp only [htypes, ← hc.1, ← hc.length_eq]
      split
      · refine .ok ⟨rfl, ?_⟩
        show List.map Cell.bare _ = List.map Cell.bare _
        rw [List.map_map, List.map_map]
        exact List.map_congr_left fun i _ => congrArg Cell.list (hrow i)
      · exact .error _ _

theorem ofParts (t : Physical) (h : List.Forall₂ SameData cs cs') :
    Follows SameData (Column.ofParts t cs) (Column.ofParts t cs') := of_read (allInts h)

end SameData

end Column

/-! ## All functions -/

namespace Function

open Column

variable {c c' : Column} {cs cs' : List Column}

theorem atan2Cells_bare (a b : Cell) :
    (atan2Cells a.bare b.bare).bare = (atan2Cells a b).bare := by
  cases a with
  | float y =>
      cases b with
      | float x => rfl
      | _ => exact Cell.bare_missing _ _
  | _ => exact Cell.bare_missing _ _

theorem applyOne_sameData (f : Function) (h : c.SameData c') :
    Follows SameData (applyOne c f) (applyOne c' f) := by
  cases f with
  | regexMatch pattern | regexExtract pattern group | regexReplace pattern replacement =>
      exact .bind_same fun _ _ => SameData.of_read h.toTexts
  | temporal field => exact h.temporalField _
  | epochSeconds => exact .bind (h.cast _) fun _ _ h => h.cast _
  | strftime format => exact h.strftime _
  | truncate unit => exact h.truncate _
  | listLength => exact h.listLength
  | concat | dateFromParts | timestampFromParts | atan2 | listConcat | listFromColumns =>
      exact .error _ _
  | _ => exact SameData.of_read h.toTexts

theorem apply_sameData (f : Function) (h : List.Forall₂ SameData cs cs') :
    Follows SameData (f.apply cs) (f.apply cs') := by
  cases f with
  | concat separator => exact SameData.of_read (SameData.allTexts h)
  | dateFromParts =>
      rw [apply, apply, Column.dateFromParts, Column.dateFromParts, h.length_eq]
      split
      · exact SameData.ofParts _ h
      · exact .error _ _
  | timestampFromParts =>
      rw [apply, apply, Column.timestampFromParts, Column.timestampFromParts, h.length_eq]
      split
      · exact SameData.ofParts _ h
      · exact .error _ _
  | listFromColumns => exact SameData.listFromColumns h
  | atan2 =>
      cases h with
      | nil => exact .error _ _
      | cons hy hrest =>
          cases hrest with
          | nil => exact .error _ _
          | cons hx hrest =>
              cases hrest with
              | nil =>
                  exact .bind (hy.cast _) fun _ _ hy => .bind (hx.cast _) fun _ _ hx =>
                    .ok (SameData.zipWith _ atan2Cells_bare hy.2 hx.2)
              | cons => exact .error _ _
  | listConcat =>
      cases h with
      | nil => exact .error _ _
      | cons hl hrest =>
          cases hrest with
          | nil => exact .error _ _
          | cons hr hrest =>
              cases hrest with
              | nil => exact hl.listConcat hr
              | cons => exact .error _ _
  | _ =>
      simp only [apply]
      cases h with
      | nil => exact .error _ _
      | cons hc hrest =>
          cases hrest with
          | nil => exact applyOne_sameData _ hc
          | cons => exact .error _ _

end Function

end TypedQuery
