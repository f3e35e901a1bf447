import Mathlib.Data.List.Forall2
import TypedQuery.Columnar.Operator
import TypedQuery.Expr.Evaluate
import TypedQuery.Proofs.Outcome
import TypedQuery.Proofs.Plan.Names

/-!
# Operations row by row

Every operation on columns other than a reduction computes each row from the same
row of its operands. On columns of equal height nothing is repeated, so a single row
is a row like any other.

What an operation does row by row can be computed on all rows and looked at in some of
them, or computed on these alone. To compare the two, a list and what is taken from it are
both written by one function of positions: the list has its values at the positions below
`n`, and what is taken has its values at the chosen positions, in their order and as often
as they are chosen. An operation on rows then becomes an operation on such functions, and
nothing remains to be said about positions. An operation may fail in a row that is not
chosen. So success is followed from all rows to some of them only.

All lemmas say the same of one operation each: where it succeeds on columns of `n` rows, it
succeeds on what is taken from them at some positions, and gives what is taken from its
result at these positions.
-/

namespace TypedQuery

section

variable {ε α β γ δ : Type}

/-- A list by its positions. -/
theorem map_getD_range (xs : List α) (default : α) :
    ((List.range xs.length).map fun i => xs.getD i default) = xs :=
  List.ext_getElem (by simp) fun i _ hi => by simp [hi]

/-! ## Success that is followed -/

/-- If the first step succeeds then so does the second, with a related result. -/
def Follows (R : α → β → Prop) (x : Except ε α) (y : Except ε β) : Prop :=
  ∀ a, x = .ok a → ∃ b, y = .ok b ∧ R a b

namespace Follows

variable {R : α → β → Prop} {S : γ → δ → Prop}

theorem ok {a : α} {b : β} (h : R a b) : Follows R (.ok a : Except ε α) (.ok b) := by
  intro c hc
  cases hc
  exact ⟨b, rfl, h⟩

theorem error (e : ε) (y : Except ε β) : Follows R (.error e) y := fun _ h => by cases h

theorem bind {x : Except ε α} {y : Except ε β} {f : α → Except ε γ} {g : β → Except ε δ}
    (h : Follows R x y) (hfg : ∀ a b, R a b → Follows S (f a) (g b)) :
    Follows S (x >>= f) (y >>= g) := by
  intro c hc
  obtain ⟨a, ha, hc⟩ := bind_eq_ok.1 hc
  obtain ⟨b, hb, hab⟩ := h a ha
  obtain ⟨d, hd, hcd⟩ := hfg a b hab c hc
  exact ⟨d, bind_eq_ok.2 ⟨b, hb, hd⟩, hcd⟩

/-- A step that both sides take alike. -/
theorem bind_same {x : Except ε α} {f : α → Except ε γ} {g : α → Except ε δ}
    (hfg : ∀ a, x = .ok a → Follows S (f a) (g a)) : Follows S (x >>= f) (x >>= g) := by
  intro c hc
  obtain ⟨a, ha, hc⟩ := bind_eq_ok.1 hc
  obtain ⟨d, hd, hcd⟩ := hfg a ha c hc
  exact ⟨d, bind_eq_ok.2 ⟨a, ha, hd⟩, hcd⟩

theorem mono {x : Except ε α} {y : Except ε β} {R' : α → β → Prop} (h : Follows R x y)
    (hR : ∀ a b, R a b → R' a b) : Follows R' x y := by
  intro a ha
  obtain ⟨b, hb, hab⟩ := h a ha
  exact ⟨b, hb, hR a b hab⟩

end Follows

/-! ## Lists -/

/-- `taken` has the items of `all`, which are `n`, at the positions `rows`. -/
def Taken (n : Nat) (rows : List Nat) (all taken : List α) : Prop :=
  ∃ f : Nat → α, all = (List.range n).map f ∧ taken = rows.map f

namespace Taken

variable {n : Nat} {rows : List Nat} {as as' : List α} {bs bs' : List β}

theorem length (h : Taken n rows as as') : as.length = n := by
  obtain ⟨f, rfl, -⟩ := h
  rw [List.length_map, List.length_range]

theorem length_taken (h : Taken n rows as as') : as'.length = rows.length := by
  obtain ⟨f, -, rfl⟩ := h
  rw [List.length_map]

theorem map (g : α → β) (h : Taken n rows as as') : Taken n rows (as.map g) (as'.map g) := by
  obtain ⟨f, rfl, rfl⟩ := h
  exact ⟨g ∘ f, List.map_map, List.map_map⟩

theorem replicate (a : α) :
    Taken n rows (List.replicate n a) (List.replicate rows.length a) :=
  ⟨fun _ => a, by rw [List.map_const', List.length_range], by rw [List.map_const']⟩

theorem zipWith (g : α → β → γ) (ha : Taken n rows as as') (hb : Taken n rows bs bs') :
    Taken n rows (List.zipWith g as bs) (List.zipWith g as' bs') := by
  obtain ⟨f, rfl, rfl⟩ := ha
  obtain ⟨f', rfl, rfl⟩ := hb
  exact ⟨fun i => g (f i) (f' i), by rw [List.zipWith_map, List.zipWith_self],
    by rw [List.zipWith_map, List.zipWith_self]⟩

theorem zip (ha : Taken n rows as as') (hb : Taken n rows bs bs') :
    Taken n rows (as.zip bs) (as'.zip bs') :=
  zipWith Prod.mk ha hb

/-- A step for each item succeeds on what was taken if it succeeds on all. -/
theorem mapM [Nonempty β] (hr : ∀ i ∈ rows, i < n) (g : α → Except ε β)
    (h : Taken n rows as as') :
    Follows (Taken n rows) (as.mapM g) (as'.mapM g) := by
  obtain ⟨f, rfl, rfl⟩ := h
  intro out hout
  rw [mapM_eq_ok, List.forall₂_map_left_iff] at hout
  have hlength : out.length = n := by rw [← hout.length_eq, List.length_range]
  -- A result for every position below `n`; above there is nothing to say.
  let result : Nat → β :=
    fun i => if h : i < out.length then out[i] else Classical.arbitrary β
  have hresult : ∀ i < n, g (f i) = .ok (result i) := by
    intro i hi
    have hi' : i < out.length := hlength ▸ hi
    have := (List.forall₂_iff_get.1 hout).2 i (by rwa [List.length_range]) hi'
    simpa [result, hi'] using this
  refine ⟨rows.map result, mapM_eq_ok.2 ?_, result, ?_, rfl⟩
  · rw [List.forall₂_map_left_iff, List.forall₂_map_right_iff, List.forall₂_same]
    exact fun i hi => hresult i (hr i hi)
  · refine List.ext_getElem (by rw [hlength, List.length_map, List.length_range])
      fun i hi hi' => ?_
    simp [result, hi]

end Taken

/-! ## Columns -/

instance : Nonempty Cell := ⟨.null⟩

/-- Columns of one type, the second with the cells of the first at the given positions. -/
def Column.Taken (n : Nat) (rows : List Nat) (all taken : Column) : Prop :=
  ∃ (t : Physical) (f : Nat → Cell),
    all = ⟨t, (List.range n).map f⟩ ∧ taken = ⟨t, rows.map f⟩

namespace Column.Taken

variable {n : Nat} {rows : List Nat} {c c' : Column}

theorem of_cells {cells cells' : List Cell} (t : Physical)
    (h : TypedQuery.Taken n rows cells cells') :
    Column.Taken n rows ⟨t, cells⟩ ⟨t, cells'⟩ := by
  obtain ⟨f, rfl, rfl⟩ := h
  exact ⟨t, f, rfl, rfl⟩

theorem cells (h : Column.Taken n rows c c') : TypedQuery.Taken n rows c.cells c'.cells := by
  obtain ⟨t, f, rfl, rfl⟩ := h
  exact ⟨f, rfl, rfl⟩

theorem type_eq (h : Column.Taken n rows c c') : c'.type = c.type := by
  obtain ⟨t, f, rfl, rfl⟩ := h
  rfl

theorem length (h : Column.Taken n rows c c') : c.length = n := h.cells.length

theorem length_taken (h : Column.Taken n rows c c') : c'.length = rows.length :=
  h.cells.length_taken

/-- What is gathered at positions that the column has is taken from it there. -/
theorem of_gather (hn : c.length = n) :
    Column.Taken n rows c (c.gather (rows.map some)) := by
  refine ⟨c.type, fun i => c.cells[i]?.getD c.vacancy, ?_, ?_⟩
  · obtain ⟨t, cells⟩ := c
    refine congrArg _ (List.ext_getElem (by simpa [Column.length] using hn) fun i hi _ => ?_)
    simp [hi]
  · rw [gather, List.map_map]
    rfl

theorem eq_gather (hr : ∀ i ∈ rows, i < n) (h : Column.Taken n rows c c') :
    c' = c.gather (rows.map some) := by
  obtain ⟨t, f, rfl, rfl⟩ := h
  rw [gather, List.map_map]
  refine congrArg _ (List.map_congr_left fun i hi => ?_)
  simp [hr i hi]

end Column.Taken

end

variable {n : Nat} {rows : List Nat} {c c' l l' r r' : Column}

namespace Column

/-! ## Recursions over cells

Each of them takes a step for every cell and stops at the first that fails. -/

theorem castCells_eq_mapM (source target : Physical) (cells : List Cell) :
    castCells source target cells = cells.mapM (Cast.cell source target) := by
  induction cells with
  | nil => rfl
  | cons cell rest ih => rw [castCells, ih, List.mapM_cons]; rfl

/-- A conversion to another type converts every cell. -/
theorem cast_eq_ok {target : Physical} (h : c.cast target = .ok c') (hne : c.type ≠ target) :
    c.type.casts target = true ∧ c'.type = target
      ∧ List.Forall₂ (fun cell out => Cast.cell c.type target cell = .ok out)
        c.cells c'.cells := by
  rw [cast, if_neg hne] at h
  split at h
  · next hcasts =>
      rw [castCells_eq_mapM] at h
      split at h
      · next cells hcells =>
          cases h
          exact ⟨hcasts, rfl, mapM_eq_ok.1 hcells⟩
      · cases h
  · cases h

theorem type_cast (c : Column) (t : Physical) : Yields (·.type = t) (c.cast t) := by
  intro out h
  by_cases hne : c.type = t
  · rw [cast, if_pos hne] at h
    cases h
    exact hne
  · exact (cast_eq_ok h hne).2.1

theorem length_cast {t : Physical} (h : c.cast t = .ok c') : c'.length = c.length := by
  by_cases hne : c.type = t
  · rw [cast, if_pos hne] at h
    cases h
    rfl
  · exact (cast_eq_ok h hne).2.2.length_eq.symm

theorem rowwise_eq_mapM (f : Cell → Cell → Except ComputeFailure Cell)
    (ps : List (Option (Cell × Cell))) :
    rowwise f ps = ps.mapM fun p => (p.map fun p => f p.1 p.2).getD (.ok .null) := by
  induction ps with
  | nil => rfl
  | cons p rest ih => cases p <;> rw [rowwise, ih, List.mapM_cons] <;> rfl

theorem negateInts_eq_mapM (fits : Int → Bool) (cells : List Cell) :
    negateInts fits cells = cells.mapM fun
      | .int n => if fits (-n) then .ok (.int (-n)) else .error .arithmeticOverflow
      | _ => .ok .null := by
  induction cells with
  | nil => rfl
  | cons cell rest ih =>
      rw [List.mapM_cons, ← ih]
      cases cell with
      | int n =>
          rw [negateInts]
          dsimp only
          split <;> rfl
      | _ => rfl

namespace Taken

/-! ## Heights and types -/

theorem broadcast {m m' : Nat} (h : Taken n rows c c') (hm : m = n)
    (hm' : m' = rows.length) :
    Follows (Taken n rows) (c.broadcast m) (c'.broadcast m') := by
  rw [Batch.broadcast_of_length (h.length.trans hm.symm),
    Batch.broadcast_of_length (h.length_taken.trans hm'.symm)]
  exact .ok h

theorem computed {x y : Except ComputeFailure (List Cell)} (t : Physical)
    (h : Follows (TypedQuery.Taken n rows) x y) :
    Follows (Taken n rows) (Column.computed t x) (Column.computed t y) := by
  intro out hout
  cases x with
  | error failure => cases hout
  | ok cells =>
      cases hout
      obtain ⟨cells', rfl, htaken⟩ := h cells rfl
      exact ⟨_, rfl, .of_cells t htaken⟩

theorem cast (hr : ∀ i ∈ rows, i < n) (h : Taken n rows c c') (target : Physical) :
    Follows (Taken n rows) (c.cast target) (c'.cast target) := by
  unfold Column.cast
  rw [h.type_eq, castCells_eq_mapM, castCells_eq_mapM]
  split
  · exact .ok h
  · split
    · exact computed target (h.cells.mapM hr _)
    · exact .error _ _

/-- Both columns come out in one type. -/
theorem coerce (hr : ∀ i ∈ rows, i < n) (hl : Taken n rows l l') (h : Taken n rows r r') :
    Follows (fun p p' => Taken n rows p.1 p'.1 ∧ Taken n rows p.2 p'.2) (l.coerce r)
      (l'.coerce r') := by
  unfold Column.coerce
  rw [hl.type_eq, h.type_eq]
  refine .bind_same fun t _ => .bind (hl.cast hr t) fun _ _ hl =>
    .bind (h.cast hr t) fun _ _ h => ?_
  exact .ok ⟨hl, h⟩

/-! ## Two columns side by side -/

/-- Columns of one height are paired row by row. -/
theorem pairs (hl : Taken n rows l l') (h : Taken n rows r r') :
    ∃ ps ps', Column.pairs l r = .ok ps ∧ Column.pairs l' r' = .ok ps'
      ∧ TypedQuery.Taken n rows ps ps' :=
  ⟨_, _, if_pos (hl.length.trans h.length.symm),
    if_pos (hl.length_taken.trans h.length_taken.symm), (hl.cells.zip h.cells).map some⟩

theorem arithmetic (hr : ∀ i ∈ rows, i < n) (op : Arithmetic) (hl : Taken n rows l l')
    (h : Taken n rows r r') :
    Follows (Taken n rows) (Column.arithmetic op l r) (Column.arithmetic op l' r') := by
  obtain ⟨ps, ps', hps, hps', htaken⟩ := hl.pairs h
  simp only [Column.arithmetic, hps, hps', hl.type_eq, rowwise_eq_mapM]
  refine .bind (R := TypedQuery.Taken n rows) (.ok htaken) fun _ _ htaken => ?_
  split
  · exact computed _ (htaken.mapM hr _)
  · exact computed _ (htaken.mapM hr _)
  · exact .ok (.of_cells _ (htaken.map _))
  · exact .error _ _

theorem max_length (hl : Taken n rows l l') (h : Taken n rows r r') :
    max l.length r.length = n := by
  rw [hl.length, h.length, Nat.max_self]

theorem max_length_taken (hl : Taken n rows l l') (h : Taken n rows r r') :
    max l'.length r'.length = rows.length := by
  rw [hl.length_taken, h.length_taken, Nat.max_self]

theorem power (hr : ∀ i ∈ rows, i < n) (hl : Taken n rows l l') (h : Taken n rows r r') :
    Follows (Taken n rows) (Column.power l r) (Column.power l' r') := by
  unfold Column.power
  refine .bind (hl.cast hr _) fun _ _ hl => .bind (h.cast hr _) fun _ _ h => ?_
  refine .bind (hl.broadcast (hl.max_length h) (hl.max_length_taken h)) fun _ _ hl' => ?_
  refine .bind (h.broadcast (hl.max_length h) (hl.max_length_taken h)) fun _ _ h' => ?_
  exact .ok (.of_cells _ (((hl'.cells.zip h'.cells).map _).map _))

theorem compare (op : Comparison) (hl : Taken n rows l l') (h : Taken n rows r r') :
    Follows (Taken n rows) (Column.compare op l r) (Column.compare op l' r') := by
  obtain ⟨ps, ps', hps, hps', htaken⟩ := hl.pairs h
  simp only [Column.compare, hps, hps', hl.type_eq]
  refine .bind (R := TypedQuery.Taken n rows) (.ok htaken) fun _ _ htaken => ?_
  split
  · exact .error _ _
  · exact .ok (.of_cells _ (htaken.map _))

theorem condition (h : Taken n rows c c') :
    Follows (TypedQuery.Taken n rows) c.condition c'.condition := by
  unfold Column.condition
  rw [h.type_eq]
  split
  · exact .ok h.cells
  · exact .error _ _

theorem logic (op : Logic) (hl : Taken n rows l l') (h : Taken n rows r r') :
    Follows (Taken n rows) (Column.logic op l r) (Column.logic op l' r') := by
  unfold Column.logic
  refine .bind (hl.broadcast (hl.max_length h) (hl.max_length_taken h)) fun _ _ hl' => ?_
  refine .bind hl'.condition fun _ _ hls => ?_
  refine .bind (h.broadcast (hl.max_length h) (hl.max_length_taken h)) fun _ _ h' => ?_
  refine .bind h'.condition fun _ _ hrs => ?_
  exact .ok (.of_cells _ (hls.zipWith _ hrs))

theorem bitwise (hr : ∀ i ∈ rows, i < n) (op : Bitwise) (hl : Taken n rows l l')
    (h : Taken n rows r r') :
    Follows (Taken n rows) (Column.bitwise op l r) (Column.bitwise op l' r') := by
  unfold Column.bitwise
  refine .bind (hl.broadcast (hl.max_length h) (hl.max_length_taken h)) fun _ _ hl' => ?_
  refine .bind (hl'.cast hr _) fun _ _ hls => ?_
  refine .bind (h.broadcast (hl.max_length h) (hl.max_length_taken h)) fun _ _ h' => ?_
  refine .bind (h'.cast hr _) fun _ _ hrs => ?_
  exact .ok (.of_cells _ (hls.cells.zipWith _ hrs.cells))

theorem binary (hr : ∀ i ∈ rows, i < n) (op : BinaryOp) (hl : Taken n rows l l')
    (h : Taken n rows r r') :
    Follows (Taken n rows) (op.apply l r) (op.apply l' r') := by
  unfold BinaryOp.apply
  refine .bind (hl.coerce hr h) fun p p' hp => ?_
  obtain ⟨hl, h⟩ := hp
  cases op with
  | arithmetic op => exact hl.arithmetic hr op h
  | power => exact hl.power hr h
  | compare op => exact hl.compare op h
  | logic op => exact hl.logic op h
  | bitwise op => exact hl.bitwise hr op h

/-! ## One column -/

theorem negate (hr : ∀ i ∈ rows, i < n) (h : Taken n rows c c') :
    Follows (Taken n rows) c.negate c'.negate := by
  unfold Column.negate
  rw [h.type_eq, negateInts_eq_mapM, negateInts_eq_mapM, negateInts_eq_mapM,
    negateInts_eq_mapM]
  split
  · exact computed _ (h.cells.mapM hr _)
  · exact computed _ (h.cells.mapM hr _)
  · exact .ok (.of_cells _ (h.cells.map _))
  · exact .error _ _

theorem negateCondition (h : Taken n rows c c') :
    Follows (Taken n rows) c.negateCondition c'.negateCondition := by
  unfold Column.negateCondition
  refine .bind h.condition fun _ _ hcells => ?_
  exact .ok (.of_cells _ (hcells.map _))

theorem toInts (hr : ∀ i ∈ rows, i < n) (h : Taken n rows c c') :
    Follows (TypedQuery.Taken n rows) c.toInts c'.toInts :=
  .bind (h.cast hr _) fun _ _ h => .ok (h.cells.map _)

theorem toFloats (hr : ∀ i ∈ rows, i < n) (h : Taken n rows c c') :
    Follows (TypedQuery.Taken n rows) c.toFloats c'.toFloats :=
  .bind (h.cast hr _) fun _ _ h => .ok (h.cells.map _)

theorem toTexts (hr : ∀ i ∈ rows, i < n) (h : Taken n rows c c') :
    Follows (TypedQuery.Taken n rows) c.toTexts c'.toTexts :=
  .bind (h.cast hr _) fun _ _ h => .ok (h.cells.map _)

theorem complement (hr : ∀ i ∈ rows, i < n) (h : Taken n rows c c') :
    Follows (Taken n rows) c.complement c'.complement :=
  .bind (h.cast hr _) fun _ _ h => .ok (.of_cells _ (h.cells.map _))

theorem isNull (h : Taken n rows c c') :
    TypedQuery.Taken n rows c.isNull c'.isNull := h.cells.map _

theorem floatTest (hr : ∀ i ∈ rows, i < n) (f : Double → Bool) (h : Taken n rows c c') :
    Follows (Taken n rows) (c.floatTest f) (c'.floatTest f) :=
  .bind (h.toFloats hr) fun _ _ h => .ok (.of_cells _ ((h.map _).map _))

theorem mapDoubles (hr : ∀ i ∈ rows, i < n) (f : Double → Double) (h : Taken n rows c c') :
    Follows (Taken n rows) (c.mapDoubles f) (c'.mapDoubles f) :=
  .bind (h.toFloats hr) fun _ _ h => .ok (.of_cells _ ((h.map _).map _))

theorem abs (hr : ∀ i ∈ rows, i < n) (h : Taken n rows c c') :
    Follows (Taken n rows) c.abs c'.abs := by
  unfold Column.abs
  rw [h.type_eq]
  split
  · exact Taken.cast hr (.of_cells _ (h.cells.map _)) _
  · exact h.mapDoubles hr _

theorem sign (hr : ∀ i ∈ rows, i < n) (h : Taken n rows c c') :
    Follows (Taken n rows) c.sign c'.sign := by
  unfold Column.sign
  rw [h.type_eq]
  exact .bind (h.mapDoubles hr _) fun _ _ h => h.cast hr _

theorem unary (hr : ∀ i ∈ rows, i < n) (op : UnaryOp) (h : Taken n rows c c') :
    Follows (Taken n rows) (op.apply c) (op.apply c') := by
  cases op with
  | negate => exact h.negate hr
  | not => exact h.negateCondition
  | complement => exact h.complement hr
  | isNull => exact .ok (.of_cells _ ((h.isNull.map _).map _))
  | isNotNull => exact .ok (.of_cells _ ((h.isNull.map _).map _))
  | isNan | isInfinite => exact h.floatTest hr _
  | abs => exact h.abs hr
  | sign => exact h.sign hr
  | _ => exact h.mapDoubles hr _

/-! ## Choices -/

theorem choose {mask mask' : List Bool} {as as' bs bs' : List Cell}
    (hm : TypedQuery.Taken n rows mask mask') (ha : TypedQuery.Taken n rows as as')
    (hb : TypedQuery.Taken n rows bs bs') :
    TypedQuery.Taken n rows (Column.choose mask as bs) (Column.choose mask' as' bs') := by
  have hzip : ∀ (mask : List Bool) (as bs : List Cell),
      Column.choose mask as bs = List.zipWith (fun m p => if m then p.1 else p.2) mask
      (as.zip bs) := by
    intro mask
    induction mask with
    | nil => intros; rfl
    | cons m mask ih =>
        intro as bs
        cases as with
        | nil => rfl
        | cons a as =>
            cases bs with
            | nil => rfl
            | cons b bs => rw [Column.choose, ih]; rfl
  rw [hzip, hzip]
  exact hm.zipWith _ (ha.zip hb)

theorem select (hr : ∀ i ∈ rows, i < n) {mask mask' : List Bool}
    (hm : TypedQuery.Taken n rows mask mask') (hl : Taken n rows l l')
    (h : Taken n rows r r') :
    Follows (Taken n rows) (Column.select mask l r) (Column.select mask' l' r') := by
  have hrows : max mask.length (max l.length r.length) = n := by
    rw [hl.max_length h, hm.length, Nat.max_self]
  have hrows' : max mask'.length (max l'.length r'.length) = rows.length := by
    rw [hl.max_length_taken h, hm.length_taken, Nat.max_self]
  unfold Column.select
  rw [hrows, hrows']
  refine .bind (broadcast (.of_cells _ ((hm.map _).map _)) rfl rfl) fun _ _ hmask => ?_
  refine .bind (hl.coerce hr h) fun p p' hp => ?_
  refine .bind (hp.1.broadcast rfl rfl) fun a a' ha => ?_
  refine .bind (hp.2.broadcast rfl rfl) fun b b' hb => ?_
  rw [ha.type_eq]
  exact .ok (.of_cells _ (choose (hmask.cells.map _) ha.cells hb.cells))

theorem orElse (hr : ∀ i ∈ rows, i < n) (hl : Taken n rows l l') (h : Taken n rows r r') :
    Follows (Taken n rows) (l.orElse r) (l'.orElse r') := by
  unfold Column.orElse
  rw [hl.type_eq]
  exact .bind (h.cast hr _) fun _ _ h => select hr (hl.isNull.map _) hl h

theorem fillNan (hr : ∀ i ∈ rows, i < n) (hl : Taken n rows l l') (h : Taken n rows r r') :
    Follows (Taken n rows) (l.fillNan r) (l'.fillNan r') :=
  .bind (h.cast hr _) fun _ _ h => select hr (hl.cells.map _) hl h

theorem asPredicate {m m' : Nat} (h : Taken n rows c c') (hm : m = n)
    (hm' : m' = rows.length) :
    Follows (TypedQuery.Taken n rows) (c.asPredicate m) (c'.asPredicate m') := by
  unfold Column.asPredicate
  refine .bind (h.broadcast hm hm') fun _ _ h => ?_
  rw [h.type_eq]
  split
  · exact .ok h.cells
  · exact .error _ _

theorem better (hr : ∀ i ∈ rows, i < n) (op : Comparison) (hl : Taken n rows l l')
    (h : Taken n rows r r') :
    Follows (Taken n rows) (Column.better op l r) (Column.better op l' r') := by
  unfold Column.better
  refine .bind (hl.coerce hr h) fun p p' hp => ?_
  obtain ⟨l, r⟩ := p
  obtain ⟨l', r'⟩ := p'
  obtain ⟨hl, h⟩ := hp
  refine .bind (hl.compare op h) fun _ _ hcompared => ?_
  rw [if_pos (hl.length.trans h.length.symm),
    if_pos (hl.length_taken.trans h.length_taken.symm)]
  exact select hr ((hl.cells.zip (h.cells.zip hcompared.cells)).map _) hl h

/-! ## Several columns -/

theorem coalesce (hr : ∀ i ∈ rows, i < n) {cs cs' : List Column}
    (h : List.Forall₂ (Taken n rows) cs cs') :
    Follows (Taken n rows) (Column.coalesce cs) (Column.coalesce cs') := by
  induction h with
  | nil => exact .error _ _
  | cons hc hrest ih =>
      cases hrest with
      | nil => exact .ok hc
      | cons => exact .bind ih fun _ _ h => hc.orElse hr h

theorem extremeFrom (hr : ∀ i ∈ rows, i < n) (op : Comparison) {cs cs' : List Column}
    (h : List.Forall₂ (Taken n rows) cs cs') {current current' : Column}
    (hcurrent : Taken n rows current current') :
    Follows (Taken n rows) (Column.extremeFrom op current cs)
      (Column.extremeFrom op current' cs') := by
  induction h generalizing current current' with
  | nil => exact .ok hcurrent
  | cons hc _ ih => exact .bind (hcurrent.better hr op hc) fun _ _ h => ih h

theorem horizontal (hr : ∀ i ∈ rows, i < n) (op : Comparison) {cs cs' : List Column}
    (h : List.Forall₂ (Taken n rows) cs cs') :
    Follows (Taken n rows) (Column.horizontal op cs) (Column.horizontal op cs') := by
  cases h with
  | nil => exact .error _ _
  | cons hc hrest => exact extremeFrom hr op hrest hc

/-- Columns of one height are as high as the tallest of them. -/
theorem foldl_max_length {cs : List Column} {m : Nat} (h : ∀ c ∈ cs, c.length = m) :
    (cs.map Column.length).foldl max m = m := by
  induction cs with
  | nil => rfl
  | cons c rest ih =>
      obtain ⟨hc, hrest⟩ := List.forall_mem_cons.1 h
      rw [List.map_cons, List.foldl_cons, hc, Nat.max_self, ih hrest]

theorem broadcastAll_of_length {cs : List Column} {m : Nat} (h : ∀ c ∈ cs, c.length = m) :
    Column.broadcastAll m cs = .ok cs := by
  induction cs with
  | nil => rfl
  | cons c rest ih =>
      obtain ⟨hc, hrest⟩ := List.forall_mem_cons.1 h
      rw [Column.broadcastAll, Batch.broadcast_of_length hc, ih hrest]
      rfl

theorem align_of_length {cs : List Column} {m : Nat} (h : ∀ c ∈ cs, c.length = m) :
    Column.align cs = .ok cs := by
  cases cs with
  | nil => rfl
  | cons c rest =>
      obtain ⟨hc, hrest⟩ := List.forall_mem_cons.1 h
      rw [Column.align, List.map_cons, List.foldl_cons, hc, Nat.zero_max,
        foldl_max_length hrest]
      exact broadcastAll_of_length h

/-- Columns of one height are aligned already. -/
theorem align {cs cs' : List Column} (h : List.Forall₂ (Taken n rows) cs cs') :
    Column.align cs = .ok cs ∧ Column.align cs' = .ok cs' := by
  have hall : (∀ c ∈ cs, c.length = n) ∧ ∀ c ∈ cs', c.length = rows.length := by
    induction h with
    | nil => exact ⟨fun _ hc => (by cases hc), fun _ hc => (by cases hc)⟩
    | cons hc _ ih =>
        exact ⟨List.forall_mem_cons.2 ⟨hc.length, ih.1⟩,
          List.forall_mem_cons.2 ⟨hc.length_taken, ih.2⟩⟩
  exact ⟨align_of_length hall.1, align_of_length hall.2⟩

end Taken

end Column

end TypedQuery
