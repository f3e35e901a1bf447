import TypedQuery.Proofs.Columnar.Order
import TypedQuery.Proofs.Columnar.RowView
import TypedQuery.Proofs.Engine.Operands
import TypedQuery.Proofs.RowLocality

/-!
# Horizontal extremes

The least of several columns is taken row by row: one column after the other takes over
where it is less than what has been found so far, or where nothing has been. Cells of one
plain type are in a total order, and so what is found is least among all cells of the row
that are not null, in whatever order the columns come and however often.

Lists are not compared. A single column of lists is its own extreme, and the extreme of
two columns of lists fails.
-/

namespace TypedQuery

/-- The comparison that also holds of equal cells. -/
def Column.Comparison.orLevel : Column.Comparison → Column.Comparison
  | less => lessEqual
  | greater => greaterEqual
  | op => op

namespace Cell

variable {op : Column.Comparison} {t : Physical} {x y z a b best next : Cell}
    {xs ys seen : List Cell}

/-- The cell that comes first, or the other one where it compares better or stands beside
null. -/
def better (op : Column.Comparison) (x y : Cell) : Cell :=
  if !x.isNull && (y.isNull || op.holds (order true x y)) then x else y

/-- One of the cells: null only where all are, and compared to any that is not null
the better one or level. -/
structure IsExtreme (op : Column.Comparison) (cells : List Cell) (best : Cell) : Prop where
  mem : best ∈ cells
  isNull_iff : best.isNull = true ↔ ∀ c ∈ cells, c.isNull = true
  best : ∀ c ∈ cells, c.isNull = false → op.holds (order true best c) = true

/-! ## Better and level -/

theorem holds_orLevel (hop : op = .less ∨ op = .greater)
    (h : op.holds (order true x y) = true) :
    op.orLevel.holds (order true x y) = true := by
  rcases hop with rfl | rfl <;> cases hxy : order true x y <;>
    simp_all [Column.Comparison.holds, Column.Comparison.orLevel]

theorem holds_of_not (hop : op = .less ∨ op = .greater)
    (h : op.holds (order true x y) = false) :
    op.orLevel.holds (order true y x) = true := by
  rw [order_swap true x y]
  rcases hop with rfl | rfl <;> cases hxy : order true x y <;>
    simp_all [Column.Comparison.holds, Column.Comparison.orLevel]

theorem holds_trans (hop : op = .less ∨ op = .greater) (ht : t.isList = false)
    (hx : x.fits t = true) (hy : y.fits t = true) (hz : z.fits t = true)
    (hxy : op.orLevel.holds (order true x y) = true)
    (hyz : op.orLevel.holds (order true y z) = true) :
    op.orLevel.holds (order true x z) = true := by
  have hless {a b : Cell} : Column.Comparison.lessEqual.holds (order true a b)
      = (order true a b).isLE := by
    cases order true a b <;> rfl
  have hgreater {a b : Cell} : Column.Comparison.greaterEqual.holds (order true a b)
      = (order true b a).isLE := by
    rw [order_swap true a b]
    cases order true a b <;> rfl
  rcases hop with rfl | rfl <;> simp only [Column.Comparison.orLevel, hless, hgreater] at *
  · exact order_trans_plain ht hx hy hz hxy hyz
  · exact order_trans_plain ht hz hy hx hyz hxy

theorem order_eq_of_holds (hop : op = .less ∨ op = .greater)
    (hxy : op.orLevel.holds (order true x y) = true)
    (hyx : op.orLevel.holds (order true y x) = true) : order true x y = .eq := by
  rw [order_swap true x y] at hyx
  rcases hop with rfl | rfl <;> cases h : order true x y <;>
    simp_all [Column.Comparison.holds, Column.Comparison.orLevel]

/-! ## Cell by cell -/

namespace IsExtreme

theorem of_filled (hmem : best ∈ xs) (hfilled : best.isNull = false)
    (h : ∀ c ∈ xs, c.isNull = false → op.holds (order true best c) = true) :
    IsExtreme op xs best :=
  ⟨hmem, ⟨fun hnull => by simp [hnull] at hfilled, fun hall => hall best hmem⟩, h⟩

theorem single (hop : op = .less ∨ op = .greater) (x : Cell) :
    IsExtreme op.orLevel [x] x := by
  refine ⟨List.mem_singleton_self x, by simp, fun c hc _ => ?_⟩
  obtain rfl := List.mem_singleton.1 hc
  cases h : op.holds (order true c c) with
  | true => exact holds_orLevel hop h
  | false => exact holds_of_not hop h

/-- The better of an extreme and another cell is extreme among one more. -/
theorem better (hop : op = .less ∨ op = .greater) (ht : t.isList = false)
    (hseen : ∀ c ∈ seen, c.fits t = true) (hnext : next.fits t = true)
    (h : IsExtreme op.orLevel seen best) :
    IsExtreme op.orLevel (seen ++ [next]) (best.better op next) := by
  have hself := (single hop next).best next (List.mem_singleton_self next)
  cases hb : best.isNull with
  | true =>
      -- Nothing has been found so far, and the next cell is taken.
      have hall := h.isNull_iff.1 hb
      rw [Cell.better, hb, if_neg (by simp)]
      refine ⟨by simp, by simpa [or_imp, forall_and] using fun _ => hall,
        fun c hc hfilled => ?_⟩
      rcases List.mem_append.1 hc with hc | hc
      · simp [hall c hc] at hfilled
      · exact List.mem_singleton.1 hc ▸ hself (List.mem_singleton.1 hc ▸ hfilled)
  | false =>
      cases hkeep : next.isNull || op.holds (order true best next) with
      | true =>
          rw [Cell.better, hb, hkeep, if_pos (by rfl)]
          refine of_filled (List.mem_append_left _ h.mem) hb fun c hc hfilled => ?_
          rcases List.mem_append.1 hc with hc | hc
          · exact h.best c hc hfilled
          · obtain rfl := List.mem_singleton.1 hc
            rw [hfilled, Bool.false_or] at hkeep
            exact holds_orLevel hop hkeep
      | false =>
          obtain ⟨hfilled, hbetter⟩ := Bool.or_eq_false_iff.1 hkeep
          rw [Cell.better, hkeep, Bool.and_false, if_neg Bool.false_ne_true]
          refine of_filled (by simp) hfilled fun c hc hc' => ?_
          rcases List.mem_append.1 hc with hc | hc
          · exact holds_trans hop ht hnext (hseen best h.mem) (hseen c hc)
              (holds_of_not hop hbetter) (h.best c hc hc')
          · exact List.mem_singleton.1 hc ▸ hself hfilled

/-- Extremes of the same cells, in any order and however often each of them
comes, are the same data. -/
theorem unique (hop : op = .less ∨ op = .greater) (ht : t.isList = false)
    (hxs : ∀ c ∈ xs, c.fits t = true) (hmem : ∀ c, c ∈ ys ↔ c ∈ xs)
    (ha : IsExtreme op.orLevel xs a) (hb : IsExtreme op.orLevel ys b) : a.bare = b.bare := by
  have hbmem := (hmem b).1 hb.mem
  have hnulls : b.isNull = true ↔ a.isNull = true := by
    rw [ha.isNull_iff, hb.isNull_iff]
    exact forall_congr' fun c => by rw [hmem c]
  suffices hlevel : order true a b = .eq
    from (order_eq_plain ht (hxs a ha.mem) (hxs b hbmem)).1 hlevel
  cases ha' : a.isNull with
  | true =>
      obtain ⟨r, rfl⟩ := missing_of_isNull ha'
      obtain ⟨r', rfl⟩ := missing_of_isNull (hnulls.2 ha')
      rfl
  | false =>
      have hb' : b.isNull = false := Bool.eq_false_iff.2 fun h => by simp [hnulls.1 h] at ha'
      exact order_eq_of_holds hop (ha.best b hbmem hb') (hb.best a ((hmem a).2 ha.mem) ha')

end IsExtreme

end Cell

namespace Column

variable {op : Comparison} {t : Physical} {n : Nat} {c d l r current : Column}
    {cs rest : List Column}

/-! ## Column by column -/

theorem choose_zipWith (f : Cell → Cell → Bool) : ∀ ls rs : List Cell,
    choose (List.zipWith f ls rs) ls rs
      = List.zipWith (fun l r => if f l r then l else r) ls rs
  | [], _ => rfl
  | _ :: _, [] => rfl
  | _ :: ls, _ :: rs => congrArg (_ :: ·) (choose_zipWith f ls rs)

theorem select_level {mask : List Bool} (htype : l.type = r.type)
    (hmask : mask.length = l.length) (hlength : l.length = r.length) :
    select mask l r = .ok ⟨l.type, choose mask l.cells r.cells⟩ := by
  have hrows : max mask.length (max l.length r.length) = l.length := by omega
  have hbools : (bools (mask.map some)).broadcast l.length = .ok (bools (mask.map some)) :=
    Batch.broadcast_of_length (by simp [bools, length] at hmask ⊢; exact hmask)
  have hcells : (bools (mask.map some)).cells.map Cell.isTrue = mask := by
    simp [bools, Function.comp_def, Cell.ofOption, Cell.isTrue]
  rw [select, hrows, hbools, coerce_self htype]
  show (l.broadcast l.length >>= fun a => r.broadcast l.length >>= fun b => _) = _
  rw [Batch.broadcast_of_length rfl, Batch.broadcast_of_length hlength.symm]
  show Except.ok _ = _
  rw [hcells]

/-- Columns of one plain type and of one height are compared cell by cell. -/
theorem compare_level (hlist : l.type.isList = false) (hlength : l.length = r.length) :
    compare op l r
      = .ok ⟨.boolean, List.zipWith (compareCells op l.type) l.cells r.cells⟩ := by
  rw [compare, pairs, if_pos hlength]
  show (if l.type.isList = true then _ else _) = _
  rw [if_neg (by simp [hlist]), List.map_map, List.zip, List.map_zipWith]
  rfl

/-- Whether the cell of the one column is kept: where the comparison tells, its result
decides. -/
theorem keeps_eq (t : Physical) (ls rs : List Cell) :
    ((ls.zip (rs.zip (List.zipWith (compareCells op t) ls rs))).map fun (c, n, b) =>
      !c.isNull && (n.isNull || b.isTrue))
      = List.zipWith
        (fun c n => !c.isNull && (n.isNull || op.holds (Cell.order true c n))) ls rs := by
  induction ls generalizing rs with
  | nil => rfl
  | cons c ls ih =>
      cases rs with
      | nil => rfl
      | cons n rs =>
          refine List.cons_eq_cons.2 ⟨?_, ih rs⟩
          cases hc : c.isNull <;> cases hn : n.isNull
            <;> simp [compareCells, hc, hn, Cell.isTrue]

theorem better_eq (htype : l.type = r.type) (hlist : l.type.isList = false)
    (hlength : l.length = r.length) :
    better op l r = .ok ⟨l.type, List.zipWith (Cell.better op) l.cells r.cells⟩ := by
  rw [better, coerce_self htype]
  show (compare op l r >>= fun compared => _) = _
  rw [compare_level hlist hlength]
  show (if l.length = r.length then select _ l r else _) = _
  rw [if_pos hlength, keeps_eq, select_level htype ?_ hlength, choose_zipWith]
  · rfl
  · rw [List.length_zipWith, ← length, ← length, ← hlength, Nat.min_self]

/-- Columns of one type and of one height. -/
structure Alike (t : Physical) (n : Nat) (c : Column) : Prop where
  type_eq : c.type = t
  length_eq : c.length = n
  typed : c.Typed

theorem Alike.fits (h : c.Alike t n) {i : Nat} (hi : i < n) : (c.row i).fits t = true :=
  h.type_eq ▸ h.typed _ (row_mem (.inl h.length_eq) hi)

/-- What is found extreme so far stays so with each further column. -/
theorem exists_extremeFrom (seen : List Column) (hop : op = .less ∨ op = .greater)
    (ht : t.isList = false) (hcurrent : current.Alike t n) (hseen : ∀ c ∈ seen, c.Alike t n)
    (hrest : ∀ c ∈ rest, c.Alike t n)
    (h : ∀ i < n, Cell.IsExtreme op.orLevel (seen.map (·.row i)) (current.row i)) :
    ∃ out, extremeFrom op current rest = .ok out ∧ out.Alike t n
      ∧ ∀ i < n, Cell.IsExtreme op.orLevel ((seen ++ rest).map (·.row i)) (out.row i) := by
  induction rest generalizing current seen with
  | nil => exact ⟨current, rfl, hcurrent, by simpa using h⟩
  | cons next rest ih =>
      obtain ⟨hnext, hrest⟩ := List.forall_mem_cons.1 hrest
      have htype : current.type = next.type := hcurrent.type_eq.trans hnext.type_eq.symm
      have hlength : current.length = next.length :=
        hcurrent.length_eq.trans hnext.length_eq.symm
      have hbetter : better op current next = .ok _ :=
        better_eq htype (by rw [hcurrent.type_eq, ht]) hlength
      have halike :
          Alike t n ⟨current.type, List.zipWith (Cell.better op) current.cells next.cells⟩ :=
        ⟨hcurrent.type_eq, ((length_better op current next _ hbetter).2).trans
          hcurrent.length_eq, hcurrent.typed.better op hnext.typed _ hbetter⟩
      obtain ⟨out, hout, hlike, hextreme⟩ := ih (seen ++ [next]) halike
        (by simpa [or_imp, forall_and] using ⟨hseen, hnext⟩) hrest fun i hi => by
          rw [row_zipWith hcurrent.length_eq hnext.length_eq hi, List.map_append]
          refine (h i hi).better hop ht ?_ (hnext.fits hi)
          intro c hc
          obtain ⟨d, hd, rfl⟩ := List.mem_map.1 hc
          exact (hseen d hd).fits hi
      refine ⟨out, bind_eq_ok.2 ⟨_, hbetter, hout⟩, hlike, ?_⟩
      rwa [List.append_assoc] at hextreme

theorem exists_horizontal (hop : op = .less ∨ op = .greater)
    (ht : t.isList = false) (hne : cs ≠ []) (hcs : ∀ c ∈ cs, c.Alike t n) :
    ∃ out, horizontal op cs = .ok out ∧ out.Alike t n
      ∧ ∀ i < n, Cell.IsExtreme op.orLevel (cs.map (·.row i)) (out.row i) := by
  obtain ⟨c, rest, rfl⟩ := List.exists_cons_of_ne_nil hne
  obtain ⟨hc, hrest⟩ := List.forall_mem_cons.1 hcs
  exact exists_extremeFrom [c] hop ht hc (by simpa using hc) hrest fun i _ => .single hop _

/-- Extremes of the same columns, in any order and however often each of them
comes, are the same data. -/
theorem sameData_horizontal (hop : op = .less ∨ op = .greater) (ht : t.isList = false)
    (hc : c.Alike t n) (hd : d.Alike t n) {cs' : List Column} (hcs : ∀ c ∈ cs, c.Alike t n)
    (hmem : ∀ c, c ∈ cs' ↔ c ∈ cs)
    (h : ∀ i < n, Cell.IsExtreme op.orLevel (cs.map (·.row i)) (c.row i))
    (h' : ∀ i < n, Cell.IsExtreme op.orLevel (cs'.map (·.row i)) (d.row i)) :
    c.SameData d := by
  have hlength : c.cells.length = n ∧ d.cells.length = n := ⟨hc.length_eq, hd.length_eq⟩
  refine ⟨hc.type_eq.trans hd.type_eq.symm,
    List.ext_getElem (by simp [hlength]) fun i hi hi' => ?_⟩
  have hn : i < n := by simpa [hlength] using hi
  have hrows := Cell.IsExtreme.unique hop ht (t := t) ?_ ?_ (h i hn) (h' i hn)
  · have hcell := row_of_length hc.length_eq hn
    have hcell' := row_of_length hd.length_eq hn
    rw [List.getElem_map, List.getElem_map]
    rwa [(List.getElem_eq_iff _).2 hcell, (List.getElem_eq_iff _).2 hcell']
  · intro cell hcell
    obtain ⟨e, he, rfl⟩ := List.mem_map.1 hcell
    exact (hcs e he).fits hn
  · intro cell
    simp only [List.mem_map, hmem]

end Column

namespace Expr

variable {b : Batch} {items items' : List Expr} {cs : List Column} {c : Column}
    {t : Physical} {n : Nat}

/-! ## Expressions -/

theorem mem_of_evaluateList (h : evaluateList b items = .ok cs) :
    c ∈ cs ↔ ∃ e ∈ items, e.evaluate b = .ok c := by
  have hcs := evaluateList_eq_ok.1 h
  refine ⟨fun hc => exists_of_forall₂_right hcs hc, fun ⟨e, he, hc⟩ => ?_⟩
  obtain ⟨d, hd, hed⟩ := exists_of_forall₂_right hcs.flip he
  exact Except.ok.inj (hc.symm.trans hed) ▸ hd

/-- Expressions that are all among evaluated ones are evaluated. -/
theorem exists_evaluateList (h : evaluateList b items = .ok cs)
    (hmem : ∀ e ∈ items', e ∈ items) :
    ∃ cs', evaluateList b items' = .ok cs' := by
  induction items' with
  | nil => exact ⟨[], rfl⟩
  | cons e rest ih =>
      obtain ⟨he, hrest⟩ := List.forall_mem_cons.1 hmem
      obtain ⟨c, -, hc⟩ := exists_of_forall₂_right (evaluateList_eq_ok.1 h).flip he
      obtain ⟨cs', hcs'⟩ := ih hrest
      exact ⟨c :: cs', evaluateList_eq_ok.2 (.cons hc (evaluateList_eq_ok.1 hcs'))⟩

theorem alike_evaluateList (hb : b.Typed) (h : evaluateList b items = .ok cs)
    (hlevel : ∀ c ∈ cs, c.type = t ∧ c.length = n) : ∀ c ∈ cs, c.Alike t n :=
  fun c hc => ⟨(hlevel c hc).1, (hlevel c hc).2, typed_evaluateList hb items cs h c hc⟩

/-- The extreme of the columns is found, and no other one where their expressions come in
another order or repeatedly. -/
theorem exists_extreme {op : Column.Comparison} (hop : op = .less ∨ op = .greater)
    (hb : b.Typed) (hne : items ≠ []) (ht : t.isList = false)
    (hcs : evaluateList b items = .ok cs) (hlevel : ∀ c ∈ cs, c.type = t ∧ c.length = n) :
    ∃ out, Column.horizontal op cs = .ok out ∧ out.Alike t n
      ∧ (∀ i < n, Cell.IsExtreme op.orLevel (cs.map (·.row i)) (out.row i))
      ∧ ∀ items', (∀ e, e ∈ items' ↔ e ∈ items) → ∃ cs' out', evaluateList b items' = .ok cs'
          ∧ Column.horizontal op cs' = .ok out' ∧ out.SameData out' := by
  have halike := alike_evaluateList hb hcs hlevel
  have hcsne : cs ≠ [] := by
    rintro rfl
    exact hne (List.length_eq_zero_iff.1 (evaluateList_length hcs).symm)
  obtain ⟨out, hout, hlike, hextreme⟩ := Column.exists_horizontal hop ht hcsne halike
  refine ⟨out, hout, hlike, hextreme, fun items' hitems => ?_⟩
  obtain ⟨cs', hcs'⟩ := exists_evaluateList hcs fun e he => (hitems e).1 he
  have hmem : ∀ c, c ∈ cs' ↔ c ∈ cs := fun c => by
    simp only [mem_of_evaluateList hcs', mem_of_evaluateList hcs, hitems]
  have halike' : ∀ c ∈ cs', c.Alike t n := fun c hc => halike c ((hmem c).1 hc)
  obtain ⟨c, hc⟩ := List.exists_mem_of_ne_nil cs hcsne
  obtain ⟨out', hout', hlike', hextreme'⟩ :=
    Column.exists_horizontal hop ht (List.ne_nil_of_mem ((hmem c).2 hc)) halike'
  exact ⟨cs', out', hcs', hout',
    Column.sameData_horizontal hop ht hlike hlike' halike hmem hextreme hextreme'⟩

end Expr

open TypedQuery.Expr TypedQuery.Column in
/-- Of expressions of one plain type, on a batch where they are evaluated to columns of one
height, the least (greatest) is in each row the least (greatest) of the cells that are not
null, and null only where all are. The same expressions in another order, or some of them
more than once, give the same. -/
theorem horizontal_extremes {b : Batch} {items : List Expr} {cs : List Column}
    {t : Physical} {n : Nat} (hb : b.Typed) (hne : items ≠ []) (ht : t.isList = false)
    (hcs : evaluateList b items = .ok cs) (hlevel : ∀ c ∈ cs, c.type = t ∧ c.length = n) :
    ∃ low high, (least items).evaluate b = .ok low ∧ (greatest items).evaluate b = .ok high
      ∧ low.type = t ∧ high.type = t ∧ low.length = n ∧ high.length = n
      ∧ (∀ i < n, Cell.IsExtreme .lessEqual (cs.map (·.row i)) (low.row i)
          ∧ Cell.IsExtreme .greaterEqual (cs.map (·.row i)) (high.row i))
      ∧ (∀ items' : List Expr, (∀ e, e ∈ items' ↔ e ∈ items) →
        ∃ low' high', (least items').evaluate b = .ok low'
          ∧ (greatest items').evaluate b = .ok high' ∧ low.SameData low'
          ∧ high.SameData high')
      ∧ ∀ (clock : Engine.Clock) (m : Node) (e : Expr), m.Built → Engine.Compiled clock m e →
          Engine.Operands clock m "arg" items → (m.kind = .least → e.evaluate b = .ok low)
            ∧ (m.kind = .greatest → e.evaluate b = .ok high) := by
  obtain ⟨low, hlow, hlowlike, hlowest, hlow'⟩ :=
    exists_extreme (.inl rfl) hb hne ht hcs hlevel
  obtain ⟨high, hhigh, hhighlike, hhighest, hhigh'⟩ :=
    exists_extreme (.inr rfl) hb hne ht hcs hlevel
  have hleast : (least items).evaluate b = .ok low := bind_eq_ok.2 ⟨cs, hcs, hlow⟩
  have hgreatest : (greatest items).evaluate b = .ok high := bind_eq_ok.2 ⟨cs, hcs, hhigh⟩
  refine ⟨low, high, hleast, hgreatest, hlowlike.type_eq, hhighlike.type_eq,
    hlowlike.length_eq, hhighlike.length_eq, fun i hi => ⟨hlowest i hi, hhighest i hi⟩,
    fun items' hitems => ?_, fun clock m e hm he hitems => ⟨fun hk => ?_, fun hk => ?_⟩⟩
  · obtain ⟨cs', low', hcs', hlow', hsame⟩ := hlow' items' hitems
    obtain ⟨_, high', hcs'', hhigh', hsame'⟩ := hhigh' items' hitems
    exact ⟨low', high', bind_eq_ok.2 ⟨cs', hcs', hlow'⟩,
      bind_eq_ok.2 ⟨_, hcs'', hhigh'⟩, hsame, hsame'⟩
  · obtain ⟨es, hes, rfl⟩ := Engine.compiled_least hm hk he
    obtain ⟨ms, hms, hcompiled⟩ := hes
    rw [hitems.unique hms hcompiled] at hleast
    exact hleast
  · obtain ⟨es, hes, rfl⟩ := Engine.compiled_greatest hm hk he
    obtain ⟨ms, hms, hcompiled⟩ := hes
    rw [hitems.unique hms hcompiled] at hgreatest
    exact hgreatest

open TypedQuery.Expr TypedQuery.Column in
/-- Two columns of whole numbers with nulls: one of both in the first row, the only number
in the second, and null in the last. -/
theorem horizontal_extremes_of_two :
    ∃ (b : Batch) (cs : List Column) (low high low' : Column),
      cs = [⟨.int64, [.int 5, .null, .null]⟩, ⟨.int64, [.int 2, .int 7, .null]⟩]
        ∧ b = ⟨3, ["a", "c"].zip cs⟩
        ∧ (least [column "a", column "c"]).evaluate b = .ok low
        ∧ low = ⟨.int64, [.int 2, .int 7, .null]⟩
        ∧ (greatest [column "a", column "c"]).evaluate b = .ok high
        ∧ high = ⟨.int64, [.int 5, .int 7, .null]⟩
        ∧ (∀ i < 3, Cell.IsExtreme .lessEqual (cs.map (·.row i)) (low.row i)
          ∧ Cell.IsExtreme .greaterEqual (cs.map (·.row i)) (high.row i))
        ∧ (least [column "c", column "a", column "c"]).evaluate b = .ok low'
        ∧ low.SameData low' := by
  obtain ⟨cs, hcs⟩ : ∃ cs : List Column,
      cs = [⟨.int64, [.int 5, .null, .null]⟩, ⟨.int64, [.int 2, .int 7, .null]⟩] :=
    ⟨_, rfl⟩
  obtain ⟨b, hb⟩ : ∃ b : Batch, b = ⟨3, ["a", "c"].zip cs⟩ := ⟨_, rfl⟩
  have htyped : b.Typed := by
    subst hb hcs
    unfold Batch.Typed Column.Typed
    decide
  have hevaluate : evaluateList b [column "a", column "c"] = .ok cs := by
    subst hb hcs
    rfl
  obtain ⟨low, high, hlow, hhigh, -, -, -, -, hrows, hagain, -⟩ :=
    horizontal_extremes (n := 3) (t := .int64) htyped (by simp) rfl hevaluate
      (by subst hcs; decide)
  obtain ⟨low', -, hlow', -, hsame, -⟩ :=
    hagain [column "c", column "a", column "c"] (by simp [or_comm])
  refine ⟨b, cs, low, high, low', hcs, hb, hlow, ?_, hhigh, ?_, hrows, hlow', hsame⟩
  · subst hb hcs
    cases hlow
    rfl
  · subst hb hcs
    cases hhigh
    rfl

open TypedQuery.Expr in
/-- Lists are not compared: a single column of them is its own extreme, but there is none
of that column and itself. -/
theorem horizontal_extremes_of_lists :
    ∃ (b : Batch) (wrapped : Expr) (l : Column), b = ⟨1, [("a", ⟨.int64, [.int 1]⟩)]⟩
      ∧ wrapped = call .listFromColumns [column "a"] ∧ l = ⟨.list .int64, [.list [.int 1]]⟩
      ∧ wrapped.evaluate b = .ok l ∧ (least [wrapped]).evaluate b = .ok l
      ∧ (greatest [wrapped]).evaluate b = .ok l
      ∧ (least [wrapped, wrapped]).evaluate b = .error (.compute .invalidArgument)
      ∧ (greatest [wrapped, wrapped]).evaluate b = .error (.compute .invalidArgument) :=
  ⟨_, _, _, rfl, rfl, rfl, rfl, rfl, rfl, rfl, rfl⟩

end TypedQuery
