import TypedQuery.Proofs.Columnar.Reduced
import TypedQuery.Proofs.EquiJoin

/-!
# What counts as null

Null is tested in four places: by `IsNull` and `IsNotNull` cell by cell, by the
counts, by the step that drops rows, and by joins. The last three ask whether a cell
is marked as missing, and a column of the type `null` has no marks. So on every column
of another type they agree with `IsNotNull`, and on a column of the type `null` they
take every cell as filled.

A join marks the other key after it has brought it to the type of the leading one. Where
that is a list and the key is not, a missing cell becomes a list of one missing cell,
which is not missing itself.
-/

namespace TypedQuery

/-- Whether a test of null passes in a row of a column. -/
def Column.passes (test : UnaryOp) (c : Column) (i : Nat) : Bool :=
  (test.apply c).toOption.any fun t => t.cells[i]?.any Cell.isTrue

/-- Whether a test of null passes for the value of an expression in a row of a batch. -/
def Batch.passes (test : UnaryOp) (b : Batch) (e : Expr) (i : Nat) : Bool :=
  (b.compute b.rows (.unary test e)).toOption.any fun t => t.cells[i]?.any Cell.isTrue

namespace Column

variable {c : Column} {i : Nat}

/-! ## The tests cell by cell -/

theorem passes_isNull (c : Column) (i : Nat) : c.passes .isNull i = c.nullAt i := by
  simp only [passes, UnaryOp.apply, bools, isNull, nullAt, Except.toOption,
    Option.any_some, List.map_map, List.getElem?_map]
  cases c.cells[i]? <;> rfl

theorem passes_isNotNull (hi : i < c.length) : c.passes .isNotNull i = !c.nullAt i := by
  have hi : i < c.cells.length := hi
  simp [passes, UnaryOp.apply, bools, isNull, nullAt, Except.toOption, hi,
    Cell.ofOption, Cell.isTrue]

/-- Tests of null may as well be made before a single row is repeated. -/
theorem broadcast_isNull {d : Column} {n : Nat} (h : c.broadcast n = .ok d) :
    (bools (c.isNull.map some)).broadcast n = .ok (bools (d.isNull.map some)) := by
  have hlength : (bools (c.isNull.map some)).length = c.length := by
    simp [bools, length, isNull]
  unfold broadcast at h ⊢
  rw [hlength]
  split at h
  · next hn =>
      cases h
      exact if_pos hn
  · next hn =>
      rw [if_neg hn]
      obtain ⟨t, cells⟩ := c
      rcases cells with _ | ⟨cell, _ | _⟩
      · cases h
      · cases h
        simp [bools, isNull, constant]
      · cases h

/-! ## Counts -/

theorem length_filledCells (c : Column) :
    (Reduction.filledCells c).length
      = if c.type = .null then c.length
        else (bools (c.isNull.map fun b => some !b)).cells.countP Cell.isTrue := by
  have htrue : (bools (c.isNull.map fun b => some !b)).cells.countP Cell.isTrue
      = c.cells.countP (!·.isNull) := by
    rw [bools, isNull, List.map_map, List.map_map, List.countP_map]
    rfl
  rw [htrue, Reduction.filledCells_eq, ← List.countP_eq_length_filter, marksNulls]
  by_cases h : c.type = .null
  · simp [h, length]
  · simp [h]

/-- Nulls are all the same once their residues are gone. -/
theorem length_eraseDups_of_isNull {cells : List Cell}
    (h : ∀ cell ∈ cells, cell.isNull = true) :
    (cells.map Cell.bare).eraseDups.length = if cells = [] then 0 else 1 := by
  cases cells with
  | nil => rfl
  | cons cell rest =>
      have hbare : ∀ other ∈ cell :: rest, other.bare = Cell.null :=
        fun other ho => Cell.bare_of_isNull (h other ho)
      have hrest : (rest.map Cell.bare).filter (fun other => !other == cell.bare) = [] := by
        rw [List.filter_eq_nil_iff]
        intro other ho
        obtain ⟨d, hd, rfl⟩ := List.mem_map.1 ho
        simp [hbare d (List.mem_cons_of_mem _ hd), hbare cell List.mem_cons_self]
      rw [List.map_cons, List.eraseDups_cons, hrest, if_neg (List.cons_ne_nil _ _)]
      rfl

theorem countDistinct_of_isNull {c : Column} (h : ∀ cell ∈ c.cells, cell.isNull = true) :
    Reduction.countDistinct.apply c
      = .ok (Reduction.oneInt (if c.type = .null ∧ c.length ≠ 0 then 1 else 0 : Nat)) := by
  have hfilled : ∀ cell ∈ Reduction.filledCells c, cell.isNull = true := fun cell hcell => by
    rw [Reduction.filledCells_eq] at hcell
    exact h cell (List.mem_of_mem_filter hcell)
  show Except.ok
    (Reduction.oneInt ((Reduction.filledCells c).map Cell.bare).eraseDups.length) = _
  rw [length_eraseDups_of_isNull hfilled]
  by_cases ht : c.type = .null
  · have hall : Reduction.filledCells c = c.cells := by
      simp [Reduction.filledCells_eq, marksNulls, ht]
    simp only [hall, ht, true_and, length, ne_eq, List.length_eq_zero_iff, ite_not]
  · have hnone : Reduction.filledCells c = [] := by
      rw [Reduction.filledCells_eq, List.filter_eq_nil_iff]
      intro cell hcell
      simp [marksNulls, ht, h cell hcell]
    simp only [hnone, ht, false_and, if_false, if_true]

/-! ## Rows that are kept -/

/-- The mask that the filled rows of some columns give. -/
theorem filledMask_eq {n : Nat} {cs : List Column} (h : ∀ c ∈ cs, c.length = n) :
    (cs.map filled).foldl (List.zipWith and) (List.replicate n true)
      = (List.range n).map fun i => cs.all fun c =>
        decide (c.type = .null) || c.passes .isNotNull i := by
  refine List.ext_getElem? fun i => ?_
  by_cases hi : i < n
  · rw [Join.getElem?_complete h hi List.length_replicate, List.getElem?_map,
      List.getElem?_range hi, Option.map_some]
    have hinit : (List.replicate n true).getD i true = true := by simp [hi]
    rw [hinit, Bool.true_and]
    refine congrArg some ?_
    rw [Bool.eq_iff_iff, List.all_eq_true, List.all_eq_true]
    refine forall₂_congr fun c hc => ?_
    rw [passes_isNotNull (h c hc ▸ hi), marksNulls]
    by_cases ht : c.type = .null <;> simp [ht]
  · have hlength :
        ((cs.map filled).foldl (List.zipWith and) (List.replicate n true)).length = n :=
      Join.length_complete h List.length_replicate
    rw [List.getElem?_eq_none (by omega), List.getElem?_eq_none (by simp; omega)]

end Column

namespace Batch

variable {b : Batch}

theorem mem_of_findColumns {names : List String} {cs : List Column}
    (h : b.findColumns names = .ok cs) :
    ∀ c ∈ cs, ∃ name, (name, c) ∈ b.columns := by
  induction names generalizing cs with
  | nil =>
      cases h
      exact fun c hc => by cases hc
  | cons name rest ih =>
      obtain ⟨c, hc, h⟩ := bind_eq_ok.1 h
      obtain ⟨cs, hcs, h⟩ := bind_eq_ok.1 h
      cases h
      refine List.forall_mem_cons.2 ⟨?_, ih hcs⟩
      unfold Expr.findColumn at hc
      split at hc
      · next d hd =>
          cases hc
          obtain ⟨⟨other, d⟩, hfind, rfl⟩ := Option.map_eq_some_iff.1 hd
          exact ⟨other, List.mem_of_find?_eq_some hfind⟩
      · cases hc

/-- The columns that a step which drops rows looks at. -/
def chosen (b : Batch) : Option (List String) → Except Error (List Column)
  | some names => b.findColumns names
  | none => .ok (b.columns.map (·.2))

theorem dropNulls_of_chosen (hb : b.Rectangular) {names : Option (List String)}
    {cs : List Column} (h : b.chosen names = .ok cs) :
    b.dropNulls names = .ok (b.keep
      ((List.range b.rows).map fun i => cs.all fun c =>
        decide (c.type = .null) || c.passes .isNotNull i)) := by
  have hlength : ∀ c ∈ cs, c.length = b.rows := by
    intro c hc
    cases names with
    | none =>
        cases h
        obtain ⟨d, hd, rfl⟩ := List.mem_map.1 hc
        exact hb d hd
    | some names =>
        obtain ⟨name, hname⟩ := mem_of_findColumns h c hc
        exact hb _ hname
  rw [← Column.filledMask_eq hlength]
  cases names with
  | none =>
      cases h
      rfl
  | some names =>
      have h : b.findColumns names = .ok cs := h
      simp only [dropNulls, h, bind, Except.bind]

theorem passes_of_compute {e : Expr} {c : Column}
    (h : b.compute b.rows e = .ok c) (i : Nat) :
    b.passes .isNull e i = c.nullAt i := by
  obtain ⟨d, hd, hc⟩ := bind_eq_ok.1 h
  have hcompute : b.compute b.rows (.unary .isNull e)
      = .ok (.bools (c.isNull.map some)) := by
    rw [compute, Expr.evaluate, hd]
    exact Column.broadcast_isNull hc
  rw [passes, hcompute, ← Column.passes_isNull]
  rfl

end Batch

/-! ## Rows that a join pairs -/

namespace Column

/-- A key that is not a list is made a list of itself. -/
def wrapped (target source : Physical) : Prop :=
  target.isList = true ∧ source.isList = false ∧ source ≠ .null

theorem isNull_of_cast {source target : Physical} {cell out : Cell}
    (hwrapped : ¬ wrapped target source) (hnull : cell.isNull = true)
    (h : Cast.cell source target cell = .ok out) : out.isNull = true := by
  obtain ⟨residue, rfl⟩ := Cell.missing_of_isNull hnull
  cases hlist : target.isList with
  | false =>
      rw [Cast.cell_missing hlist] at h
      cases h
      rfl
  | true =>
      cases target <;> cases hlist
      cases source with
      | null | list _ =>
          cases h
          rfl
      | _ => exact absurd ⟨rfl, rfl, nofun⟩ hwrapped

/-- A missing cell stays one in another type, unless it is made a list of itself. -/
theorem nullAt_of_cast {r o : Column} {t : Physical} {j : Nat} (h : r.cast t = .ok o)
    (hwrapped : ¬ wrapped t r.type) (hnull : r.nullAt j = true) : o.nullAt j = true := by
  by_cases hne : r.type = t
  · rw [cast, if_pos hne] at h
    cases h
    exact hnull
  · obtain ⟨-, -, hcells⟩ := cast_eq_ok h hne
    have hj : j < r.cells.length := by
      by_contra hj
      rw [nullAt, List.getElem?_eq_none (Nat.le_of_not_lt hj)] at hnull
      cases hnull
    have hj' : j < o.cells.length := hcells.length_eq ▸ hj
    have hcell := (List.forall₂_iff_get.1 hcells).2 j hj hj'
    rw [nullAt, List.getElem?_eq_getElem hj, Option.any_some] at hnull
    rw [nullAt, List.getElem?_eq_getElem hj', Option.any_some]
    exact isNull_of_cast hwrapped hnull hcell

end Column

namespace Join

open Column

theorem mem_convertKeys {ls rs os : List Column} (h : convertKeys ls rs = .ok os) :
    ∀ o ∈ os, ∃ r ∈ rs, ∃ t, r.cast t = .ok o := by
  induction ls generalizing rs os with
  | nil =>
      cases h
      exact fun o ho => by cases ho
  | cons l ls ih =>
      cases rs with
      | nil =>
          cases h
          exact fun o ho => by cases ho
      | cons r rs =>
          obtain ⟨o, ho, h⟩ := bind_eq_ok.1 h
          obtain ⟨rest, hrest, h⟩ := bind_eq_ok.1 h
          cases h
          refine List.forall_mem_cons.2 ⟨⟨r, List.mem_cons_self, l.type, ho⟩, fun o ho => ?_⟩
          obtain ⟨r', hr', hcast⟩ := ih hrest o ho
          exact ⟨r', List.mem_cons_of_mem _ hr', hcast⟩

/-- Every pair of keys is computed on its side, and the other one is converted to the
type of the leading one. -/
theorem exists_keys {left right : Batch} {leftKeys rightKeys : List Expr}
    {ls rs os : List Column} (hls : left.computeKeys leftKeys = .ok ls)
    (hrs : right.computeKeys rightKeys = .ok rs) (hos : convertKeys ls rs = .ok os) :
    ∀ k ∈ leftKeys.zip rightKeys, ∃ l ∈ ls, ∃ r, ∃ o ∈ os, left.compute left.rows k.1 = .ok l
      ∧ right.compute right.rows k.2 = .ok r ∧ r.cast l.type = .ok o := by
  induction leftKeys generalizing rightKeys ls rs os with
  | nil => exact fun k hk => by cases hk
  | cons e leftKeys ih =>
      cases rightKeys with
      | nil => exact fun k hk => by cases hk
      | cons e' rightKeys =>
          obtain ⟨l, hl, hls⟩ := bind_eq_ok.1 hls
          obtain ⟨ls, hrest, hls⟩ := bind_eq_ok.1 hls
          cases hls
          obtain ⟨r, hr, hrs⟩ := bind_eq_ok.1 hrs
          obtain ⟨rs, hrest', hrs⟩ := bind_eq_ok.1 hrs
          cases hrs
          obtain ⟨o, ho, hos⟩ := bind_eq_ok.1 hos
          obtain ⟨os, hrest'', hos⟩ := bind_eq_ok.1 hos
          cases hos
          refine List.forall_mem_cons.2
            ⟨⟨l, List.mem_cons_self, r, o, List.mem_cons_self, hl, hr, ho⟩, fun k hk => ?_⟩
          obtain ⟨l', hl', r', o', ho', hkey⟩ := ih hrest hrest' hrest'' k hk
          exact ⟨l', List.mem_cons_of_mem _ hl', r', o', List.mem_cons_of_mem _ ho', hkey⟩

/-- Rows that meet although nulls don't match have no key that is marked as missing. -/
theorem complete_of_meets {l r : KeyedRow} (h : meets false l r = true) :
    l.complete = true ∧ r.complete = true := by
  simp only [meets, takesPart, Bool.false_or, Bool.and_eq_true] at h
  exact h.1

/-- Where nulls don't match, the rows that a join pairs have no null key, as far as
nulls are marked in it. -/
theorem nested_of_pairing {left right : Batch} {leftKeys rightKeys : List Expr}
    {kind : JoinKind} {pairs : List RowPair}
    (h : left.pairing right leftKeys rightKeys kind false = .ok pairs) :
    ∃ meet, pairs = nested kind left.rows right.rows meet
      ∧ ∀ i < left.rows, ∀ j < right.rows, meet i j = true →
        ∀ k ∈ leftKeys.zip rightKeys, ∃ lead key,
          left.compute left.rows k.1 = .ok lead ∧ right.compute right.rows k.2 = .ok key
            ∧ (left.passes .isNull k.1 i = true → lead.type = .null)
            ∧ (right.passes .isNull k.2 j = true →
              lead.type = .null ∨ wrapped lead.type key.type) := by
  unfold Batch.pairing at h
  split at h
  · cases h
  · obtain ⟨ls, hls, h⟩ := bind_eq_ok.1 h
    obtain ⟨rs, hrs, h⟩ := bind_eq_ok.1 h
    obtain ⟨os, hos, h⟩ := bind_eq_ok.1 h
    cases h
    have hl : ∀ l ∈ ls, l.length = left.rows := Batch.length_of_computeKeys hls
    have ho : ∀ o ∈ os, o.length = right.rows := fun o ho => by
      obtain ⟨r, hr, t, hcast⟩ := mem_convertKeys hos o ho
      exact (length_cast hcast).trans (Batch.length_of_computeKeys hrs r hr)
    rw [matchRows_eq_nested, length_keyedRows hl, length_keyedRows ho]
    refine ⟨_, rfl, fun i hi j hj hmeets k hk => ?_⟩
    rw [getElem?_keyedRows hl hi, getElem?_keyedRows ho hj, Option.any_some,
      Option.any_some] at hmeets
    obtain ⟨hleft, hright⟩ := complete_of_meets hmeets
    obtain ⟨l, hlmem, r, o, homem, hlk, hrk, hcast⟩ := exists_keys hls hrs hos k hk
    have hleft := List.all_eq_true.1 hleft l hlmem
    have hright := List.all_eq_true.1 hright o homem
    have hotype : o.type = l.type := type_cast _ _ _ hcast
    refine ⟨l, r, hlk, hrk, fun hnull => ?_, fun hnull => ?_⟩
    · rw [Batch.passes_of_compute hlk] at hnull
      simpa [hnull, marksNulls] using hleft
    · rw [Batch.passes_of_compute hrk] at hnull
      by_cases hwrapped : wrapped l.type r.type
      · exact .inr hwrapped
      · rw [nullAt_of_cast hcast hwrapped hnull] at hright
        exact .inl (by simpa [marksNulls, hotype] using hright)

end Join

/-- Counts, steps that drop rows and joins test for null as `IsNull` and `IsNotNull` do,
but for columns of the type `null`, all of whose rows they take as filled, and for join
keys that are made lists of themselves. -/
theorem null_tests_agree (b : Batch) :
    (∀ (e : Expr) (c : Column), e.evaluate b = .ok c →
      ∃ t, Expr.evaluate b (.unary .isNotNull e) = .ok t
        ∧ Expr.evaluate b (.reduce .count e none)
          = .ok (Reduction.oneInt
            (if c.type = .null then c.length else t.cells.countP Cell.isTrue)))
      ∧ (∀ (e : Expr) (c t : Column), e.evaluate b = .ok c →
        Expr.evaluate b (.unary .isNull e) = .ok t →
          (∀ cell ∈ t.cells, cell.isTrue = true) →
            Expr.evaluate b (.reduce .countDistinct e none)
              = .ok (Reduction.oneInt
                (if c.type = .null ∧ c.length ≠ 0 then 1 else 0 : Nat)))
      ∧ (∀ (names : Option (List String)) (cs : List Column), b.Rectangular →
        b.chosen names = .ok cs →
          b.dropNulls names = .ok (b.keep
            ((List.range b.rows).map fun i => cs.all fun c =>
              decide (c.type = .null) || c.passes .isNotNull i)))
      ∧ ∀ (other : Batch) (keys otherKeys : List Expr) (kind : JoinKind) (out : Batch),
          b.join other keys otherKeys kind Rules.rightMark false = .ok out →
            ∃ meet, out = b.joined kind other (Join.nested kind b.rows other.rows meet)
              ∧ ∀ i < b.rows, ∀ j < other.rows, meet i j = true →
                ∀ k ∈ keys.zip otherKeys, ∃ lead key,
                  b.compute b.rows k.1 = .ok lead ∧ other.compute other.rows k.2 = .ok key
                    ∧ (b.passes .isNull k.1 i = true → lead.type = .null)
                    ∧ (other.passes .isNull k.2 j = true →
                      lead.type = .null ∨ Column.wrapped lead.type key.type) := by
  refine ⟨fun e c he => ?_, fun e c t he ht hnull => ?_,
    fun names cs hb hcs => Batch.dropNulls_of_chosen hb hcs,
    fun other keys otherKeys kind out h => ?_⟩
  · refine ⟨.bools (c.isNull.map fun b => some !b), ?_, ?_⟩
    · rw [Expr.evaluate, he]
      rfl
    · rw [Expr.evaluate, he, ← Column.length_filledCells]
      rfl
  · rw [Expr.evaluate, he] at ht
    cases ht
    rw [Expr.evaluate, he]
    refine Column.countDistinct_of_isNull fun cell hcell => ?_
    have htrue := hnull (.bool cell.isNull) (by
      simp only [Column.bools, Column.isNull, List.map_map, List.mem_map]
      exact ⟨cell, hcell, rfl⟩)
    exact htrue
  · rw [Batch.join_eq_joined] at h
    obtain ⟨pairs, hpairs, rfl⟩ := map_eq_ok.1 h
    obtain ⟨meet, rfl, hmeet⟩ := Join.nested_of_pairing hpairs
    exact ⟨meet, rfl, hmeet⟩

/-- In columns of whole numbers every test finds the missing ones. -/
theorem null_tests_agree_marked :
    ∃ (b : Batch) (t : Column) (meet : Nat → Nat → Bool),
      b = ⟨2, [("x", ⟨.int64, [.int 1, .null]⟩), ("y", ⟨.int64, [.null, .null]⟩)]⟩
        ∧ Expr.evaluate b (.unary .isNotNull (.column "x")) = .ok t
        ∧ Expr.evaluate b (.reduce .count (.column "x") none)
          = .ok (Reduction.oneInt (t.cells.countP Cell.isTrue))
        ∧ Expr.evaluate b (.reduce .countDistinct (.column "y") none)
          = .ok (Reduction.oneInt 0)
        ∧ b.dropNulls (some ["x"])
          = .ok ⟨1, [("x", ⟨.int64, [.int 1]⟩), ("y", ⟨.int64, [.null]⟩)]⟩
        ∧ b.join b [.column "x"] [.column "x"] .outer Rules.rightMark false
          = .ok (b.joined .outer b (Join.nested .outer 2 2 meet))
        ∧ ∀ j < 2, meet 1 j = false ∧ meet j 1 = false := by
  obtain ⟨b, hb⟩ : ∃ b : Batch,
    b = ⟨2, [("x", ⟨.int64, [.int 1, .null]⟩), ("y", ⟨.int64, [.null, .null]⟩)]⟩ := ⟨_, rfl⟩
  have hrectangular : b.Rectangular := by
    subst hb
    decide
  have hx : Expr.evaluate b (.column "x") = .ok ⟨.int64, [.int 1, .null]⟩ := by
    subst hb
    rfl
  obtain ⟨out, hout⟩ : ∃ out,
      b.join b [.column "x"] [.column "x"] .outer Rules.rightMark false = .ok out := by
    subst hb
    exact ⟨_, rfl⟩
  obtain ⟨hcount, hdistinct, hdrop, hjoin⟩ := null_tests_agree b
  obtain ⟨t, ht, hcount⟩ := hcount _ _ hx
  obtain ⟨meet, rfl, hmeet⟩ := hjoin b _ _ _ _ hout
  have hrows : b.rows = 2 := by rw [hb]
  have hkey : b.compute b.rows (.column "x") = .ok ⟨.int64, [.int 1, .null]⟩ := by
    rw [Batch.compute, hx, hrows]
    rfl
  have hnull : b.passes .isNull (.column "x") 1 = true :=
    (Batch.passes_of_compute hkey 1).trans rfl
  rw [hrows] at hkey hmeet hout
  refine ⟨b, t, meet, hb, ht, by simpa using hcount, ?_, ?_, hout, fun j hj => ⟨?_, ?_⟩⟩
  · subst hb
    exact hdistinct (.column "y") ⟨.int64, [.null, .null]⟩ _ rfl rfl (by decide)
  · rw [hdrop (some ["x"]) [⟨.int64, [.int 1, .null]⟩] hrectangular (by subst hb; rfl)]
    subst hb
    decide
  · by_contra hmeets
    obtain ⟨lead, key, hlead, -, hleft, -⟩ :=
      hmeet 1 (by decide) j hj (by simpa using hmeets) _ List.mem_cons_self
    obtain rfl := Except.ok.inj (hkey.symm.trans hlead)
    cases hleft hnull
  · by_contra hmeets
    obtain ⟨lead, key, hlead, hkey', -, hright⟩ :=
      hmeet j hj 1 (by decide) (by simpa using hmeets) _ List.mem_cons_self
    obtain rfl := Except.ok.inj (hkey.symm.trans hlead)
    rcases hright hnull with hright | ⟨hright, -⟩ <;> cases hright

/-- In a column of nulls `IsNotNull` holds nowhere, but its rows are counted, are kept and
are joined, and so are missing keys that are made lists. -/
theorem null_tests_disagree :
    ∃ b wrapped : Batch, b = ⟨1, [("n", ⟨.null, [.null]⟩)]⟩
      ∧ wrapped = ⟨1, [("l", ⟨.list .int64, [.list [.null]]⟩), ("x", ⟨.int64, [.null]⟩)]⟩
      ∧ Expr.evaluate b (.unary .isNotNull (.column "n")) = .ok ⟨.boolean, [.bool false]⟩
      ∧ Expr.evaluate b (.reduce .count (.column "n") none) = .ok (Reduction.oneInt 1)
      ∧ Expr.evaluate b (.reduce .countDistinct (.column "n") none)
        = .ok (Reduction.oneInt 1)
      ∧ b.dropNulls none = .ok b
      ∧ b.join b [.column "n"] [.column "n"] .semi Rules.rightMark false = .ok b
      ∧ Expr.evaluate wrapped (.unary .isNull (.column "x")) = .ok ⟨.boolean, [.bool true]⟩
      ∧ wrapped.join wrapped [.column "l"] [.column "x"] .semi Rules.rightMark false
        = .ok wrapped := by
  refine ⟨_, _, rfl, rfl, ?_, ?_, ?_, ?_, ?_, ?_, ?_⟩ <;> decide

end TypedQuery
