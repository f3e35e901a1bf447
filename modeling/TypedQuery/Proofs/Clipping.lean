import TypedQuery.Proofs.Binary64.Whole
import TypedQuery.Proofs.Engine.Operands
import TypedQuery.Proofs.FirstMatch
import TypedQuery.Proofs.HorizontalExtremes

/-!
# Numbers within bounds

A number is compared with its bounds in the type that is wide enough for all of them, the
upper one first (`Cell.capped`, `Cell.raised`). There the result is within the bounds, and
a number that was within them stays what it is (`NumberOf.clamps`). Then it is brought back
to the type of the argument, which may round a bound away or have no room for it.

The upper bound is applied before it is known that the lower one needs a wider type.
Widening keeps numbers in order, so what the upper bound makes of a number is the same in
the wider type (`NumberOf.widened_capped`).
-/

namespace TypedQuery

/-! ## Numbers in their types -/

/-- The wider one of two numeric types. -/
def Physical.wider (s t : Physical) : Physical :=
  if s = .float64 ∨ t = .float64 then .float64 else if s = .int64 ∨ t = .int64
    then .int64 else s

theorem Physical.commonType_eq {s t : Physical} (hs : s.isNumeric = true)
    (ht : t.isNumeric = true) :
    Column.commonType s t = .ok (s.wider t) := by
  cases s <;> cases hs <;> cases t <;> cases ht <;> rfl

theorem Physical.wider_comm {s t : Physical} (hs : s.isNumeric = true)
    (ht : t.isNumeric = true) : s.wider t = t.wider s := by
  cases s <;> cases hs <;> cases t <;> cases ht <;> rfl

theorem Physical.wider_self (t : Physical) : t.wider t = t := by
  cases t <;> rfl

theorem Physical.wider_assoc {s t u : Physical} (hs : s.isNumeric = true)
    (ht : t.isNumeric = true) (hu : u.isNumeric = true) :
    (s.wider t).wider u = s.wider (t.wider u) := by
  cases s <;> cases hs <;> cases t <;> cases ht <;> cases u <;> cases hu <;> rfl

theorem Physical.isNumeric_wider {s t : Physical} (hs : s.isNumeric = true)
    (ht : t.isNumeric = true) :
    (s.wider t).isNumeric = true := by
  cases s <;> cases hs <;> cases t <;> cases ht <;> rfl

namespace Value

/-- Whole numbers and doubles. -/
def isNumber : Value → Bool
  | .int64 _ | .float64 _ => true
  | _ => false

/-- The type in which a value is stored. -/
def physical (v : Value) : Physical := .ofLogical v.dataType

/-- The cell in which a number is stored. -/
def numberCell : Value → Cell
  | .int64 n => .int n.toInt
  | .float64 x => .float x
  | _ => .null

end Value

namespace Cell

/-- A number in a type that is as wide or wider. -/
def widened : Physical → Cell → Cell
  | .float64, .int n => .float (.ofFloat (Binary64.ofInt n))
  | _, x => x

/-- The upper bound if it is less. -/
def capped (upper : Option Cell) (x : Cell) : Cell := upper.elim x fun u => better .less u x

/-- The lower bound if it is greater. -/
def raised (lower : Option Cell) (x : Cell) : Cell :=
  lower.elim x fun l => better .greater l x

/-- Where a number of some type stands among those of its type. -/
def position : Cell → Int
  | .int n => n
  | .float x => x.key
  | _ => 0

/-- A number of the type. -/
structure NumberOf (t : Physical) (x : Cell) : Prop where
  numeric : t.isNumeric = true
  fits : x.fits t = true
  filled : x.isNull = false

variable {s t : Physical} {x y : Cell} {op : Column.Comparison}

theorem NumberOf.cases (h : NumberOf t x) :
    ((t = .int32 ∨ t = .int64) ∧ ∃ n, x = .int n) ∨ (t = .float64 ∧ ∃ d, x = .float d) := by
  obtain ⟨hnumeric, hfits, hfilled⟩ := h
  cases t <;> cases hnumeric <;> cases x <;> cases hfits <;> cases hfilled
  · exact .inl ⟨.inl rfl, _, rfl⟩
  · exact .inl ⟨.inr rfl, _, rfl⟩
  · exact .inr ⟨rfl, _, rfl⟩

theorem NumberOf.order_eq (hx : NumberOf t x) (hy : NumberOf t y) :
    order true x y = compare x.position y.position := by
  rcases hx.cases with ⟨ht, m, rfl⟩ | ⟨rfl, m, rfl⟩
  · rcases hy.cases with ⟨-, n, rfl⟩ | ⟨hfloat, -⟩
    · rw [order]
      rfl
    · rcases ht with rfl | rfl <;> cases hfloat
  · rcases hy.cases with ⟨hint, -⟩ | ⟨-, n, rfl⟩
    · rcases hint with hint | hint <;> cases hint
    · rw [order]
      rfl

theorem NumberOf.eq_of_position (hx : NumberOf t x) (hy : NumberOf t y)
    (h : x.position = y.position) : x = y := by
  rcases hx.cases with ⟨ht, m, rfl⟩ | ⟨rfl, d, rfl⟩
  · rcases hy.cases with ⟨-, n, rfl⟩ | ⟨hfloat, -⟩
    · exact congrArg int h
    · rcases ht with rfl | rfl <;> cases hfloat
  · rcases hy.cases with ⟨hint, -⟩ | ⟨-, e, rfl⟩
    · rcases hint with hint | hint <;> cases hint
    · exact congrArg float (Double.key_inj.1 h)

theorem NumberOf.better_less (hx : NumberOf t x) (hy : NumberOf t y) :
    better .less x y = if x.position < y.position then x else y := by
  have hless : (Column.Comparison.less.holds (order true x y) = true)
      ↔ x.position < y.position := by
    rw [hx.order_eq hy, Column.Comparison.holds, decide_eq_true_iff, compare_lt_iff_lt]
  simp [better, hx.filled, hy.filled, hless]

theorem NumberOf.better_greater (hx : NumberOf t x) (hy : NumberOf t y) :
    better .greater x y = if y.position < x.position then x else y := by
  have hgreater : (Column.Comparison.greater.holds (order true x y) = true)
      ↔ y.position < x.position := by
    rw [hx.order_eq hy, Column.Comparison.holds, decide_eq_true_iff, compare_gt_iff_gt]
  simp [better, hx.filled, hy.filled, hgreater]

/-! ## Wider types -/

theorem NumberOf.widened (h : NumberOf s x) (ht : t.isNumeric = true) :
    NumberOf (s.wider t) (x.widened (s.wider t)) := by
  rcases h.cases with ⟨rfl | rfl, n, rfl⟩ | ⟨rfl, d, rfl⟩ <;> cases t <;> cases ht
    <;> exact ⟨rfl, rfl, rfl⟩

theorem NumberOf.widened_self (h : NumberOf t x) : x.widened t = x := by
  rcases h.cases with ⟨rfl | rfl, n, rfl⟩ | ⟨rfl, d, rfl⟩ <;> rfl

theorem NumberOf.converts (h : NumberOf s x) (ht : t.isNumeric = true) :
    Converts s (s.wider t) x (x.widened (s.wider t)) := by
  rcases h.cases with ⟨rfl | rfl, n, rfl⟩ | ⟨rfl, d, rfl⟩ <;> cases t <;> cases ht <;>
    first | exact .self _ _ | (rw [Converts, if_neg (by decide)]; rfl)

theorem NumberOf.widened_right (h : NumberOf t y) (hs : s.isNumeric = true) :
    NumberOf (s.wider t) (y.widened (s.wider t)) := by
  rw [Physical.wider_comm hs h.numeric]
  exact h.widened hs

theorem NumberOf.converts_right (h : NumberOf t y) (hs : s.isNumeric = true) :
    Converts t (s.wider t) y (y.widened (s.wider t)) := by
  rw [Physical.wider_comm hs h.numeric]
  exact h.converts hs

/-- What has been widened to a type can be widened further. -/
theorem widened_widened (hst : s = .float64 → t = .float64) (x : Cell) :
    (x.widened s).widened t = x.widened t := by
  by_cases hs : s = .float64
  · rw [hs, hst hs]
    cases x <;> rfl
  · have hsame : x.widened s = x := by
      cases s <;> first | rfl | exact absurd rfl hs
    rw [hsame]

/-- Numbers stay in order, but two of them may become the same. -/
theorem NumberOf.position_mono (hx : NumberOf s x) (hy : NumberOf s y)
    (ht : t.isNumeric = true) (h : x.position ≤ y.position) :
    (x.widened (s.wider t)).position ≤ (y.widened (s.wider t)).position := by
  rcases hx.cases with ⟨hs, m, rfl⟩ | ⟨rfl, d, rfl⟩
  · rcases hy.cases with ⟨-, n, rfl⟩ | ⟨hfloat, -⟩
    · have hfloats := Binary64.key_ofInt_mono h
      rcases hs with rfl | rfl <;> cases t <;> cases ht <;> first | exact h | exact hfloats
    · rcases hs with rfl | rfl <;> cases hfloat
  · rcases hy.cases with ⟨hint, -⟩ | ⟨-, e, rfl⟩
    · rcases hint with hint | hint <;> cases hint
    · cases t <;> cases ht <;> exact h

/-- The better one of two numbers stays the better one in a wider type, where both may
be rounded to the same. -/
theorem NumberOf.widened_better (hop : op = .less ∨ op = .greater) (hx : NumberOf s x)
    (hy : NumberOf s y) (ht : t.isNumeric = true) : (Cell.better op x y).widened (s.wider t)
      = Cell.better op (x.widened (s.wider t)) (y.widened (s.wider t)) := by
  have hx' := hx.widened ht
  have hy' := hy.widened ht
  have hle := hx.position_mono hy ht
  have hge := hy.position_mono hx ht
  have hsame := hx'.eq_of_position hy'
  -- If the better one is no longer better in the wider type, then both have
  -- become the same there.
  rcases hop with rfl | rfl
  · rw [hx.better_less hy, hx'.better_less hy']
    split
    · next hlt =>
        split
        · rfl
        · exact hsame (by omega)
    · next hnot => rw [if_neg (by omega)]
  · rw [hx.better_greater hy, hx'.better_greater hy']
    split
    · next hlt =>
        split
        · rfl
        · exact hsame (by omega)
    · next hnot => rw [if_neg (by omega)]

/-! ## Within bounds -/

/-- The number is not below the lower bound, nor above the upper one unless that is below
the lower one, and it is the number itself if that is within the bounds. -/
structure Clamps (lower upper : Option Cell) (x v : Cell) : Prop where
  least : ∀ l ∈ lower, (order true l v).isLE = true
  greatest : ∀ u ∈ upper, (∀ l ∈ lower, (order true l u).isLE = true) →
    (order true v u).isLE = true
  kept : (∀ l ∈ lower, (order true l x).isLE = true) →
    (∀ u ∈ upper, (order true x u).isLE = true) → v = x

theorem NumberOf.isLE_order (hx : NumberOf t x) (hy : NumberOf t y) :
    (order true x y).isLE = true ↔ x.position ≤ y.position := by
  rw [hx.order_eq hy, Std.isLE_compare]

theorem NumberOf.capped {upper : Option Cell} (hu : ∀ u ∈ upper, NumberOf t u)
    (hx : NumberOf t x) :
    NumberOf t (x.capped upper) ∧ (∀ u ∈ upper, (x.capped upper).position ≤ u.position)
      ∧ ((∀ u ∈ upper, x.position ≤ u.position) → x.capped upper = x) := by
  cases upper with
  | none => exact ⟨hx, nofun, fun _ => rfl⟩
  | some u =>
      have hnumber := hu u rfl
      have hcapped : x.capped (some u) = if u.position < x.position then u else x :=
        hnumber.better_less hx
      simp only [Option.mem_some_iff, forall_eq', hcapped]
      refine ⟨?_, ?_, fun hle => if_neg (by omega)⟩
      · split
        · exact hnumber
        · exact hx
      · split <;> omega

theorem NumberOf.raised {lower : Option Cell} (hl : ∀ l ∈ lower, NumberOf t l)
    (hx : NumberOf t x) :
    NumberOf t (x.raised lower) ∧ (∀ l ∈ lower, l.position ≤ (x.raised lower).position)
      ∧ (x.raised lower = x ∨ x.raised lower ∈ lower)
      ∧ ((∀ l ∈ lower, l.position ≤ x.position) → x.raised lower = x) := by
  cases lower with
  | none => exact ⟨hx, nofun, .inl rfl, fun _ => rfl⟩
  | some l =>
      have hnumber := hl l rfl
      have hraised : x.raised (some l) = if x.position < l.position then l else x :=
        hnumber.better_greater hx
      simp only [Option.mem_some_iff, forall_eq', hraised]
      refine ⟨?_, ?_, ?_, fun hle => if_neg (by omega)⟩
      · split
        · exact hnumber
        · exact hx
      · split <;> omega
      · split
        · exact .inr rfl
        · exact .inl rfl

/-- The bounds are kept by applying the upper one first. -/
theorem NumberOf.clamps {lower upper : Option Cell} (hl : ∀ l ∈ lower, NumberOf t l)
    (hu : ∀ u ∈ upper, NumberOf t u) (hx : NumberOf t x) :
    NumberOf t ((x.capped upper).raised lower)
      ∧ Clamps lower upper x ((x.capped upper).raised lower) := by
  obtain ⟨hcapped, hcap, hbelow⟩ := hx.capped hu
  obtain ⟨hraised, hraise, hsource, habove⟩ := hcapped.raised hl
  refine ⟨hraised, fun l hlower => ?_, fun u hupper hle => ?_, fun hlower hupper => ?_⟩
  · exact ((hl l hlower).isLE_order hraised).2 (hraise l hlower)
  · rcases hsource with heq | hmem
    · rw [heq]
      exact (hcapped.isLE_order (hu u hupper)).2 (hcap u hupper)
    · exact hle _ hmem
  · have heq := hbelow fun u hmem => (hx.isLE_order (hu u hmem)).1 (hupper u hmem)
    rw [heq] at habove ⊢
    exact habove fun l hmem => ((hl l hmem).isLE_order hx).1 (hlower l hmem)

end Cell

/-! ## Steps -/

section

open Column

variable {b : Batch} {e : Expr} {v : Value} {c out : Column} {op op' : Comparison}

theorem Value.numberOf (hv : v.isNumber = true) : v.numberCell.NumberOf v.physical := by
  cases v <;> cases hv <;> exact ⟨rfl, rfl, rfl⟩

theorem Expr.number_eq_ok (hv : v.isNumber = true)
    (h : (Expr.constant v).evaluate b = .ok c) :
    c.type = v.physical ∧ c.Typed ∧ ∀ {rows i : Nat}, c.Spans rows → i < rows →
      c.row i = v.numberCell := by
  have hconstant : (Expr.constant v).evaluate b
      = .ok (.constant v.physical v.numberCell b.rows) := by
    cases v <;> cases hv <;> rfl
  obtain rfl := Except.ok.inj (h.symm.trans hconstant)
  exact ⟨rfl, typed_constant (Value.numberOf hv).fits _,
    fun hspan hi => List.eq_of_mem_replicate (row_mem hspan hi)⟩

theorem Cell.boolContent_of_bool? {cell : Cell} {p : Bool} (h : cell.bool? = some p) :
    cell.boolContent = p := by
  cases cell <;> cases h
  rfl

/-- What a condition compares is both numbers in the type that is wide enough for them. -/
theorem Column.boolContent_compared {d p : Column} {rows i : Nat}
    (h : BinaryOp.apply (.compare op) c d = .ok p) (hspan : p.Spans rows) (hi : i < rows)
    (hx : (c.row i).NumberOf c.type) (hy : (d.row i).NumberOf d.type) :
    (p.row i).boolContent
      = op.holds (Cell.order true ((c.row i).widened (c.type.wider d.type))
      ((d.row i).widened (c.type.wider d.type))) := by
  have hspans : ∀ k ∈ [c, d], k.Spans p.length := spans_of_covers (covers_binary _ c d p h)
  obtain ⟨j, hj, hrow, hsame⟩ := exists_row hspan hi hspans
  obtain ⟨t, x, y, ht, hcx, hdy, hknown⟩ := row_compared h hj
  rw [Physical.commonType_eq hx.numeric hy.numeric] at ht
  obtain rfl := Except.ok.inj ht
  rw [hsame c (by simp)] at hcx
  rw [hsame d (by simp)] at hdy
  obtain rfl := hcx.unique (hx.converts hy.numeric)
  obtain rfl := hdy.unique (hy.converts_right hx.numeric)
  rw [← hrow]
  refine Cell.boolContent_of_bool? (hknown.trans ?_)
  rw [Comparison.known, (hx.widened hy.numeric).filled, (hy.widened_right hx.numeric).filled]
  rfl

/-- A number of a column, beside a bound that takes its place where it compares so. -/
theorem Column.row_bounded
    (hop : ∀ x y, op.holds (Cell.order true x y) = op'.holds (Cell.order true y x))
    (hv : v.isNumber = true) (he : e.evaluate b = .ok c) (hc : c.Typed)
    (hnumeric : c.type.isNumeric = true)
    (h : (Expr.choose (.binary e (.compare op) (.constant v)) (.constant v) e).evaluate b
      = .ok out) :
    out.type = c.type.wider v.physical ∧ out.Typed ∧ c.Spans out.length
      ∧ ∀ {rows i : Nat}, out.Spans rows → i < rows → (c.row i).isNull = false →
        out.row i = Cell.better op' (v.numberCell.widened out.type)
          ((c.row i).widened out.type) := by
  obtain ⟨p, d, c', hp, hd, hc', hpspan, htype, hcovers, htyped, hrows⟩ :=
    Expr.choose_eq_ok h
  obtain rfl := Except.ok.inj (he.symm.trans hc')
  have hcompare : BinaryOp.apply (.compare op) c d = .ok p := by
    rw [Expr.evaluate, he, hd] at hp
    exact hp
  obtain ⟨hdtype, hdtyped, hdrow⟩ := Expr.number_eq_ok hv hd
  have hbound := Value.numberOf hv
  have hout : out.type = c.type.wider v.physical := by
    rw [hdtype, Physical.commonType_eq hbound.numeric hnumeric,
      Physical.wider_comm hbound.numeric hnumeric] at htype
    exact (Except.ok.inj htype).symm
  obtain ⟨hheight, hdspan, hcspan⟩ : (b.rows = out.length ∨ b.rows = 1) ∧ d.Spans out.length
      ∧ c.Spans out.length := by
    simpa [Spans] using hcovers.2
  have hspans : ∀ k ∈ [p, d, c], k.Spans out.length := by
    simp only [List.forall_mem_cons, List.not_mem_nil, false_imp_iff, implies_true, and_true]
    refine ⟨?_, hdspan, hcspan⟩
    unfold Spans at *
    omega
  refine ⟨hout, htyped hdtyped hc, hcspan, fun {rows i} hspan hi hfilled => ?_⟩
  obtain ⟨j, hj, hrow, hsame⟩ := exists_row hspan hi hspans
  rw [← hsame c (by simp)] at hfilled ⊢
  rw [← hrow]
  have hx : (c.row j).NumberOf c.type := ⟨hnumeric, hc _ (row_mem hcspan hj), hfilled⟩
  have hy : (d.row j).NumberOf d.type := by
    rw [hdrow hdspan hj, hdtype]
    exact hbound
  have hcondition := boolContent_compared hcompare (hspans p (by simp)) hj hx hy
  obtain ⟨y, x, hdy, hcx, hchosen⟩ := hrows j hj
  have hwidest : c.type.wider d.type = out.type := by rw [hdtype, hout]
  rw [← hwidest] at hdy hcx ⊢
  obtain rfl := hdy.unique (hy.converts_right hnumeric)
  obtain rfl := hcx.unique (hx.converts hy.numeric)
  rw [hchosen, hcondition, hop, ← hdrow hdspan hj, Cell.better,
    (hy.widened_right hnumeric).filled, (hx.widened hy.numeric).filled]
  rfl

end

/-! ## Both bounds -/

/-- The type in which a number of a type is compared with a bound. -/
def Physical.withBound (t : Physical) (bound : Option Value) : Physical :=
  bound.elim t fun v => t.wider v.physical

/-- A bound in a type. -/
def Value.boundIn (t : Physical) (bound : Option Value) : Option Cell :=
  bound.map fun v => v.numberCell.widened t

/-- A number in a field as a bound, or nothing; a null counts as left out. -/
def Node.BoundedBy (n : Node) (field : String) : Option Value → Prop
  | none => n.optionalLiteral "engine" field = .ok none
    ∨ n.optionalLiteral "engine" field = .ok (some .null)
  | some v => n.optionalLiteral "engine" field = .ok (some v) ∧ v.isNumber = true

theorem Node.BoundedBy.isNumber {n : Node} {field : String} {bound : Option Value}
    (h : n.BoundedBy field bound) :
    ∀ v ∈ bound, v.isNumber = true := by
  rintro v rfl
  exact h.2

namespace Engine

variable {clock : Clock} {n : Node} {arg : Expr} {lower upper : Option Value} {t : DataType}
    {field : String}

theorem constant?_eq {bound : Option Value} (h : n.BoundedBy field bound) :
    constant? n field = .ok (bound.map .constant) := by
  cases bound with
  | none =>
      rw [constant?]
      rcases h with h | h <;> rw [show n.optionalLiteral targetName field = _ from h] <;> rfl
  | some v =>
      obtain ⟨h, hv⟩ := h
      rw [constant?, show n.optionalLiteral targetName field = _ from h]
      cases v <;> cases hv <;> rfl

/-- The upper bound is applied first, and the result gets a type. -/
def clip (arg : Expr) (lower upper : Option Value) (t : DataType) : Expr :=
  .cast (atLeast (atMost arg (upper.map .constant)) (lower.map .constant)) t

theorem compiled_clip (h : n.Built) (hkind : n.kind = .clip)
    (harg : Operand clock n "arg" arg) (ht : n.outputType = .ok t)
    (hlower : n.BoundedBy "lower" lower) (hupper : n.BoundedBy "upper" upper)
    (hgiven : lower ≠ none ∨ upper ≠ none) :
    Compiled clock n (clip arg lower upper t) := by
  have hresolve : rules.resolve n.kind = .ok (.clip, clipRule) := resolve_of_kind hkind rfl
  have hnone :
      ((lower.map Expr.constant).isNone && (upper.map Expr.constant).isNone) = false := by
    cases lower <;> cases upper <;> simp at hgiven ⊢
  refine compiled_of_run h hresolve ?_
  rw [Emission.run_bind_of_ok (run_expr harg _), constant?_eq hlower,
    Emission.run_bind_of_ok (Emission.run_lift _ _), constant?_eq hupper,
    Emission.run_bind_of_ok (Emission.run_lift _ _), if_neg (by rw [hnone]; nofun), ht]
  rfl

end Engine

/-! ## Rows of clips -/

section

open Column

variable {b : Batch} {e : Expr} {c out : Column} {s t : Physical}
    {bound lower upper : Option Value} {op op' : Comparison}

/-- The type with a bound is wide enough for what the type is wide enough for, and for the
bound. -/
theorem Physical.wider_withBound (ht : t.isNumeric = true)
    (hbound : ∀ v ∈ bound, v.isNumber = true) :
    (t.withBound bound).isNumeric = true
      ∧ (∀ s : Physical, s.isNumeric = true → s.wider t = t →
        s.wider (t.withBound bound) = t.withBound bound)
      ∧ ∀ v ∈ bound, v.physical.wider (t.withBound bound) = t.withBound bound := by
  cases bound with
  | none => exact ⟨ht, fun _ _ h => h, nofun⟩
  | some v =>
      have hv := (Value.numberOf (hbound v rfl)).numeric
      refine ⟨isNumeric_wider ht hv, fun s hs h => ?_, ?_⟩
      · show s.wider (t.wider v.physical) = t.wider v.physical
        rw [← wider_assoc hs ht hv, h]
      · rintro _ ⟨⟩
        show v.physical.wider (t.wider v.physical) = t.wider v.physical
        rw [wider_comm hv (isNumeric_wider ht hv), wider_assoc ht hv hv, wider_self]

/-- A number of a column, beside a bound if there is one. -/
theorem Column.row_beside
    (hop : ∀ x y, op.holds (Cell.order true x y) = op'.holds (Cell.order true y x))
    (hbound : ∀ v ∈ bound, v.isNumber = true) (he : e.evaluate b = .ok c) (hc : c.Typed)
    (hnumeric : c.type.isNumeric = true)
    (h : (bound.elim e fun v => .choose (.binary e (.compare op) (.constant v))
      (.constant v) e).evaluate b = .ok out) :
    out.type = c.type.withBound bound ∧ out.Typed ∧ c.Spans out.length
      ∧ ∀ {rows i : Nat}, out.Spans rows → i < rows → (c.row i).isNull = false →
        out.row i = (Value.boundIn out.type bound).elim ((c.row i).widened out.type) fun k =>
          Cell.better op' k ((c.row i).widened out.type) := by
  cases bound with
  | none =>
      obtain rfl := Except.ok.inj (he.symm.trans h)
      refine ⟨rfl, hc, .inl rfl, fun hspan hi hfilled => ?_⟩
      have hnumber : (c.row _).NumberOf c.type :=
        ⟨hnumeric, hc _ (row_mem hspan hi), hfilled⟩
      exact hnumber.widened_self.symm
  | some v => exact row_bounded hop (hbound v rfl) he hc hnumeric h

theorem Cell.holds_swap (x y : Cell) :
    Comparison.greater.holds (order true x y) = Comparison.less.holds (order true y x) := by
  rw [order_swap true x y]
  cases order true x y <;> rfl

theorem Column.row_atMost (hbound : ∀ v ∈ bound, v.isNumber = true)
    (he : e.evaluate b = .ok c) (hc : c.Typed) (hnumeric : c.type.isNumeric = true)
    (h : (Engine.atMost e (bound.map .constant)).evaluate b = .ok out) :
    out.type = c.type.withBound bound ∧ out.Typed ∧ c.Spans out.length
      ∧ ∀ {rows i : Nat}, out.Spans rows → i < rows → (c.row i).isNull = false →
        out.row i = ((c.row i).widened out.type).capped (Value.boundIn out.type bound) := by
  refine row_beside Cell.holds_swap hbound he hc hnumeric ?_
  cases bound <;> exact h

theorem Column.row_atLeast (hbound : ∀ v ∈ bound, v.isNumber = true)
    (he : e.evaluate b = .ok c) (hc : c.Typed) (hnumeric : c.type.isNumeric = true)
    (h : (Engine.atLeast e (bound.map .constant)).evaluate b = .ok out) :
    out.type = c.type.withBound bound ∧ out.Typed ∧ c.Spans out.length
      ∧ ∀ {rows i : Nat}, out.Spans rows → i < rows → (c.row i).isNull = false →
        out.row i = ((c.row i).widened out.type).raised (Value.boundIn out.type bound) := by
  refine row_beside (fun x y => (Cell.holds_swap y x).symm) hbound he hc hnumeric ?_
  cases bound <;> exact h

theorem Value.numberOf_boundIn (ht : t.isNumeric = true)
    (hbound : ∀ v ∈ bound, v.isNumber = true) (hle : ∀ v ∈ bound, v.physical.wider t = t) :
    ∀ k ∈ boundIn t bound, k.NumberOf t := by
  intro k hk
  obtain ⟨v, hv, rfl⟩ := Option.mem_map.1 hk
  have hnumber := (numberOf (hbound v hv)).widened ht
  rwa [hle v hv] at hnumber

/-- The type of a number with both bounds is wide enough for all of them. -/
theorem Physical.wider_withBounds (ht : t.isNumeric = true)
    (hlower : ∀ v ∈ lower, v.isNumber = true) (hupper : ∀ v ∈ upper, v.isNumber = true)
    {common : Physical} (hcommon : common = (t.withBound upper).withBound lower) :
    common.isNumeric = true ∧ t.wider common = common
      ∧ (t.withBound upper).wider common = common
      ∧ (∀ k ∈ Value.boundIn common lower, k.NumberOf common)
        ∧ ∀ k ∈ Value.boundIn common upper, k.NumberOf common := by
  subst hcommon
  obtain ⟨hnumeric, hwider, hwidest⟩ := wider_withBound ht hupper
  obtain ⟨hnumeric', hwider', hwidest'⟩ := wider_withBound hnumeric hlower
  exact ⟨hnumeric', hwider' _ ht (hwider _ ht (wider_self _)),
    hwider' _ hnumeric (wider_self _), Value.numberOf_boundIn hnumeric' hlower hwidest',
    Value.numberOf_boundIn hnumeric' hupper fun v hv =>
      hwider' _ (Value.numberOf (hupper v hv)).numeric (hwidest v hv)⟩

/-- What the upper bound makes of a number is the same in a wider type. -/
theorem Cell.NumberOf.widened_capped {x : Cell} (hx : x.NumberOf s)
    (hbound : ∀ v ∈ bound, v.isNumber = true) (ht : t.isNumeric = true)
    (hle : (s.withBound bound).wider t = t) :
    ((x.widened (s.withBound bound)).capped
      (Value.boundIn (s.withBound bound) bound)).widened t
      = (x.widened t).capped (Value.boundIn t bound) := by
  obtain ⟨hnumeric, -, -⟩ := Physical.wider_withBound hx.numeric hbound
  have hfloat : s.withBound bound = .float64 → t = .float64 := by
    intro hfloat
    rw [hfloat] at hle
    cases t <;> cases ht <;> first | rfl | cases hle
  cases bound with
  | none => exact Cell.widened_widened hfloat x
  | some v =>
      have hv := Value.numberOf (hbound v rfl)
      have hbetter :=
        (hv.widened_right hx.numeric).widened_better (.inl rfl) (hx.widened hv.numeric) ht
      have hfloat : s.wider v.physical = .float64 → t = .float64 := hfloat
      rw [show (s.wider v.physical).wider t = t from hle, Cell.widened_widened hfloat,
        Cell.widened_widened hfloat] at hbetter
      exact hbetter

/-- A number of a column, kept within its bounds in the type that is wide
enough for all of them. -/
theorem Column.row_clip (hlower : ∀ v ∈ lower, v.isNumber = true)
    (hupper : ∀ v ∈ upper, v.isNumber = true) (he : e.evaluate b = .ok c) (hc : c.Typed)
    (hnumeric : c.type.isNumeric = true)
    (h : (Engine.atLeast (Engine.atMost e (upper.map .constant))
      (lower.map .constant)).evaluate b = .ok out) :
    out.type = (c.type.withBound upper).withBound lower
      ∧ ∀ i < out.length, (c.row i).isNull = false →
      (c.row i).NumberOf c.type
        ∧ out.row i = (((c.row i).widened out.type).capped
          (Value.boundIn out.type upper)).raised
          (Value.boundIn out.type lower) := by
  obtain ⟨capped, hcapped⟩ : ∃ capped,
      (Engine.atMost e (upper.map .constant)).evaluate b = .ok capped := by
    cases lower with
    | none => exact ⟨out, h⟩
    | some l =>
        obtain ⟨-, -, capped, -, -, hcapped, -⟩ := Expr.choose_eq_ok h
        exact ⟨capped, hcapped⟩
  obtain ⟨hctype, hctyped, hcspan, hcrow⟩ := row_atMost hupper he hc hnumeric hcapped
  obtain ⟨hcnumeric, hcwider, hcupper⟩ := Physical.wider_withBound hnumeric hupper
  rw [← hctype] at hcnumeric hcwider hcupper
  obtain ⟨htype, -, hspan, hrow⟩ := row_atLeast hlower hcapped hctyped hcnumeric h
  rw [hctype] at htype
  obtain ⟨hwidest, -, hwider, -⟩ := Physical.wider_withBounds hnumeric hlower hupper htype
  refine ⟨htype, fun i hi hfilled => ?_⟩
  have hspans : c.Spans out.length := by
    unfold Spans at *
    omega
  have hx : (c.row i).NumberOf c.type := ⟨hnumeric, hc _ (row_mem hspans hi), hfilled⟩
  have hkept : (capped.row i).NumberOf capped.type := by
    have hnumber := hx.widened hcnumeric
    rw [hcwider _ hnumeric (Physical.wider_self _)] at hnumber
    rw [hcrow hspan hi hfilled]
    exact (hnumber.capped (Value.numberOf_boundIn hcnumeric hupper hcupper)).1
  -- The upper bound was applied in a type of its own, and is now seen in the one that is
  -- wide enough for both.
  have hraised := hrow (.inl rfl) hi hkept.filled
  rw [hcrow hspan hi hfilled, hctype, hx.widened_capped hupper hwidest hwider] at hraised
  exact ⟨hx, hraised⟩

theorem Physical.withBound_eq_float (h : t.withBound bound = .float64) :
    t = .float64 ∨ ∃ v ∈ bound, v.physical = .float64 := by
  cases bound with
  | none => exact .inl h
  | some v =>
      rw [withBound, Option.elim_some, wider] at h
      split at h
      · next hor => exact hor.imp_right fun hv => ⟨v, rfl, hv⟩
      · next hnot =>
          split at h
          · cases h
          · exact .inl h

/-- A number is what it is in the widest type if there are no doubles among whole numbers. -/
theorem Cell.NumberOf.widened_eq {x : Cell} (hx : x.NumberOf s)
    (h : t = .float64 → s = .float64) : x.widened t = x := by
  by_cases ht : t = .float64
  · rw [h ht] at hx
    rw [ht]
    exact hx.widened_self
  · cases t <;> first | rfl | exact absurd rfl ht

/-- A number that is brought to its own type, or from 64 bits to 32. -/
theorem Converts.of_number {x y : Cell} (h : Converts t s x y) (hx : x.NumberOf t)
    (hle : s.wider t = t) (hs : s.isNumeric = true) (hfloat : t = .float64 → s = .float64) :
    y = x ∨ s = .int32 ∧ (∃ k, x = .int k ∧ Instant.fitsInt32 k = false) ∧ y = .null := by
  by_cases hne : t = s
  · subst hne
    exact .inl (h.unique (.self _ _))
  · rw [Converts, if_neg hne] at h
    rcases hx.cases with ⟨rfl | rfl, k, rfl⟩ | ⟨rfl, d, rfl⟩
    · cases s <;> cases hs <;> first | exact absurd rfl hne | cases hle
    · cases s <;> cases hs
      · have hnarrow : y = Cast.toInt32 k := (Except.ok.inj h).symm
        rw [hnarrow, Cast.toInt32, Cast.intIn]
        split
        · exact .inl rfl
        · next hroom => exact .inr ⟨rfl, ⟨k, rfl, by simpa using hroom⟩, rfl⟩
      · exact absurd rfl hne
      · cases hle
    · exact absurd (hfloat rfl).symm hne

end

/-- A number is compared with its bounds in the type that is wide enough for all of them.
There it is kept within the bounds, and then it is brought to the type of the clip. Without
whole numbers among doubles, or doubles among whole numbers, it is within the bounds in its
own type, but for 32 bits that have no room for a bound of 64: then it is null. -/
theorem clipping {clock : Engine.Clock} {n : Node} {arg : Expr} {t : DataType}
    {lower upper : Option Value} (h : n.Built) (hkind : n.kind = .clip)
    (harg : Engine.Operand clock n "arg" arg) (ht : n.outputType = .ok t)
    (hlower : n.BoundedBy "lower" lower) (hupper : n.BoundedBy "upper" upper)
    (hgiven : lower ≠ none ∨ upper ≠ none) :
    Engine.Compiled clock n (Engine.clip arg lower upper t)
      ∧ ∀ (b : Batch) (c out : Column), arg.evaluate b = .ok c →
        c.Typed → c.type.isNumeric = true →
        (Engine.clip arg lower upper t).evaluate b = .ok out →
        ∀ i < out.length, (c.row i).isNull = false →
        (∃ common v, common = (c.type.withBound upper).withBound lower
          ∧ Cell.Clamps (Value.boundIn common lower) (Value.boundIn common upper)
            ((c.row i).widened common) v
          ∧ Converts common (.ofLogical t) v (out.row i))
        ∧ (Physical.ofLogical t = c.type →
          (∀ k ∈ lower, k.physical = .float64 ↔ c.type = .float64) →
          (∀ k ∈ upper, k.physical = .float64 ↔ c.type = .float64) →
          ∃ v, Cell.Clamps (lower.map Value.numberCell) (upper.map Value.numberCell)
            (c.row i) v ∧ v.isNull = false
            ∧ (out.row i = v ∨ c.type = .int32
              ∧ (∃ k, v = .int k ∧ Instant.fitsInt32 k = false) ∧ out.row i = .null)) := by
  refine ⟨Engine.compiled_clip h hkind harg ht hlower hupper hgiven,
    fun b c out hc htyped hnumeric hout i hi hfilled => ?_⟩
  obtain ⟨kept, hkept, hcast⟩ := bind_eq_ok.1 hout
  have hi : i < kept.length := Column.length_cast hcast ▸ hi
  obtain ⟨hcommon, hrows⟩ :=
    Column.row_clip hlower.isNumber hupper.isNumber hc htyped hnumeric hkept
  obtain ⟨hx, hrow⟩ := hrows i hi hfilled
  obtain ⟨hwidest, hwider, -, hl, hu⟩ :=
    Physical.wider_withBounds hnumeric hlower.isNumber hupper.isNumber hcommon
  have hwidened := hx.widened hwidest
  rw [hwider] at hwidened
  obtain ⟨hv, hclamps⟩ := hwidened.clamps hl hu
  have hconverts := Column.row_cast hcast (.inl rfl) hi
  rw [hrow] at hconverts
  refine ⟨⟨_, _, hcommon, hclamps, hconverts⟩, fun hown hlsame husame => ?_⟩
  have hfloat : kept.type = .float64 → c.type = .float64 := by
    rw [hcommon]
    intro h
    rcases Physical.withBound_eq_float h with h | ⟨l, hmem, h⟩
    · rcases Physical.withBound_eq_float h with h | ⟨u, hmem, h⟩
      · exact h
      · exact (husame u hmem).1 h
    · exact (hlsame l hmem).1 h
  have hbounds {bound : Option Value} (hnumbers : ∀ k ∈ bound, k.isNumber = true)
      (hsame : ∀ k ∈ bound, k.physical = .float64 ↔ c.type = .float64) :
      Value.boundIn kept.type bound = bound.map Value.numberCell :=
    Option.map_congr fun k hk => (Value.numberOf (hnumbers k hk)).widened_eq fun h =>
      (hsame k hk).2 (hfloat h)
  -- In a type of its own kind widening changes neither the number nor the bounds.
  rw [hx.widened_eq hfloat, hbounds hlower.isNumber hlsame, hbounds hupper.isNumber husame]
    at hv hclamps hconverts
  rw [hown] at hconverts
  exact ⟨_, hclamps, hv.filled, hconverts.of_number hv hwider hnumeric hfloat⟩

/-- A number below five, one between five and ten, and one above ten. -/
theorem clipping_of_three_numbers :
    ∃ (source x n : Node) (c out : Column),
      Node.databaseTable "t" ⟨[⟨"x", .int64, true⟩]⟩ = .ok source
        ∧ Node.column source "x" = .ok x
        ∧ Node.build .clip [.node x, .node (Node.literal (.int64 5)),
          .node (Node.literal (.int64 10))] [] = .ok n
        ∧ Engine.Compiled ⟨0⟩ n
          (Engine.clip (.column "x") (some (.int64 5)) (some (.int64 10)) .int64)
        ∧ c = ⟨.int64, [.int 3, .int 7, .int 11]⟩ ∧ out = ⟨.int64, [.int 5, .int 7, .int 10]⟩
        ∧ (Engine.clip (.column "x") (some (.int64 5)) (some (.int64 10)) .int64).evaluate
          ⟨3, [("x", c)]⟩ = .ok out
        ∧ ∀ i < 3, Cell.Clamps (some (.int 5)) (some (.int 10)) (c.row i) (out.row i) := by
  obtain ⟨source, x, n, ⟨hsource, hx, hn⟩, hkind, harg, ht, hlower, hupper⟩ :
      ∃ source x n : Node, (Node.databaseTable "t" ⟨[⟨"x", .int64, true⟩]⟩ = .ok source
        ∧ Node.column source "x" = .ok x
        ∧ Node.build .clip [.node x, .node (Node.literal (.int64 5)),
          .node (Node.literal (.int64 10))] [] = .ok n)
        ∧ n.kind = .clip ∧ Engine.Operand ⟨0⟩ n "arg" (.column "x")
        ∧ n.outputType = .ok .int64
        ∧ n.BoundedBy "lower" (some (.int64 5)) ∧ n.BoundedBy "upper" (some (.int64 10)) :=
    ⟨_, _, _, ⟨rfl, rfl, rfl⟩, rfl, ⟨_, rfl, rfl⟩, rfl, ⟨rfl, rfl⟩, ⟨rfl, rfl⟩⟩
  have bn : n.Built := by
    refine .of_build hn (fun k hk => ?_) nofun
    simp only [Arg.nodesOfItems, Arg.nodes, List.singleton_append, List.mem_cons,
      List.not_mem_nil, or_false] at hk
    rcases hk with rfl | rfl | rfl
    · exact Node.built_column (Node.built_databaseTable hsource) hx
    all_goals exact .literal _
  obtain ⟨he, hrows⟩ :=
    clipping bn hkind harg ht hlower hupper (.inl (Option.some_ne_none _))
  have hout : (Engine.clip (.column "x") (some (.int64 5))
    (some (.int64 10)) .int64).evaluate
      ⟨3, [("x", ⟨.int64, [.int 3, .int 7, .int 11]⟩)]⟩
        = .ok ⟨.int64, [.int 5, .int 7, .int 10]⟩ := by
    decide
  refine ⟨source, x, n, _, _, hsource, hx, hn, he, rfl, rfl, hout, fun i hi => ?_⟩
  have hfilled : ((⟨.int64, [.int 3, .int 7, .int 11]⟩ : Column).row i).isNull = false := by
    revert i
    decide
  have htyped : (⟨.int64, [.int 3, .int 7, .int 11]⟩ : Column).Typed :=
    List.forall_mem_cons.2 ⟨rfl, by decide⟩
  obtain ⟨-, hown⟩ := hrows _ _ _ rfl htyped rfl hout i hi hfilled
  obtain ⟨v, hclamps, -, rfl | ⟨hnarrow, -⟩⟩ := hown rfl (by decide) (by decide)
  · exact hclamps
  · cases hnarrow

/-- A whole number below its bound that is no double becomes the double next to it, since
the bound is a double. -/
theorem clipping_of_a_large_number :
    ∃ source x n item q : Node,
      Node.databaseTable "t" ⟨[⟨"x", .int64, true⟩]⟩ = .ok source
        ∧ Node.column source "x" = .ok x
        ∧ Node.build .clip [.node x]
          [("upper", .node (Node.literal (.float64 ⟨0x4341c37937e08000⟩)))] = .ok n
        ∧ Node.rename (.node n) "y" = .ok item
        ∧ Node.build .selection [.node source] [("selections", .seq [.node item])] = .ok q
        ∧ Binary64.truncate? (.ofBits 0x4341c37937e08000) = some 10000000000000000
        ∧ ∀ catalog : Catalog,
          catalog = ⟨[("t", ⟨1, [("x", ⟨.int64, [.int 9007199254740993]⟩)]⟩)], {}⟩ →
          Engine.execute {} ⟨0⟩ q catalog
            = .ok ⟨1, [("y", ⟨.int64, [.int 9007199254740992]⟩)]⟩ := by
  refine ⟨_, _, _, _, _, rfl, rfl, rfl, rfl, rfl, ?_, ?_⟩
  · decide
  · rintro _ rfl
    with_unfolding_all decide

end TypedQuery
