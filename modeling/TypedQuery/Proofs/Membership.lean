import Mathlib.Data.List.Perm.Basic
import TypedQuery.Proofs.Columnar.RowView
import TypedQuery.Proofs.Engine.Operands
import TypedQuery.Proofs.OperandHeights
import TypedQuery.Proofs.OperandTypes
import TypedQuery.Proofs.Plan.Keys

/-!
# Membership and ranges

A test for membership compares the value with one option after the other and joins what is
known of each by `or`; one for a range joins two comparisons by `and`. Both are logic with
an unknown: the test knows its answer as soon as that does not depend on what is unknown.
Since `or` takes what is known in any order (`Member.or`), what the test tells of a row is
a statement about the options without their order, and so the fold over them is described
by a set of options that grows (`tests_evaluateIn`).

Columns of different types are compared in a common type, and a text may tell no date,
instant or number. In the common type it is null then, and the comparison is as
unknown as one with a null.
-/

namespace TypedQuery

/-! ## Rows that cannot be compared -/

/-- Whether a text tells a value of a type that texts are compared in. What is not a
text does so in any case. -/
def Physical.reads : Physical → Cell → Bool
  | .date, .text s => (Time.readDate? s).isSome
  | .timestamp unit, .text s => !(Cast.readTimestamp unit s).isNull
  | .float64, .text s => (Cast.readFloat? s).isSome
  | _, _ => true

/-- Where two types are brought together, a cell becomes null if it is null, or if it is a
text that tells nothing. -/
theorem Converts.isNull_eq {s t u : Physical} {x y : Cell} (h : Converts s t x y)
    (ht : Column.commonType s u = .ok t) (hx : x.fits s = true) :
    y.isNull = (x.isNull || !t.reads x) := by
  by_cases hne : s = t
  · subst hne
    rw [h.unique (.self s x)]
    cases s <;> cases x <;> first | rfl | cases hx
  · cases hnull : x.isNull with
    | true => rw [h.isNull_of_common ht hnull, Bool.true_or]
    | false =>
        have hs : s ≠ .null := by
          rintro rfl
          cases x <;> cases hx
          cases hnull
        have hlist : t.isList = false := by
          rcases Column.commonType_widens ht hne hs with rfl | ⟨-, rfl⟩ | ⟨-, unit, rfl⟩
            | ⟨-, rfl⟩ <;> rfl
        rw [Converts, if_neg hne, Cast.cell_filled hlist hnull, if_neg hne] at h
        rw [Bool.false_or]
        rcases Column.commonType_widens ht hne hs
          with rfl | ⟨rfl, rfl⟩ | ⟨rfl | rfl, unit, rfl⟩ | ⟨rfl, rfl⟩
        · cases x with
          | missing => cases hnull
          | text text =>
              cases h
              show (Cell.ofOption _ (Cast.readFloat? text)).isNull
                = !(Cast.readFloat? text).isSome
              cases Cast.readFloat? text <;> rfl
          | _ => cases h; rfl
        · cases x <;> cases hx <;> cases hnull
          cases h
          rfl
        · cases x <;> cases hx <;> cases hnull
          cases h
          rfl
        · cases x <;> cases hx <;> cases hnull
          cases h
          exact (Bool.not_not _).symm
        · cases x <;> cases hx <;> cases hnull
          next text =>
            cases h
            show (Cell.ofOption _ (Time.readDate? text)).isNull
              = !(Time.readDate? text).isSome
            cases Time.readDate? text <;> rfl

namespace Cell

/-- Of the types that are compared, filled cells have no residues. -/
theorem bare_of_filled {t : Physical} {x : Cell} (hlist : t.isList = false)
    (hx : x.fits t = true) (hnull : x.isNull = false) : x.bare = x := by
  cases x with
  | missing => cases hnull
  | list =>
      cases t <;> cases hx
      cases hlist
  | _ => rfl

end Cell

namespace Column

variable {b : Batch} {c d l r out : Column} {cs ds : List Column} {i j : Nat}
    {k m : Option Bool}

/-- In the row both columns have the same value of their common type. -/
def Equals (l r : Column) (i : Nat) : Prop :=
  ∃ t x, commonType l.type r.type = .ok t ∧ Converts l.type t (l.row i) x
    ∧ Converts r.type t (r.row i) x
    ∧ x.isNull = false

/-- In the row there is no telling how the columns compare: one of them is null, or a text
that tells no value of the type in which they are compared. -/
def Unknown (l r : Column) (i : Nat) : Prop :=
  (l.row i).isNull = true ∨ (r.row i).isNull = true
    ∨ ∃ t, commonType l.type r.type = .ok t
      ∧ (t.reads (l.row i) = false ∨ t.reads (r.row i) = false)

theorem equals_congr (hl : l.row j = l.row i) (hr : r.row j = r.row i) :
    Equals l r j ↔ Equals l r i := by
  rw [Equals, hl, hr, Equals]

theorem unknown_congr (hl : l.row j = l.row i) (hr : r.row j = r.row i) :
    Unknown l r j ↔ Unknown l r i := by
  rw [Unknown, hl, hr, Unknown]

/-- A comparison of a row, with both cells in a type that is compared. -/
theorem compared_eq_ok {op : Comparison} (h : BinaryOp.apply (.compare op) l r = .ok out)
    (hl : l.Typed) (hr : r.Typed) (hi : i < out.length) :
    ∃ t x y, commonType l.type r.type = .ok t ∧ t.isList = false
      ∧ (Converts l.type t (l.row i) x ∧ x.fits t = true
        ∧ x.isNull = ((l.row i).isNull || !t.reads (l.row i)))
      ∧ (Converts r.type t (r.row i) y ∧ y.fits t = true
        ∧ y.isNull = ((r.row i).isNull || !t.reads (r.row i)))
      ∧ (out.row i).bool? = op.known x y := by
  have hspans : ∀ c ∈ [l, r], c.Spans out.length :=
    spans_of_covers (covers_binary _ l r out h)
  have hside {c d : Column} {t u : Physical} (hc : c.Typed) (hspan : c.Spans out.length)
      (ht : commonType c.type u = .ok t)
      (hd : c.cast t = .ok d) : Converts c.type t (c.row i) (d.row i)
        ∧ (d.row i).fits t = true
        ∧ (d.row i).isNull = ((c.row i).isNull || !t.reads (c.row i)) := by
    have hconverts := row_cast hd hspan hi
    obtain ⟨rfl, htyped⟩ := hc.cast t d hd
    have hspan' : d.Spans out.length := by
      rw [Spans, length_cast hd]
      exact hspan
    exact ⟨hconverts, htyped _ (row_mem hspan' hi),
      hconverts.isNull_eq ht (hc _ (row_mem hspan hi))⟩
  obtain ⟨p, hp, h⟩ := bind_eq_ok.1 h
  obtain ⟨t, ht, hpl, hpr⟩ := coerce_eq_ok hp
  have hlist : t.isList = false := by
    rw [← type_cast _ _ _ hpl]
    obtain ⟨_, -, h⟩ := bind_eq_ok.1 h
    split at h
    · cases h
    · next hlist => exact Bool.eq_false_iff.2 hlist
  exact ⟨t, _, _, ht, hlist, hside hl (hspans l (by simp)) ht hpl,
    hside hr (hspans r (by simp)) (commonType_symm ht) hpr, bool?_compare h hi⟩

theorem unknown_iff {op : Comparison} (h : BinaryOp.apply (.compare op) l r = .ok out)
    (hl : l.Typed) (hr : r.Typed) (hi : i < out.length) :
    (out.row i).bool? = none ↔ Unknown l r i := by
  obtain ⟨t, x, y, ht, -, ⟨-, -, hx⟩, ⟨-, -, hy⟩, hout⟩ := compared_eq_ok h hl hr hi
  have hnone : (out.row i).bool? = none ↔ x.isNull = true ∨ y.isNull = true := by
    rw [hout, Comparison.known, ← Bool.or_eq_true]
    split <;> simp_all
  rw [hnone, hx, hy, Unknown, ht]
  simp only [Bool.or_eq_true, Bool.not_eq_true', Except.ok.injEq, exists_eq_left']
  tauto

/-- What a comparison tells of a row. -/
def Told (op : Comparison) (l r : Column) (i : Nat) (known : Option Bool) : Prop :=
  Compared op l r i known ∧ (known = none ↔ Unknown l r i)

theorem row_told {op : Comparison} (h : BinaryOp.apply (.compare op) l r = .ok out)
    (hl : l.Typed) (hr : r.Typed) (hi : i < out.length) : Told op l r i (out.row i).bool? :=
  ⟨row_compared h hi, unknown_iff h hl hr hi⟩

/-- Single rows stand for every row. -/
theorem Told.of_row {op : Comparison} (h : Told op l r j k) (hl : l.row j = l.row i)
    (hr : r.row j = r.row i) :
    Told op l r i k := by
  obtain ⟨hcompared, hunknown⟩ := h
  rw [Compared, hl, hr] at hcompared
  exact ⟨hcompared, hunknown.trans (unknown_congr hl hr)⟩

theorem equals_iff (h : BinaryOp.apply (.compare .equal) l r = .ok out) (hl : l.Typed)
    (hr : r.Typed) (hi : i < out.length) :
    (out.row i).bool? = some true ↔ Equals l r i := by
  obtain ⟨t, x, y, ht, hlist, ⟨hlx, hxfits, -⟩, ⟨hry, hyfits, -⟩, hout⟩ :=
    compared_eq_ok h hl hr hi
  have hequal : (out.row i).bool? = some true ↔ x.isNull = false ∧ x = y := by
    rw [hout, Comparison.known]
    cases hx : x.isNull with
    | true => simp
    | false =>
        cases hy : y.isNull with
        | true =>
            have hne : x ≠ y := by
              rintro rfl
              rw [hx] at hy
              cases hy
            simp [hne]
        | false =>
            have heq := Cell.order_eq_iff hlist hxfits hyfits hx hy
            rw [Cell.bare_of_filled hlist hxfits hx,
              Cell.bare_of_filled hlist hyfits hy] at heq
            simp [Comparison.holds, heq]
  rw [hequal]
  constructor
  · rintro ⟨hfilled, rfl⟩
    exact ⟨t, x, ht, hlx, hry, hfilled⟩
  · rintro ⟨t', z, ht', hlz, hrz, hfilled⟩
    obtain rfl : t = t' := Except.ok.inj (ht.symm.trans ht')
    rw [hlx.unique hlz, hry.unique hrz]
    exact ⟨hfilled, rfl⟩

/-! ## Joining what is known -/

theorem Logic.or_eq_true (k m : Option Bool) : Logic.or.apply k m = some true
    ↔ k = some true ∨ m = some true := by
  rcases k with _ | _ | _ <;> rcases m with _ | _ | _ <;> simp [Logic.apply]

theorem Logic.or_eq_none (k m : Option Bool) :
    Logic.or.apply k m = none ↔ (k ≠ some true ∧ m ≠ some true) ∧ (k = none ∨ m = none) := by
  rcases k with _ | _ | _ <;> rcases m with _ | _ | _ <;> simp [Logic.apply]

theorem Logic.and_eq_true (k m : Option Bool) : Logic.and.apply k m = some true
    ↔ k = some true ∧ m = some true := by
  rcases k with _ | _ | _ <;> rcases m with _ | _ | _ <;> simp [Logic.apply]

theorem Logic.and_eq_false (k m : Option Bool) : Logic.and.apply k m = some false
    ↔ k = some false ∨ m = some false := by
  rcases k with _ | _ | _ <;> rcases m with _ | _ | _ <;> simp [Logic.apply]

/-- What a test for membership tells of a row: that the value is there, if one of
the options equals it. If none does, this is unknown as soon as there is no
telling of one of them. -/
structure Member (c : Column) (cs : List Column) (i : Nat) (known : Option Bool) : Prop where
  holds : known = some true ↔ ∃ d ∈ cs, Equals c d i
  unknown : known = none ↔ (∀ d ∈ cs, ¬Equals c d i) ∧ ∃ d ∈ cs, Unknown c d i

namespace Member

theorem or (h : Member c cs i k) (h' : Member c ds i m) :
    Member c (cs ++ ds) i (Logic.or.apply k m) where
  holds := by
    rw [Logic.or_eq_true, h.holds, h'.holds]
    simp only [List.mem_append, or_and_right, exists_or]
  unknown := by
    rw [Logic.or_eq_none, Ne, h.holds, Ne, h'.holds, h.unknown, h'.unknown]
    simp only [List.mem_append, or_and_right, exists_or, or_imp, forall_and,
      not_exists, not_and]
    exact and_congr_right fun hnone => by rw [and_iff_right hnone.1, and_iff_right hnone.2]

theorem unique (h : Member c cs i k) (h' : Member c ds i m)
    (hmem : ∀ d, d ∈ cs ↔ d ∈ ds) : k = m := by
  have htrue : k = some true ↔ m = some true := by simp only [h.holds, h'.holds, hmem]
  have hnone : k = none ↔ m = none := by simp only [h.unknown, h'.unknown, hmem]
  cases k with
  | none => exact (hnone.1 rfl).symm
  | some k =>
      cases m with
      | none => exact hnone.2 rfl
      | some m => cases k <;> cases m <;> simp at htrue <;> rfl

/-- Single rows stand for every row. -/
theorem of_row (h : Member c cs j k) (hc : c.row j = c.row i)
    (hcs : ∀ d ∈ cs, d.row j = d.row i) : Member c cs i k where
  holds := by
    rw [h.holds]
    exact exists_congr fun d => and_congr_right fun hd => equals_congr hc (hcs d hd)
  unknown := by
    rw [h.unknown]
    refine and_congr (forall_congr' fun d => imp_congr_right fun hd => ?_)
      (exists_congr fun d => and_congr_right fun hd => unknown_congr hc (hcs d hd))
    rw [equals_congr hc (hcs d hd)]

end Member

/-- The column tells of every row whether the value is among the options. -/
structure Tests (c : Column) (cs : List Column) (out : Column) : Prop where
  type : out.type = .boolean
  covers : Covers ((c :: cs).map length) out.length
  rows : ∀ i < out.length, Member c cs i (out.row i).bool?

theorem tests_equal (h : BinaryOp.apply (.compare .equal) c d = .ok out) (hc : c.Typed)
    (hd : d.Typed) : Tests c [d] out where
  type := type_compared .equal c d out h
  covers := covers_binary _ c d out h
  rows i hi := by
    have hequals := equals_iff h hc hd hi
    have hunknown := unknown_iff h hc hd hi
    refine ⟨by simpa using hequals, ?_⟩
    simp only [List.mem_singleton, forall_eq, exists_eq_left, ← hequals, ← hunknown]
    cases (out.row i).bool? <;> simp

/-- Conditions are joined as they are. -/
theorem apply_logic (hl : l.type = .boolean) (hr : r.type = .boolean) (op : Logic) :
    BinaryOp.apply (.logic op) l r = logic op l r := by
  rw [BinaryOp.apply, coerce_self (hl.trans hr.symm)]
  rfl

/-- Conditions can be joined if they can be brought to the height of the taller one. -/
theorem exists_logic_iff (op : Logic) (hl : l.type = .boolean) (hr : r.type = .boolean) :
    (∃ out, logic op l r = .ok out)
      ↔ l.Spans (max l.length r.length) ∧ r.Spans (max l.length r.length) := by
  constructor
  · rintro ⟨out, h⟩
    have hspans : ∀ k ∈ [l, r], k.Spans out.length :=
      spans_of_covers (covers_logic op l r out h)
    rw [length_logic h] at hspans
    exact ⟨hspans l (by simp), hspans r (by simp)⟩
  · rintro ⟨hlspan, hrspan⟩
    obtain ⟨l', hl'⟩ := exists_broadcast hlspan
    obtain ⟨r', hr'⟩ := exists_broadcast hrspan
    have hcondition {c d : Column} {n : Nat} (hc : c.type = .boolean)
      (hd : c.broadcast n = .ok d) :
        d.condition = .ok d.cells := by
      rw [condition, type_broadcast _ _ _ hd, if_pos hc]
    exact ⟨_, bind_eq_ok.2
      ⟨l', hl', bind_eq_ok.2
        ⟨_, hcondition hl hl',
          bind_eq_ok.2 ⟨r', hr', bind_eq_ok.2 ⟨_, hcondition hr hr', rfl⟩⟩⟩⟩⟩

theorem Tests.or (h : Tests c cs l) (h' : Tests c ds r)
    (hout : BinaryOp.apply (.logic .or) l r = .ok out) :
    Tests c (cs ++ ds) out := by
  have hcovers := covers_binary _ l r out hout
  have hheights (k : Nat) : k ∈ (c :: cs).map length ++ (c :: ds).map length
      ↔ k ∈ (c :: (cs ++ ds)).map length := by
    simp only [List.map_cons, List.map_append, List.mem_append, List.mem_cons]
    tauto
  refine ⟨type_connected .or l r out hout,
    (h.covers.two h'.covers hcovers).congr hheights, fun i hi => ?_⟩
  have hspans : ∀ k ∈ [l, r], k.Spans out.length := spans_of_covers hcovers
  rw [apply_logic h.type h'.type] at hout
  have hside {d : Column} {es : List Column} (hd : Tests c es d)
    (hspan : d.Spans out.length) :
      Member c es i (d.row i).bool? := by
    obtain ⟨j, hj, hrow, hrows⟩ := exists_row hspan hi (spans_of_covers hd.covers)
    rw [← hrow]
    exact (hd.rows j hj).of_row (hrows c (by simp)) fun e he => hrows e (by simp [he])
  rw [bool?_logic hout hi]
  exact (hside h (hspans l (by simp))).or (hside h' (hspans r (by simp)))

/-- Conditions are the same data where they are known alike. -/
theorem sameData_of_rows (hl : l.Typed) (hr : r.Typed) (hlt : l.type = .boolean)
    (hrt : r.type = .boolean) (hlength : l.length = r.length)
    (hrows : ∀ i < l.length, (l.row i).bool? = (r.row i).bool?) : l.SameData r := by
  have hbare {x y : Cell} (hx : x.fits .boolean = true) (hy : y.fits .boolean = true)
    (h : x.bool? = y.bool?) :
      x.bare = y.bare := by
    cases x <;> cases hx <;> cases y <;> cases hy <;> cases h <;> rfl
  refine ⟨hlt.trans hrt.symm, List.ext_getElem? fun i => ?_⟩
  rw [List.getElem?_map, List.getElem?_map]
  by_cases hi : i < l.length
  · rw [row_of_length rfl hi, row_of_length hlength.symm hi]
    have hlfits : (l.row i).fits .boolean = true := hlt ▸ hl _ (row_mem (.inl rfl) hi)
    have hrfits : (r.row i).fits .boolean = true :=
      hrt ▸ hr _ (row_mem (.inl hlength.symm) hi)
    exact congrArg some (hbare hlfits hrfits (hrows i hi))
  · have hleft : l.cells.length ≤ i := Nat.le_of_not_lt hi
    have hright : r.cells.length ≤ i :=
      Nat.le_of_not_lt fun hlt => hi (Nat.lt_of_lt_of_eq hlt hlength.symm)
    rw [List.getElem?_eq_none hleft, List.getElem?_eq_none hright]

/-- What a test for a range tells of a row: that the value is outside as soon as one of the
bounds says so, and that it is inside if both do. -/
def Within (c low high : Column) (i : Nat) (known : Option Bool) : Prop :=
  ∃ above below, Told .greaterEqual c low i above ∧ Told .lessEqual c high i below
    ∧ (known = some false ↔ above = some false ∨ below = some false)
    ∧ (known = some true ↔ above = some true ∧ below = some true)

theorem row_within {low high above below : Column}
    (habove : BinaryOp.apply (.compare .greaterEqual) c low = .ok above)
    (hbelow : BinaryOp.apply (.compare .lessEqual) c high = .ok below)
    (h : BinaryOp.apply (.logic .and) above below = .ok out) (hc : c.Typed)
    (hlow : low.Typed) (hhigh : high.Typed) (hi : i < out.length) :
    Within c low high i (out.row i).bool? := by
  have hspans : ∀ k ∈ [above, below], k.Spans out.length :=
    spans_of_covers (covers_binary _ above below out h)
  rw [apply_logic (type_compared .greaterEqual c low above habove)
    (type_compared .lessEqual c high below hbelow)] at h
  have hside {op : Comparison} {d e : Column}
      (he : BinaryOp.apply (.compare op) c d = .ok e) (hd : d.Typed)
      (hspan : e.Spans out.length) : Told op c d i (e.row i).bool? := by
    have hoperands : ∀ k ∈ [c, d], k.Spans e.length :=
      spans_of_covers (covers_binary _ c d e he)
    obtain ⟨j, hj, hrow, hrows⟩ := exists_row hspan hi hoperands
    rw [← hrow]
    exact (row_told he hc hd hj).of_row (hrows c (by simp)) (hrows d (by simp))
  refine ⟨_, _, hside habove hlow (hspans above (by simp)),
    hside hbelow hhigh (hspans below (by simp)), ?_⟩
  rw [bool?_logic h hi]
  exact ⟨Logic.and_eq_false _ _, Logic.and_eq_true _ _⟩

end Column

namespace Expr

open Column

variable {b : Batch} {c out : Column} {cs : List Column} {v : Expr} {options : List Expr}

theorem tests_evaluateIn (hb : b.Typed) (hc : c.Typed) {found : Column}
    (h : Tests c cs found) (hout : evaluateIn b c (some found) options = .ok out) :
    ∃ ds, evaluateList b options = .ok ds ∧ Tests c (cs ++ ds) out := by
  induction options generalizing found cs with
  | nil =>
      cases hout
      exact ⟨[], rfl, by rwa [List.append_nil]⟩
  | cons e rest ih =>
      obtain ⟨d, hd, hout⟩ := bind_eq_ok.1 hout
      obtain ⟨matched, hmatched, hout⟩ := bind_eq_ok.1 hout
      obtain ⟨next, hnext, hout⟩ := bind_eq_ok.1 hout
      obtain ⟨ds, hds, htests⟩ :=
        ih (h.or (tests_equal hmatched hc (typed_evaluate hb e d hd)) hnext) hout
      rw [List.append_assoc] at htests
      exact ⟨d :: ds, bind_eq_ok.2 ⟨d, hd, bind_eq_ok.2 ⟨ds, hds, rfl⟩⟩, htests⟩

theorem isIn_eq_ok (hb : b.Typed) (hne : options ≠ [])
    (h : (isIn v options).evaluate b = .ok out) :
    ∃ c cs, v.evaluate b = .ok c ∧ evaluateList b options = .ok cs ∧ Tests c cs out := by
  obtain ⟨c, hc, h⟩ := bind_eq_ok.1 h
  obtain ⟨e, rest, rfl⟩ := List.exists_cons_of_ne_nil hne
  obtain ⟨d, hd, h⟩ := bind_eq_ok.1 h
  obtain ⟨matched, hmatched, h⟩ := bind_eq_ok.1 h
  have hctyped : c.Typed := typed_evaluate hb v c hc
  obtain ⟨ds, hds, htests⟩ :=
    tests_evaluateIn hb hctyped (tests_equal hmatched hctyped (typed_evaluate hb e d hd)) h
  exact ⟨c, d :: ds, hc, bind_eq_ok.2 ⟨d, hd, bind_eq_ok.2 ⟨ds, hds, rfl⟩⟩, htests⟩

/-! ## When a test goes through -/

/-- Heights that can be brought together one after the other, in any order: that of the
tallest, or single rows. -/
def Alignable (heights : List Nat) : Prop := ∃ n, ∀ h ∈ heights, h ≤ n ∧ (h = n ∨ h = 1)

theorem Alignable.of_perm {hs hs' : List Nat} (h : Alignable hs) (hperm : hs.Perm hs') :
    Alignable hs' := by
  obtain ⟨n, hn⟩ := h
  exact ⟨n, fun k hk => hn k (hperm.mem_iff.2 hk)⟩

/-- The first two are brought to the greater one. -/
theorem alignable_cons {k l : Nat} {hs : List Nat} :
    Alignable (k :: l :: hs) ↔ ((k = max k l ∨ k = 1) ∧ (l = max k l ∨ l = 1))
      ∧ Alignable (max k l :: hs) := by
  simp only [Alignable, List.forall_mem_cons]
  constructor
  · rintro ⟨n, hk, hl, hrest⟩
    exact ⟨by omega, n, by omega, hrest⟩
  · rintro ⟨hkl, n, hmax, hrest⟩
    exact ⟨n, by omega, by omega, hrest⟩

/-- The column tells in which rows the option is equal to the value. -/
def Matches (b : Batch) (c : Column) (option : Expr) (matched : Column) : Prop :=
  ∃ d, option.evaluate b = .ok d ∧ BinaryOp.apply (.compare .equal) c d = .ok matched

theorem Matches.type {e : Expr} {m : Column} (h : Matches b c e m) : m.type = .boolean := by
  obtain ⟨d, -, h⟩ := h
  exact type_compared .equal c d m h

theorem exists_evaluateIn_iff {found : Column} (hfound : found.type = .boolean) :
    (∃ out, evaluateIn b c (some found) options = .ok out)
      ↔ ∃ ms, List.Forall₂ (Matches b c) options ms
        ∧ Alignable (found.length :: ms.map length) := by
  induction options generalizing found with
  | nil => exact ⟨fun _ => ⟨[], .nil, found.length, by simp⟩, fun _ => ⟨found, rfl⟩⟩
  | cons e rest ih =>
      constructor
      · rintro ⟨out, hout⟩
        obtain ⟨d, hd, hout⟩ := bind_eq_ok.1 hout
        obtain ⟨matched, hmatched, hout⟩ := bind_eq_ok.1 hout
        obtain ⟨next, hnext, hout⟩ := bind_eq_ok.1 hout
        have hm : Matches b c e matched := ⟨d, hd, hmatched⟩
        obtain ⟨ms, hms, haligned⟩ := (ih (type_connected .or _ _ next hnext)).1 ⟨out, hout⟩
        rw [apply_logic hfound hm.type] at hnext
        rw [length_logic hnext] at haligned
        exact ⟨matched :: ms, .cons hm hms,
          alignable_cons.2 ⟨(exists_logic_iff .or hfound hm.type).1 ⟨next, hnext⟩, haligned⟩⟩
      · rintro ⟨_, hall, haligned⟩
        obtain ⟨matched, ms, hm, hms, rfl⟩ := List.forall₂_cons_left_iff.1 hall
        obtain ⟨hpair, haligned⟩ := alignable_cons.1 haligned
        obtain ⟨next, hnext⟩ := (exists_logic_iff .or hfound hm.type).2 hpair
        rw [← length_logic hnext] at haligned
        rw [← apply_logic hfound hm.type] at hnext
        obtain ⟨out, hout⟩ := (ih (type_connected .or _ _ next hnext)).2 ⟨ms, hms, haligned⟩
        obtain ⟨d, hd, hmatched⟩ := hm
        exact ⟨out, bind_eq_ok.2
          ⟨d, hd, bind_eq_ok.2 ⟨matched, hmatched, bind_eq_ok.2 ⟨next, hnext, hout⟩⟩⟩⟩

/-- A test goes through if each of its equalities does, and they can be brought together. -/
theorem exists_isIn_iff (hc : v.evaluate b = .ok c) (hne : options ≠ []) :
    (∃ out, (isIn v options).evaluate b = .ok out)
      ↔ ∃ ms, List.Forall₂ (Matches b c) options ms ∧ Alignable (ms.map length) := by
  obtain ⟨e, rest, rfl⟩ := List.exists_cons_of_ne_nil hne
  have hevaluate : (isIn v (e :: rest)).evaluate b = evaluateIn b c none (e :: rest) := by
    rw [evaluate, hc]
    rfl
  rw [hevaluate]
  constructor
  · rintro ⟨out, hout⟩
    obtain ⟨d, hd, hout⟩ := bind_eq_ok.1 hout
    obtain ⟨matched, hmatched, hout⟩ := bind_eq_ok.1 hout
    have hm : Matches b c e matched := ⟨d, hd, hmatched⟩
    obtain ⟨ms, hms, haligned⟩ := (exists_evaluateIn_iff hm.type).1 ⟨out, hout⟩
    exact ⟨matched :: ms, .cons hm hms, haligned⟩
  · rintro ⟨_, hall, haligned⟩
    obtain ⟨matched, ms, hm, hms, rfl⟩ := List.forall₂_cons_left_iff.1 hall
    obtain ⟨out, hout⟩ := (exists_evaluateIn_iff hm.type).2 ⟨ms, hms, haligned⟩
    obtain ⟨d, hd, hmatched⟩ := hm
    exact ⟨out, bind_eq_ok.2 ⟨d, hd, bind_eq_ok.2 ⟨matched, hmatched, hout⟩⟩⟩

theorem exists_isIn_of_perm {options' : List Expr} (hperm : options.Perm options')
    (hne : options ≠ []) (h : ∃ out, (isIn v options).evaluate b = .ok out) :
    ∃ out, (isIn v options').evaluate b = .ok out := by
  obtain ⟨out, hout⟩ := h
  obtain ⟨c, hc, -⟩ := bind_eq_ok.1 hout
  obtain ⟨ms, hms, haligned⟩ := (exists_isIn_iff hc hne).1 ⟨out, hout⟩
  obtain ⟨ms', hms', hperm'⟩ := List.perm_comp_forall₂ hperm.symm hms
  have hne' : options' ≠ [] := by
    rintro rfl
    exact hne (List.perm_nil.1 hperm)
  exact (exists_isIn_iff hc hne').2 ⟨ms', hms', haligned.of_perm (hperm'.symm.map _)⟩

/-- The order of the options does not matter. -/
theorem isIn_perm {options' : List Expr} (hb : b.Typed) (hperm : options.Perm options')
    (h : (isIn v options).evaluate b = .ok out) :
    ∃ out', (isIn v options').evaluate b = .ok out' ∧ out.SameData out' := by
  by_cases hne : options = []
  · subst hne
    rw [List.nil_perm.1 hperm]
    exact ⟨out, h, .refl out⟩
  · obtain ⟨out', h'⟩ := exists_isIn_of_perm hperm hne ⟨out, h⟩
    have hne' : options' ≠ [] := fun hnil => hne (List.perm_nil.1 (hnil ▸ hperm))
    obtain ⟨c, cs, hc, hcs, htests⟩ := isIn_eq_ok hb hne h
    obtain ⟨c', cs', hc', hcs', htests'⟩ := isIn_eq_ok hb hne' h'
    cases hc.symm.trans hc'
    -- The columns of the options are the same, in another order.
    obtain ⟨ds, hds, hperm'⟩ := List.perm_comp_forall₂ hperm.symm (evaluateList_eq_ok.1 hcs)
    obtain rfl := Except.ok.inj ((evaluateList_eq_ok.2 hds).symm.trans hcs')
    have hmem (d : Column) : d ∈ cs ↔ d ∈ ds := hperm'.mem_iff.symm
    have hheights (k : Nat) : k ∈ (c :: ds).map length ↔ k ∈ (c :: cs).map length :=
      ((hperm'.cons c).map length).mem_iff
    have hlength : out.length = out'.length :=
      htests.covers.unique (htests'.covers.congr hheights)
    refine ⟨out', h', sameData_of_rows (typed_evaluate hb _ out h)
      (typed_evaluate hb _ out' h') htests.type htests'.type
      hlength fun i hi => ?_⟩
    exact (htests.rows i hi).unique (htests'.rows i (hlength ▸ hi)) hmem

/-- A test for a range goes through if both its comparisons do. -/
theorem between_eq_ok {low high : Expr} (hb : b.Typed)
    (h : (between v low high).evaluate b = .ok out) :
    ∃ c l u, v.evaluate b = .ok c ∧ low.evaluate b = .ok l ∧ high.evaluate b = .ok u
      ∧ Covers [c.length, l.length, u.length] out.length
      ∧ ∀ i < out.length, Within c l u i (out.row i).bool? := by
  obtain ⟨c, hc, h⟩ := bind_eq_ok.1 h
  obtain ⟨l, hl, h⟩ := bind_eq_ok.1 h
  obtain ⟨u, hu, h⟩ := bind_eq_ok.1 h
  obtain ⟨above, habove, h⟩ := bind_eq_ok.1 h
  obtain ⟨below, hbelow, h⟩ := bind_eq_ok.1 h
  have hcovers := (covers_binary _ c l above habove).two (covers_binary _ c u below hbelow)
    (covers_binary _ above below out h)
  exact ⟨c, l, u, hc, hl, hu, hcovers.congr (by simp; tauto), fun i hi =>
    row_within habove hbelow h (typed_evaluate hb v c hc) (typed_evaluate hb low l hl)
      (typed_evaluate hb high u hu) hi⟩

theorem exists_isIn {rows : Nat} (hne : options ≠ [])
    (h : ∀ o ∈ options, ∃ m, (v.equals o).evaluate b = .ok m ∧ m.length ≤ rows
      ∧ m.Spans rows) :
    ∃ out, (isIn v options).evaluate b = .ok out := by
  obtain ⟨o, ho⟩ := List.exists_mem_of_ne_nil options hne
  obtain ⟨_, hequal, -⟩ := h o ho
  obtain ⟨c, hc, -⟩ := bind_eq_ok.1 hequal
  have hmatches {o : Expr} {m : Column} (hm : (v.equals o).evaluate b = .ok m) :
      Matches b c o m := by
    obtain ⟨c', hc', hm⟩ := bind_eq_ok.1 hm
    cases hc.symm.trans hc'
    obtain ⟨d, hd, hm⟩ := bind_eq_ok.1 hm
    exact ⟨d, hd, hm⟩
  have hall : ∃ ms, List.Forall₂ (Matches b c) options ms ∧ ∀ m ∈ ms,
      m.length ≤ rows ∧ m.Spans rows := by
    clear hne ho
    induction options with
    | nil => exact ⟨[], .nil, nofun⟩
    | cons o rest ih =>
        obtain ⟨⟨m, hm, hspan⟩, hrest⟩ := List.forall_mem_cons.1 h
        obtain ⟨ms, hms, hspans⟩ := ih hrest
        exact ⟨m :: ms, .cons (hmatches hm) hms, List.forall_mem_cons.2 ⟨hspan, hspans⟩⟩
  obtain ⟨ms, hms, hspans⟩ := hall
  exact (exists_isIn_iff hc hne).2 ⟨ms, hms, rows, List.forall_mem_map.2 hspans⟩

theorem exists_between {low high : Expr} {rows : Nat} {above below : Column}
    (habove : (binary v (.compare .greaterEqual) low).evaluate b = .ok above)
    (haspan : above.length ≤ rows ∧ above.Spans rows)
    (hbelow : (binary v (.compare .lessEqual) high).evaluate b = .ok below)
    (hbspan : below.length ≤ rows ∧ below.Spans rows) :
    ∃ out, (between v low high).evaluate b = .ok out := by
  obtain ⟨c, hc, habove⟩ := bind_eq_ok.1 habove
  obtain ⟨l, hl, habove⟩ := bind_eq_ok.1 habove
  obtain ⟨c', hc', hbelow⟩ := bind_eq_ok.1 hbelow
  cases hc.symm.trans hc'
  obtain ⟨u, hu, hbelow⟩ := bind_eq_ok.1 hbelow
  have hatype := type_compared .greaterEqual c l above habove
  have hbtype := type_compared .lessEqual c u below hbelow
  have htaller : above.Spans (max above.length below.length)
      ∧ below.Spans (max above.length below.length) := by
    unfold Spans at *
    omega
  obtain ⟨out, hout⟩ := (exists_logic_iff .and hatype hbtype).2 htaller
  rw [← apply_logic hatype hbtype] at hout
  exact ⟨out, bind_eq_ok.2
    ⟨c, hc, bind_eq_ok.2
      ⟨l, hl, bind_eq_ok.2
        ⟨u, hu, bind_eq_ok.2 ⟨above, habove, bind_eq_ok.2 ⟨below, hbelow, hout⟩⟩⟩⟩⟩⟩

theorem negated_eq_ok (h : (isIn v options).evaluate b = .ok out)
    (htype : out.type = .boolean) :
    ∃ out', (unary .not (isIn v options)).evaluate b = .ok out' ∧ out'.length = out.length
      ∧ ∀ i < out.length, (out'.row i).bool? = (out.row i).bool?.map (!·) := by
  have hcondition : out.condition = .ok out.cells := if_pos htype
  have hnegated : out.negateCondition = .ok ⟨.boolean, out.cells.map negateBool⟩ := by
    rw [negateCondition, hcondition]
    rfl
  have hlength : Column.length ⟨.boolean, out.cells.map negateBool⟩ = out.length :=
    List.length_map _
  exact ⟨_, bind_eq_ok.2 ⟨out, h, hnegated⟩, hlength,
    fun i hi => bool?_negateCondition hnegated (hlength ▸ hi)⟩

/-! ## Three-valued tests -/

/-- How a test for membership evaluates, and so its negation. It goes through if the
comparisons do and their heights go together: each is as high as the highest one or a
single row. Without rows, that is one height for all. -/
structure Membership (b : Batch) (v : Expr) (options : List Expr) : Prop where
  exists_out : ∀ rows,
    (∀ o ∈ options, ∃ m, (v.equals o).evaluate b = .ok m ∧ m.length ≤ rows ∧ m.Spans rows) →
    options ≠ [] → ∃ out, (isIn v options).evaluate b = .ok out
  tests : ∀ out, (isIn v options).evaluate b = .ok out → options ≠ [] →
    ∃ c cs, v.evaluate b = .ok c ∧ evaluateList b options = .ok cs ∧ Tests c cs out
  negated : ∀ out, (isIn v options).evaluate b = .ok out →
    ∃ out', (unary .not (isIn v options)).evaluate b = .ok out' ∧ out'.length = out.length
      ∧ ∀ i < out.length, (out'.row i).bool? = (out.row i).bool?.map (!·)
  empty : ∀ c, v.evaluate b = .ok c → options = [] →
    (isIn v options).evaluate b = .ok (.constant .boolean (.bool false) c.length)
      ∧ (unary .not (isIn v options)).evaluate b
        = .ok (.constant .boolean (.bool true) c.length)
  unordered : ∀ options' out, options.Perm options' → (isIn v options).evaluate b = .ok out →
    ∃ out', (isIn v options').evaluate b = .ok out' ∧ out.SameData out'

/-- How a test for a range evaluates. -/
structure Range (b : Batch) (v low high : Expr) : Prop where
  exists_out : ∀ rows,
    (∃ m, (binary v (.compare .greaterEqual) low).evaluate b = .ok m ∧ m.length ≤ rows
      ∧ m.Spans rows) →
    (∃ m, (binary v (.compare .lessEqual) high).evaluate b = .ok m ∧ m.length ≤ rows
      ∧ m.Spans rows) →
    ∃ out, (between v low high).evaluate b = .ok out
  within : ∀ out, (between v low high).evaluate b = .ok out →
    ∃ c l u, v.evaluate b = .ok c ∧ low.evaluate b = .ok l ∧ high.evaluate b = .ok u
      ∧ Covers [c.length, l.length, u.length] out.length
      ∧ ∀ i < out.length, Within c l u i (out.row i).bool?

theorem membership (hb : b.Typed) (v : Expr) (options : List Expr) :
    Membership b v options where
  exists_out _ h hne := exists_isIn hne h
  tests _ h hne := isIn_eq_ok hb hne h
  negated out h := by
    refine negated_eq_ok h ?_
    by_cases hne : options = []
    · subst hne
      obtain ⟨c, -, h⟩ := bind_eq_ok.1 h
      cases h
      rfl
    · obtain ⟨c, cs, -, -, htests⟩ := isIn_eq_ok hb hne h
      exact htests.type
  empty c hc hnil := by
    subst hnil
    have hin : (isIn v []).evaluate b = .ok (.constant .boolean (.bool false) c.length) :=
      bind_eq_ok.2 ⟨c, hc, rfl⟩
    refine ⟨hin, bind_eq_ok.2 ⟨_, hin, ?_⟩⟩
    show Except.ok
      (⟨.boolean, (List.replicate c.length (.bool false)).map negateBool⟩ : Column) = _
    rw [List.map_replicate]
    rfl
  unordered _ _ hperm h := isIn_perm hb hperm h

theorem range (hb : b.Typed) (v low high : Expr) : Range b v low high where
  exists_out _ := by
    rintro ⟨above, habove, haspan⟩ ⟨below, hbelow, hbspan⟩
    exact exists_between habove haspan hbelow hbspan
  within _ h := between_eq_ok hb h

end Expr

open Column in
/-- Tests for membership and for ranges follow logic with an unknown. What is
unknown are comparisons with a null and with a text that tells no value of the type
in which it is compared. -/
theorem membership_three_valued {b : Batch} (hb : b.Typed) :
    (∀ v options, Expr.Membership b v options) ∧ (∀ v low high, Expr.Range b v low high)
      ∧ ∀ (clock : Engine.Clock) (n : Node) (e : Expr), n.Built → Engine.Compiled clock n e →
        (n.kind = .contains → ∃ v options, Engine.Operand clock n "value" v
          ∧ Engine.Operands clock n "options" options
          ∧ e = .isIn v options)
        ∧ (n.kind = .notContains → ∃ v options, Engine.Operand clock n "value" v
          ∧ Engine.Operands clock n "options" options ∧ e = .unary .not (.isIn v options))
        ∧ (n.kind = .between → ∃ v low high, Engine.Operand clock n "arg" v
          ∧ Engine.Operand clock n "lower_bound" low
          ∧ Engine.Operand clock n "upper_bound" high ∧ e = .between v low high) :=
  ⟨Expr.membership hb, Expr.range hb,
    fun _ _ _ h he =>
      ⟨fun hk => Engine.compiled_contains h hk he, fun hk => Engine.compiled_notContains h
        hk he, fun hk => Engine.compiled_between h hk he⟩⟩

open Column in
/-- A value among options that is null in one row, as it is itself in another. -/
theorem membership_three_valued_nullable :
    ∃ (b : Batch) (a d five out : Column),
      a = ⟨.int64, [.int 1, .int 2, .null]⟩ ∧ d = ⟨.int32, [.int 1, .null, .int 3]⟩
        ∧ five = ⟨.int64, [.int 5, .int 5, .int 5]⟩ ∧ b = ⟨3, [("a", a), ("d", d)]⟩
        ∧ (Expr.isIn (.column "a") [.column "d", .literal (.int64 5) .int64]).evaluate b
          = .ok out
        ∧ Tests a [d, five] out
        ∧ (∃ out', (Expr.isIn (.column "a")
          [.literal (.int64 5) .int64, .column "d"]).evaluate b = .ok out'
          ∧ out.SameData out')
        ∧ ∃ range, (Expr.between (.column "a") (.literal (.int64 5) .int64)
          (.column "d")).evaluate b = .ok range
          ∧ ∀ i < range.length, Within a five d i (range.row i).bool? := by
  obtain ⟨a, d, five, ha, hd, hfive⟩ :
      ∃ a d five : Column, a = ⟨.int64, [.int 1, .int 2, .null]⟩
      ∧ d = ⟨.int32, [.int 1, .null, .int 3]⟩ ∧ five = ⟨.int64, [.int 5, .int 5, .int 5]⟩ :=
        ⟨_, _, _, rfl, rfl, rfl⟩
  obtain ⟨b, hbatch⟩ : ∃ b : Batch, b = ⟨3, [("a", a), ("d", d)]⟩ := ⟨_, rfl⟩
  have hb : b.Typed := by
    rw [hbatch, ha, hd]
    unfold Batch.Typed Column.Typed
    decide
  obtain ⟨hmembership, hrange, -⟩ := membership_three_valued hb
  obtain ⟨heva, hevd, hevfive⟩ : (Expr.column "a").evaluate b = .ok a
      ∧ (Expr.column "d").evaluate b = .ok d
      ∧ (Expr.literal (.int64 5) .int64).evaluate b = .ok five := by
    subst hbatch ha hd hfive
    exact ⟨rfl, rfl, rfl⟩
  obtain ⟨out, hout⟩ :
      ∃ out, (Expr.isIn (.column "a") [.column "d", .literal (.int64 5) .int64]).evaluate
      b = .ok out := by
    subst hbatch ha hd
    exact ⟨_, rfl⟩
  obtain ⟨range, hinside⟩ :
      ∃ range, (Expr.between (.column "a") (.literal (.int64 5) .int64)
          (.column "d")).evaluate b = .ok range := by
    subst hbatch ha hd
    exact ⟨_, rfl⟩
  refine ⟨b, a, d, five, out, ha, hd, hfive, hbatch, hout, ?_, ?_, range, hinside, ?_⟩
  · obtain ⟨c, cs, hc, hcs, htests⟩ :=
      (hmembership _ _).tests out hout (List.cons_ne_nil _ _)
    have hlist : Expr.evaluateList b [.column "d", .literal (.int64 5) .int64]
        = .ok [d, five] :=
      Expr.evaluateList_eq_ok.2 (.cons hevd (.cons hevfive .nil))
    cases heva.symm.trans hc
    cases hlist.symm.trans hcs
    exact htests
  · exact (hmembership _ _).unordered _ out (.swap _ _ _) hout
  · obtain ⟨c, l, u, hc, hl, hu, -, hwithin⟩ := (hrange _ _ _).within range hinside
    cases heva.symm.trans hc
    cases hevfive.symm.trans hl
    cases hevd.symm.trans hu
    exact hwithin

/-- A text that tells no date: neither it nor the date that it is compared with is null,
and they are not equal. -/
theorem membership_three_valued_unread :
    ∃ source day soon found x n : Node,
      Node.databaseTable "t" ⟨[⟨"d", .date, true⟩]⟩ = .ok source
        ∧ Node.column source "d" = .ok day
        ∧ soon = Node.literal (.string "soon")
        ∧ Node.build .contains [.node day, .seq [.node soon]] [] = .ok found
        ∧ Node.rename (.node found) "x" = .ok x
        ∧ Node.build .selection [.node source] [("selections", .seq [.node x])] = .ok n
        ∧ Engine.execute {} ⟨0⟩ n ⟨[("t", ⟨1, [("d", ⟨.date, [.int 1]⟩)]⟩)], {}⟩
          = .ok ⟨1, [("x", ⟨.boolean, [.missing (.bool false)]⟩)]⟩ := by
  refine ⟨_, _, _, _, _, _, rfl, rfl, rfl, rfl, rfl, rfl, ?_⟩
  with_unfolding_all decide

end TypedQuery
