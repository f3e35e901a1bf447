import TypedQuery.Proofs.Plan.Keys

/-!
# A join by an index is a join by nested loops

The rows of a join are paired as the nested loops over both sides pair them, in the same
order, for every kind of join and every two lists of keys with the same types. Two rows
match when all their keys are the same data and, unless nulls match, no key of either is
null. A join takes for null what its column marks as missing, and a column of the type
`null` has no marks: there nulls match even when they should not.
-/

namespace TypedQuery

namespace Join

variable {ls rs : List Column} {m n i j : Nat}

/-- Whether every key of a left and of a right row is the same data. -/
def sameKeys (ls rs : List Column) (i j : Nat) : Bool :=
  (ls.zip rs).all fun k => decide (k.1.cells[i]?.map Cell.bare = k.2.cells[j]?.map Cell.bare)

/-- Whether a key of a row is null. -/
def nullKey (cs : List Column) (i : Nat) : Bool := cs.any fun c => c.nullAt i

/-- Whether a key of a row is marked as missing in its column. -/
def markedKey (cs : List Column) (i : Nat) : Bool :=
  cs.any fun c => c.marksNulls && c.nullAt i

/-- Whether a left and a right row match, by what is taken for null. -/
def rowsMatch (null : List Column → Nat → Bool) (nullsMatch : Bool) (ls rs : List Column)
    (i j : Nat) : Bool :=
  sameKeys ls rs i j && (nullsMatch || !(null ls i || null rs j))

/-- Keys that are compared with one another: they have the same type, and all keys of a
side have the same length. -/
def Comparable (m n : Nat) : List Column → List Column → Prop :=
  List.Forall₂ fun l r => r.type = l.type ∧ l.length = m ∧ r.length = n

theorem Comparable.lengths_left (h : Comparable m n ls rs) : ∀ l ∈ ls, l.length = m := by
  intro l hl
  obtain ⟨r, -, -, hlength, -⟩ := exists_of_forall₂_right h.flip hl
  exact hlength

theorem Comparable.lengths_right (h : Comparable m n ls rs) : ∀ r ∈ rs, r.length = n := by
  intro r hr
  obtain ⟨l, -, -, -, hlength⟩ := exists_of_forall₂_right h hr
  exact hlength

/-- The rows of an index have the same key if and only if every key is the same data. -/
theorem key_eq_iff (h : Comparable m n ls rs) (hi : i < m) (hj : j < n) :
    decide ((ls.map fun c => (c.cells[i]?.map Cell.bare).getD .null)
        = rs.map fun c => (c.cells[j]?.map Cell.bare).getD .null) = sameKeys ls rs i j := by
  induction h with
  | nil => rfl
  | @cons l r ls rs hlr _ ih =>
      obtain ⟨-, hl, hr⟩ := hlr
      have hi' : i < l.cells.length := Nat.lt_of_lt_of_eq hi hl.symm
      have hj' : j < r.cells.length := Nat.lt_of_lt_of_eq hj hr.symm
      have hcons : sameKeys (l :: ls) (r :: rs) i j
          = (decide (l.cells[i]?.map Cell.bare
            = r.cells[j]?.map Cell.bare) && sameKeys ls rs i j) := rfl
      rw [hcons, ← ih]
      simp [hi', hj']

theorem complete_eq (cs : List Column) (i : Nat) :
    (cs.all fun c => !(c.marksNulls && c.nullAt i)) = !markedKey cs i := by
  rw [markedKey, List.not_any_eq_all_not]

/-- Rows meet in an index if and only if they match, with marks taken for nulls. -/
theorem meets_eq_rowsMatch (nullsMatch : Bool) (h : Comparable m n ls rs)
    (hi : i < m) (hj : j < n) :
    ((keyedRows m ls)[i]?.any fun l => (keyedRows n rs)[j]?.any fun r =>
      meets nullsMatch l r)
      = rowsMatch markedKey nullsMatch ls rs i j := by
  rw [getElem?_keyedRows h.lengths_left hi, getElem?_keyedRows h.lengths_right hj,
    Option.any_some, Option.any_some]
  simp only [meets, takesPart, key_eq_iff h hi hj, complete_eq, rowsMatch]
  cases nullsMatch <;> cases sameKeys ls rs i j <;> simp

/-- Away from the type `null`, every null is marked. -/
theorem markedKey_eq_nullKey {cs : List Column} (h : ∀ c ∈ cs, c.type ≠ .null) (i : Nat) :
    markedKey cs i = nullKey cs i := by
  rw [Bool.eq_iff_iff, markedKey, nullKey, List.any_eq_true, List.any_eq_true]
  refine exists_congr fun c => and_congr_right fun hc => ?_
  simp [Column.marksNulls, h c hc]

/-- If nulls match or no key has the type `null`, marks and nulls say the same of two rows.
-/
theorem rowsMatch_markedKey {nullsMatch : Bool} (h : Comparable m n ls rs)
    (hplain : nullsMatch = true ∨ ∀ l ∈ ls, l.type ≠ .null) (i j : Nat) :
    rowsMatch markedKey nullsMatch ls rs i j = rowsMatch nullKey nullsMatch ls rs i j := by
  cases hplain with
  | inl hmatch => rw [rowsMatch, rowsMatch, hmatch, Bool.true_or, Bool.true_or]
  | inr hls =>
      have hrs : ∀ r ∈ rs, r.type ≠ .null := by
        intro r hr
        obtain ⟨l, hl, htype, -⟩ := exists_of_forall₂_right h hr
        exact htype ▸ hls l hl
      rw [rowsMatch, rowsMatch, markedKey_eq_nullKey hls, markedKey_eq_nullKey hrs]

/-- An index pairs the rows that match, with marks taken for nulls. -/
theorem matchRows_eq_loops (kind : JoinKind) (nullsMatch : Bool) (h : Comparable m n ls rs) :
    matchRows kind nullsMatch (keyedRows m ls) (keyedRows n rs)
      = loops kind m n (rowsMatch markedKey nullsMatch ls rs) := by
  rw [matchRows_eq_nested, nested_eq_loops, length_keyedRows h.lengths_left,
    length_keyedRows h.lengths_right]
  exact loops_congr kind fun i hi j hj => meets_eq_rowsMatch nullsMatch h hi hj

end Join

open Join

/-- The rows that an index pairs are those of nested loops, in their order: as the
settings say if nulls match or no key has the type `null`, and in any case with the
nulls that a column marks. -/
theorem join_is_nested_loops (kind : JoinKind) (nullsMatch : Bool) {m n : Nat}
    {ls rs : List Column} (h : Comparable m n ls rs) :
    matchRows kind nullsMatch (keyedRows m ls) (keyedRows n rs)
      = loops kind m n (rowsMatch markedKey nullsMatch ls rs)
      ∧ (nullsMatch = true ∨ (∀ l ∈ ls, l.type ≠ .null) →
        matchRows kind nullsMatch (keyedRows m ls) (keyedRows n rs)
          = loops kind m n (rowsMatch nullKey nullsMatch ls rs)) := by
  have hmarked := matchRows_eq_loops kind nullsMatch h
  exact ⟨hmarked, fun hplain => hmarked.trans
    (loops_congr kind fun i _ j _ => rowsMatch_markedKey h hplain i j)⟩

/-- Two equal keys on both sides, a null on each, and a key that only the right side has. -/
theorem join_is_nested_loops_outer :
    ∃ l r : Column, l = ⟨.int64, [.int 1, .null, .int 1]⟩
      ∧ r = ⟨.int64, [.null, .int 1, .int 2, .int 1]⟩
      ∧ Comparable 3 4 [l] [r]
      ∧ matchRows .outer false (keyedRows 3 [l]) (keyedRows 4 [r])
        = [(some 0, some 1), (some 0, some 3), (some 1, none), (some 2, some 1),
          (some 2, some 3), (none, some 0), (none, some 2)] := by
  refine ⟨_, _, rfl, rfl, .cons ⟨rfl, rfl, rfl⟩ .nil, ?_⟩
  have hcomparable : Comparable 3 4 [⟨.int64, [.int 1, .null, .int 1]⟩]
      [⟨.int64, [.null, .int 1, .int 2, .int 1]⟩] :=
    .cons ⟨rfl, rfl, rfl⟩ .nil
  exact ((join_is_nested_loops .outer false hcomparable).2 (.inr (by simp))).trans
    (by decide)

/-- Nulls of the type `null` match one another although they should not. -/
theorem join_is_not_nested_loops :
    ∃ k : Column, k = ⟨.null, [.null]⟩ ∧ Comparable 1 1 [k] [k] ∧ nullKey [k] 0 = true
      ∧ matchRows .inner false (keyedRows 1 [k]) (keyedRows 1 [k]) = [(some 0, some 0)]
      ∧ loops .inner 1 1 (rowsMatch nullKey false [k] [k]) = [] := by
  refine ⟨_, rfl, .cons ⟨rfl, rfl, rfl⟩ .nil, ?_, ?_, ?_⟩ <;> decide

end TypedQuery
