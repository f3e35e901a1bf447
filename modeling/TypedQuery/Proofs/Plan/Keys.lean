import TypedQuery.Proofs.Columnar.Order
import TypedQuery.Proofs.Plan.Join
import TypedQuery.Proofs.Plan.Preserved
import TypedQuery.Proofs.RowLocality

/-!
# Keys of joins

The right rows of a join are looked up in an index by key. `Join.nested` is the
join without an index: every left row is held against every right row, by a
relation on their positions. The two are equal when the relation says that both
rows take part and have the same key.

What an equality predicate says of two rows is `Column.agreeAt`: the cells are equal under
the engine's own comparison, which brings both to their common type, or both are missing
and missing keys match. What a join does is `Column.matchAt`: it converts the cells of one
side to the type of the other and then compares them as data. The two are the same where
the type that is converted to is the common type.
-/

namespace TypedQuery.Join

/-! ## Nested loops -/

/-- The right rows that a left row meets, and nothing if there is none. -/
def partners (rights : Nat) (meet : Nat → Bool) : Option (List Nat) :=
  match (List.range rights).filter meet with
  | [] => none
  | found => some found

/-- The pairs of a join of so many left and right rows, by which of them meet. -/
def nested (kind : JoinKind) (lefts rights : Nat) (meet : Nat → Nat → Bool) : List RowPair :=
  let pairs := (List.range lefts).flatMap fun i => pairsOf kind i (partners rights (meet i))
  if kind = .outer then pairs ++ (unpaired rights pairs).map fun j =>
    (none, some j) else pairs

theorem partners_eq_none {rights : Nat} {meet : Nat → Bool}
    (h : ∀ j < rights, meet j = false) :
    partners rights meet = none := by
  rw [partners, List.filter_eq_nil_iff.2 fun j hj => by simp [h j (List.mem_range.1 hj)]]

theorem partners_congr {rights : Nat} {meet meet' : Nat → Bool}
    (h : ∀ j < rights, meet j = meet' j) :
    partners rights meet = partners rights meet' := by
  rw [partners, partners, List.filter_congr fun j hj => h j (List.mem_range.1 hj)]

theorem nested_congr (kind : JoinKind) {lefts rights : Nat} {meet meet' : Nat → Nat → Bool}
    (h : ∀ i < lefts, ∀ j < rights, meet i j = meet' i j) :
    nested kind lefts rights meet = nested kind lefts rights meet' := by
  have hpairs : (List.range lefts).flatMap
      (fun i => pairsOf kind i (partners rights (meet i)))
      = (List.range lefts).flatMap fun i => pairsOf kind i (partners rights (meet' i)) := by
    refine List.flatMap_congr fun i hi => ?_
    rw [partners_congr (h i (List.mem_range.1 hi))]
  rw [nested, nested, hpairs]

/-! ## The index -/

/-- All positions under a key, in the order in which they were put there. -/
def Index.found (index : Index) (key : List Cell) : List Nat := (index.rows? key).getD []

theorem Index.rows?_insert (index : Index) (key other : List Cell) (position : Nat) :
    (index.insert key position).rows? other
      = if key = other then some (index.found other ++ [position])
        else index.rows? other := by
  induction index with
  | nil => by_cases h : key = other <;> simp [insert, rows?, found, h]
  | cons entry rest ih =>
      obtain ⟨k, positions⟩ := entry
      unfold rows? found at ih ⊢
      rw [insert]
      by_cases hk : k = key
      · subst hk
        by_cases hother : k = other <;> simp [rows?, hother]
      · rw [if_neg hk]
        by_cases hother : k = other
        · have hne : key ≠ other := fun h => hk (hother.trans h.symm)
          simp [hother, hne]
        · simpa [rows?, hother] using ih

/-- Positions, counted from `first`, of the rows that take part and have the key. -/
def matching (nullsMatch : Bool) (key : List Cell) (first : Nat)
    (rows : List KeyedRow) : List Nat :=
  ((rows.zipIdx first).filter fun row =>
    takesPart nullsMatch row.1 && decide (row.1.key = key)).map (·.2)

/-- Putting rows into an index puts their positions behind those that are there already. -/
theorem rows?_foldl (nullsMatch : Bool) (key : List Cell) (rows : List KeyedRow)
    (first : Nat) (index : Index) :
    ((rows.zipIdx first).foldl (fun index row =>
        if takesPart nullsMatch row.1 then Index.insert index row.1.key row.2 else index)
          index).rows? key
      = match matching nullsMatch key first rows with
        | [] => index.rows? key
        | more => some (index.found key ++ more) := by
  induction rows generalizing first index with
  | nil => rfl
  | cons row rest ih =>
      rw [List.zipIdx_cons, List.foldl_cons, ih]
      by_cases htakes : takesPart nullsMatch row = true
      · rw [if_pos htakes]
        by_cases hkey : row.key = key
        · have hcons : matching nullsMatch key first (row :: rest)
              = first :: matching nullsMatch key (first + 1) rest := by
            simp [matching, htakes, hkey]
          have hfound : (index.insert row.key first).found key
              = index.found key ++ [first] := by
            rw [Index.found, Index.rows?_insert, if_pos hkey]; rfl
          rw [hcons, hfound, Index.rows?_insert, if_pos hkey]
          cases matching nullsMatch key (first + 1) rest <;> simp
        · have hskip : matching nullsMatch key first (row :: rest)
              = matching nullsMatch key (first + 1) rest := by
            simp [matching, hkey]
          have hfound : (index.insert row.key first).found key = index.found key := by
            rw [Index.found, Index.rows?_insert, if_neg hkey, Index.found]
          rw [hskip, hfound, Index.rows?_insert, if_neg hkey]
      · have hskip : matching nullsMatch key first (row :: rest)
            = matching nullsMatch key (first + 1) rest := by
          simp [matching, htakes]
        rw [if_neg htakes, hskip]

/-- Whether a left and a right row take part and have the same key. -/
def meets (nullsMatch : Bool) (l r : KeyedRow) : Bool :=
  takesPart nullsMatch l && takesPart nullsMatch r && decide (l.key = r.key)

theorem matching_eq (nullsMatch : Bool) (key : List Cell)
    (rows : List KeyedRow) (first : Nat) :
    matching nullsMatch key first rows
      = ((List.range rows.length).filter fun j =>
          rows[j]?.any fun r => takesPart nullsMatch r && decide (r.key = key)).map
            (first + ·) := by
  induction rows generalizing first with
  | nil => rfl
  | cons row rest ih =>
      have hrest : matching nullsMatch key (first + 1) rest
          = (((List.range rest.length).map Nat.succ).filter fun j =>
              (row :: rest)[j]?.any fun r =>
                  takesPart nullsMatch r && decide (r.key = key)).map (first + ·) := by
        rw [ih, List.filter_map, List.map_map]
        refine List.map_congr_left fun j _ => ?_
        show first + 1 + j = first + (j + 1)
        omega
      rw [List.length_cons, List.range_succ_eq_map, List.filter_cons]
      unfold matching at hrest ⊢
      rw [List.zipIdx_cons, List.filter_cons]
      by_cases h : (takesPart nullsMatch row && decide (row.key = key)) = true
      · simp only [h, List.getElem?_cons_zero, Option.any_some, if_true, List.map_cons,
          hrest, Nat.add_zero]
      · simp only [h, List.getElem?_cons_zero, Option.any_some, if_false, hrest,
          Bool.false_eq_true]

/-- The join by an index is the join by nested loops. -/
theorem matchRows_eq_nested (kind : JoinKind) (nullsMatch : Bool)
    (left right : List KeyedRow) :
    matchRows kind nullsMatch left right = nested kind left.length right.length fun i j =>
      left[i]?.any fun l => right[j]?.any fun r => meets nullsMatch l r := by
  have hlookup : ∀ key, (index nullsMatch right).rows? key
      = partners right.length fun j => right[j]?.any fun r =>
        takesPart nullsMatch r && decide (r.key = key) := by
    intro key
    refine (rows?_foldl nullsMatch key right 0 []).trans ?_
    rw [matching_eq, partners]
    simp only [Nat.zero_add, List.map_id', Index.found, Index.rows?, List.find?_nil,
      Option.map_none, Option.getD_none, List.nil_append]
  have hpairs : (left.zipIdx.flatMap fun x =>
        pairsOf kind x.2
          (if takesPart nullsMatch x.1 then
            (index nullsMatch right).rows? x.1.key else none))
      = (List.range left.length).flatMap fun i =>
        pairsOf kind i (partners right.length fun j =>
          left[i]?.any fun l => right[j]?.any fun r => meets nullsMatch l r) := by
    rw [List.flatMap_def, List.flatMap_def]
    refine congrArg _ (List.ext_getElem (by simp) fun i hi _ => ?_)
    have hi : i < left.length := by simpa using hi
    simp only [List.getElem_map, List.getElem_zipIdx, List.getElem_range,
      List.getElem?_eq_getElem hi, Option.any_some, Nat.zero_add]
    split
    · next htakes =>
        rw [hlookup]
        refine congrArg _ (partners_congr fun j _ => ?_)
        simp only [meets, htakes, Bool.true_and, eq_comm]
    · next htakes =>
        rw [partners_eq_none fun j _ => ?_]
        cases right[j]? <;> simp [meets, htakes]
  unfold matchRows nested
  simp only [hpairs]

/-! ## Loops

`loops` says outright which pairs a join of two sides has and in which order: the loop over
the left rows contributes each of them with its right rows, and an outer join appends the
right rows that no left row meets. In `nested` the trailing rows are the ones that occur in
no pair so far. The two agree because the loops of an outer join put a right row into a
pair as soon as anything meets it.
-/

section

variable {kind : JoinKind} {lefts rights : Nat}

/-- What one left row contributes, by which right rows it meets. -/
def loop (kind : JoinKind) (rights : Nat) (meet : Nat → Bool) (i : Nat) : List RowPair :=
  let met := (List.range rights).filter meet
  match kind with
  | .inner => met.map fun j => (some i, some j)
  | .left | .outer => if met = [] then [(some i, none)] else met.map fun j =>
    (some i, some j)
  | .semi => if met = [] then [] else [(some i, none)]
  | .anti => if met = [] then [(some i, none)] else []

/-- The right rows that no left row meets. -/
def unmet (lefts rights : Nat) (meet : Nat → Nat → Bool) : List Nat :=
  (List.range rights).filter fun j => (List.range lefts).all fun i => !meet i j

/-- The pairs of a join, by which rows meet. -/
def loops (kind : JoinKind) (lefts rights : Nat) (meet : Nat → Nat → Bool) : List RowPair :=
  (List.range lefts).flatMap (fun i => loop kind rights (meet i) i)
    ++ if kind = .outer then (unmet lefts rights meet).map fun j => (none, some j) else []

theorem loops_congr (kind : JoinKind) {meet meet' : Nat → Nat → Bool}
    (h : ∀ i < lefts, ∀ j < rights, meet i j = meet' i j) :
    loops kind lefts rights meet = loops kind lefts rights meet' := by
  have hloop : ∀ i ∈ List.range lefts, loop kind rights (meet i) i = loop kind rights
      (meet' i) i := by
    intro i hi
    have hmet : (List.range rights).filter (meet i) = (List.range rights).filter (meet' i) :=
      List.filter_congr fun j hj => h i (List.mem_range.1 hi) j (List.mem_range.1 hj)
    unfold loop
    rw [hmet]
  have hunmet : unmet lefts rights meet = unmet lefts rights meet' := by
    refine List.filter_congr fun j hj => ?_
    rw [Bool.eq_iff_iff, List.all_eq_true, List.all_eq_true]
    refine forall₂_congr fun i hi => ?_
    rw [h i (List.mem_range.1 hi) j (List.mem_range.1 hj)]
  rw [loops, loops, List.flatMap_congr hloop, hunmet]

/-- Looking up the rows that a left row meets contributes what its loop does. -/
theorem pairsOf_partners (kind : JoinKind) (meet : Nat → Bool) (i : Nat) :
    pairsOf kind i (partners rights meet) = loop kind rights meet i := by
  unfold partners loop
  cases (List.range rights).filter meet <;> cases kind <;> rfl

theorem mem_rights_loop {meet : Nat → Bool} {i j : Nat} :
    j ∈ (loop .outer rights meet i).filterMap (·.2) ↔ j < rights ∧ meet j = true := by
  have hmet : j ∈ (List.range rights).filter meet ↔ j < rights ∧ meet j = true := by
    rw [List.mem_filter, List.mem_range]
  rw [← hmet, loop]
  split
  · next hnone => simp [hnone]
  · simp

/-- In the loops of an outer join, the right rows that occur in no pair are the
ones that nothing meets. -/
theorem unpaired_loops (meet : Nat → Nat → Bool) :
    unpaired rights ((List.range lefts).flatMap fun i => loop .outer rights (meet i) i)
      = unmet lefts rights meet := by
  refine List.filter_congr fun j hj => ?_
  have hj : j < rights := List.mem_range.1 hj
  have hpaired :
      j ∈ ((List.range lefts).flatMap fun i => loop .outer rights (meet i) i).filterMap (·.2)
      ↔ ∃ i < lefts, meet i j = true := by
    simp only [List.filterMap_flatMap, List.mem_flatMap, List.mem_range,
      mem_rights_loop, hj, true_and]
  rw [Bool.eq_iff_iff, Bool.not_eq_true', ← Bool.not_eq_true, List.contains_iff_mem, hpaired]
  simp

/-- The join by an index is a join by nested loops. -/
theorem nested_eq_loops (kind : JoinKind) (meet : Nat → Nat → Bool) :
    nested kind lefts rights meet = loops kind lefts rights meet := by
  simp only [nested, loops, pairsOf_partners]
  by_cases hkind : kind = .outer
  · subst hkind
    rw [if_pos rfl, if_pos rfl, unpaired_loops]
  · rw [if_neg hkind, if_neg hkind, List.append_nil]

end

end TypedQuery.Join

namespace TypedQuery

namespace Column

/-! ## Two cells -/

/-- Whether two cells are equal, as it is computed from their columns. -/
def equalAt (l r : Column) (i j : Nat) : Bool :=
  match BinaryOp.apply (.compare .equal) (l.gather [some i]) (r.gather [some j]) with
  | .ok c => c.cells.any Cell.isTrue
  | .error _ => false

def nullAt (c : Column) (i : Nat) : Bool := c.cells[i]?.any Cell.isNull

/-- What an equality of two keys says of two rows. -/
def agreeAt (nullsMatch : Bool) (l r : Column) (i j : Nat) : Bool :=
  l.equalAt r i j || (nullsMatch && l.nullAt i && r.nullAt j)

/-- Two cells are the same data, and not null unless that matches or the column
has no place for null. -/
def sameAt (nullsMatch : Bool) (l r : Column) (i j : Nat) : Bool :=
  decide (l.cells[i]?.map Cell.bare = r.cells[j]?.map Cell.bare)
    && (nullsMatch || !(l.marksNulls && l.nullAt i))

/-- What a join does with two keys: the other one is converted to the type of
the leading one. Equality decides, but for the type of nulls and for lists,
which it does not compare. -/
def matchAt (nullsMatch : Bool) (lead other : Column) (i j : Nat) : Bool :=
  match other.cast lead.type with
  | .ok other =>
    if lead.type = .null ∨ lead.type.isList = true then sameAt nullsMatch lead other i j
    else agreeAt nullsMatch lead other i j
  | .error _ => false

variable {l r : Column} {i j : Nat}

/-! ## Equality of two cells -/

theorem gather_single {c : Column} (hi : i < c.length) :
    c.gather [some i] = ⟨c.type, [c.cells[i]]⟩ := by
  rw [gather, List.map_singleton, Option.bind_some, List.getElem?_eq_getElem hi,
    Option.getD_some]

theorem compare_single (op : Comparison) (t : Physical) (a b : Cell) :
    compare op ⟨t, [a]⟩ ⟨t, [b]⟩
      = if t.isList then .error (.compute .invalidArgument)
        else .ok ⟨.boolean, [compareCells op t a b]⟩ := by
  rw [compare, show pairs ⟨t, [a]⟩ ⟨t, [b]⟩ = .ok [some (a, b)] from rfl]
  cases t <;> rfl

theorem equalAt_eq {t : Physical} {ls rs : List Cell} (hlist : t.isList = false)
    (hi : i < ls.length) (hj : j < rs.length) :
    equalAt ⟨t, ls⟩ ⟨t, rs⟩ i j = (compareCells .equal t ls[i] rs[j]).isTrue := by
  rw [equalAt, gather_single hi, gather_single hj]
  simp [BinaryOp.apply, coerce, commonType, cast, compare_single, hlist, bind, Except.bind]

/-- Keys of one type that is compared: what a predicate says of them is whether
they are the same data. -/
theorem agreeAt_eq_sameAt (nullsMatch : Bool) (htype : r.type = l.type)
    (hnull : l.type ≠ .null) (hlist : l.type.isList = false)
    (hl : l.Typed) (hr : r.Typed) (hi : i < l.length) (hj : j < r.length) :
    l.agreeAt nullsMatch r i j = l.sameAt nullsMatch r i j := by
  obtain ⟨t, ls⟩ := l
  obtain ⟨t', rs⟩ := r
  cases htype
  have hi : i < ls.length := hi
  have hj : j < rs.length := hj
  have hla : (ls[i]).fits t = true := hl _ (List.getElem_mem hi)
  have hrb : (rs[j]).fits t = true := hr _ (List.getElem_mem hj)
  have hmarks : marksNulls ⟨t, ls⟩ = true := by simpa [marksNulls] using hnull
  rw [agreeAt, sameAt, equalAt_eq hlist hi hj, hmarks]
  simp only [nullAt, List.getElem?_eq_getElem hi, List.getElem?_eq_getElem hj,
    Option.any_some, Option.map_some, Option.some.injEq, Bool.true_and]
  generalize ls[i] = a at hla
  generalize rs[j] = b at hrb
  cases ha : a.isNull with
  | true =>
      cases hb : b.isNull with
      | true =>
          simp [compareCells, ha, hnull, Cell.isTrue, Cell.bare_of_isNull ha,
            Cell.bare_of_isNull hb]
      | false =>
          have hne : a.bare ≠ b.bare := fun h => by
            have := congrArg Cell.isNull h
            rw [Cell.isNull_bare, Cell.isNull_bare, ha, hb] at this
            cases this
          simp [compareCells, ha, hnull, Cell.isTrue, hne]
  | false =>
      cases hb : b.isNull with
      | true =>
          have hne : a.bare ≠ b.bare := fun h => by
            have := congrArg Cell.isNull h
            rw [Cell.isNull_bare, Cell.isNull_bare, ha, hb] at this
            cases this
          simp [compareCells, ha, hb, hnull, Cell.isTrue, hne]
      | false =>
          simp [compareCells, ha, hb, Cell.isTrue, Comparison.holds,
            Cell.order_eq_iff hlist hla hrb ha hb]

/-! ## Conversion of the other key -/

theorem gather_cast {o : Column} {t : Physical} (h : r.cast t = .ok o) (hj : j < r.length) :
    (r.gather [some j]).cast t = .ok (o.gather [some j]) := by
  have hrows : ∀ k ∈ [j], k < r.length := fun k hk => List.mem_singleton.1 hk ▸ hj
  have hgather : Taken r.length [j] r (r.gather ([j].map some)) := .of_gather rfl
  obtain ⟨o', ho', htaken⟩ := hgather.cast hrows t o h
  rwa [htaken.eq_gather hrows] at ho'

/-- Where the leading type is the common type, comparing converts as a join does. -/
theorem equalAt_cast {o : Column} (hcommon : commonType l.type r.type = .ok l.type)
    (h : r.cast l.type = .ok o) (hj : j < r.length) : l.equalAt r i j = l.equalAt o i j := by
  have ho : o.type = l.type := type_cast _ _ _ h
  have hcoerce : (l.gather [some i]).coerce (r.gather [some j])
      = (l.gather [some i]).coerce (o.gather [some j]) := by
    have hr : (r.gather [some j]).cast (l.gather [some i]).type = .ok (o.gather [some j]) :=
      gather_cast h hj
    have ho' : (o.gather [some j]).cast (l.gather [some i]).type
      = .ok (o.gather [some j]) := if_pos ho
    have hsame : commonType (l.gather [some i]).type (o.gather [some j]).type
        = .ok (l.gather [some i]).type :=
      if_pos ho.symm
    have hcommon : commonType (l.gather [some i]).type (r.gather [some j]).type
        = .ok (l.gather [some i]).type := hcommon
    unfold Column.coerce
    rw [hcommon, hsame]
    simp only [bind, Except.bind, hr, ho']
  unfold equalAt BinaryOp.apply
  rw [hcoerce]

/-- Conversion to the common type loses nothing, except that a text need not stand for a
date. -/
theorem isNull_cast {source target : Physical} {c out : Cell}
    (hcommon : commonType target source = .ok target)
    (htext : source = .text → target = .text) (hne : source ≠ target)
    (hc : c.fits source = true) (h : Cast.cell source target c = .ok out) :
    out.isNull = c.isNull := by
  cases target <;> cases source <;> simp [commonType] at hcommon htext hne <;>
    first
      | exact absurd hcommon.symm hne
      | (cases c <;> cases hc <;> cases h <;> rfl)

theorem nullAt_cast {o : Column} (hcommon : commonType l.type r.type = .ok l.type)
    (htext : r.type = .text → l.type = .text) (hr : r.Typed) (h : r.cast l.type = .ok o)
    (hj : j < r.length) :
    o.nullAt j = r.nullAt j := by
  by_cases hne : r.type = l.type
  · rw [cast, if_pos hne] at h
    cases h
    rfl
  · obtain ⟨-, -, hcells⟩ := cast_eq_ok h hne
    have hj : j < r.cells.length := hj
    have hj' : j < o.cells.length := hcells.length_eq ▸ hj
    have hcell := (List.forall₂_iff_get.1 hcells).2 j hj hj'
    simp only [nullAt, List.getElem?_eq_getElem hj, List.getElem?_eq_getElem hj',
      Option.any_some]
    exact isNull_cast hcommon htext hne (hr _ (List.getElem_mem hj)) hcell

/-- Nothing is lost in conversion to the leading type: both are compared in it anyway, and
no text that stands for no value becomes a null that matches. -/
structure Leads (nullsMatch : Bool) (lead other : Physical) : Prop where
  common : commonType lead other = .ok lead
  not_null : lead ≠ .null
  not_list : lead.isList = false
  text : nullsMatch = true → other = .text → lead = .text

/-- Then a join does what the predicate says. -/
theorem matchAt_eq_agreeAt {nullsMatch : Bool} (h : Leads nullsMatch l.type r.type)
    (hr : r.Typed) {o : Column} (hcast : r.cast l.type = .ok o) (hj : j < r.length) :
    l.matchAt nullsMatch r i j = l.agreeAt nullsMatch r i j := by
  have hplain : ¬ (l.type = .null ∨ l.type.isList = true) := by simp [h.not_null, h.not_list]
  rw [matchAt, hcast]
  simp only [hplain, if_false, agreeAt, equalAt_cast h.common hcast hj]
  cases nullsMatch with
  | false => rfl
  | true => rw [nullAt_cast h.common (h.text rfl) hr hcast hj]

/-! ## Both sides of an equality -/

theorem commonType_comm (s t : Physical) :
    (commonType s t).toOption = (commonType t s).toOption := by
  by_cases h : s = t
  · rw [h]
  · unfold commonType
    rw [if_neg h, if_neg (Ne.symm h)]
    cases s <;> cases t <;> rfl

theorem isTrue_compareCells_comm {t : Physical} {a b : Cell} (hlist : t.isList = false)
    (ha : a.fits t = true) (hb : b.fits t = true) :
    (compareCells .equal t a b).isTrue = (compareCells .equal t b a).isTrue := by
  cases hna : a.isNull with
  | true =>
      cases hnb : b.isNull <;> by_cases ht : t = .null
        <;> simp [compareCells, hna, hnb, ht, Cell.isTrue]
  | false =>
      cases hnb : b.isNull with
      | true => by_cases ht : t = .null <;> simp [compareCells, hna, hnb, ht, Cell.isTrue]
      | false =>
          simp only [compareCells, hna, hnb, Bool.or_self, Bool.false_eq_true, if_false,
            Cell.isTrue, Comparison.holds, Cell.order_eq_iff hlist ha hb hna hnb,
            Cell.order_eq_iff hlist hb ha hnb hna, eq_comm]

theorem equalAt_comm (hl : l.Typed) (hr : r.Typed) : l.equalAt r i j = r.equalAt l j i := by
  have hcommon := commonType_comm l.type r.type
  have hlt : (l.gather [some i]).type = l.type := rfl
  have hrt : (r.gather [some j]).type = r.type := rfl
  unfold equalAt BinaryOp.apply coerce
  rw [hlt, hrt]
  cases hlr : commonType l.type r.type with
  | error e =>
      cases hrl : commonType r.type l.type with
      | error e' => rfl
      | ok t => rw [hlr, hrl] at hcommon; cases hcommon
  | ok t =>
      obtain ht : commonType r.type l.type = .ok t := by
        rw [hlr] at hcommon
        cases hrl : commonType r.type l.type with
        | error e' => rw [hrl] at hcommon; cases hcommon
        | ok t' => rw [hrl] at hcommon; cases hcommon; rfl
      simp only [ht, bind, Except.bind]
      cases hlc : (l.gather [some i]).cast t with
      | error e => cases hrc : (r.gather [some j]).cast t <;> rfl
      | ok x =>
          cases hrc : (r.gather [some j]).cast t with
          | error e => rfl
          | ok y =>
              obtain ⟨hxt, hx⟩ := (hl.gather [some i]).cast t x hlc
              obtain ⟨hyt, hy⟩ := (hr.gather [some j]).cast t y hrc
              obtain ⟨t', xs⟩ := x
              obtain ⟨t'', ys⟩ := y
              obtain rfl : t' = t := hxt
              obtain rfl : t'' = t' := hyt
              obtain ⟨a, rfl⟩ :=
                List.length_eq_one_iff.1 (show xs.length = 1 from length_cast hlc)
              obtain ⟨b, rfl⟩ :=
                List.length_eq_one_iff.1 (show ys.length = 1 from length_cast hrc)
              simp only [compare_single]
              cases hlist : t''.isList with
              | true => rfl
              | false =>
                  simpa using isTrue_compareCells_comm hlist (hx a List.mem_cons_self)
                    (hy b List.mem_cons_self)

theorem agreeAt_comm (nullsMatch : Bool) (hl : l.Typed) (hr : r.Typed) :
    l.agreeAt nullsMatch r i j = r.agreeAt nullsMatch l j i := by
  rw [agreeAt, agreeAt, equalAt_comm hl hr, Bool.and_right_comm]

end Column

namespace Join

open Column

/-! ## Rows of keys -/

theorem getElem?_tuples {n i : Nat} {cs : List Column}
    (h : ∀ c ∈ cs, c.length = n) (hi : i < n) :
    (Batch.tuples n cs)[i]?
      = some (cs.map fun c => (c.cells[i]?.map Cell.bare).getD .null) := by
  induction cs with
  | nil => simp [Batch.tuples, hi]
  | cons c rest ih =>
      obtain ⟨hc, hrest⟩ := List.forall_mem_cons.1 h
      have hi' : i < c.cells.length := Nat.lt_of_lt_of_eq hi hc.symm
      have hrest := ih hrest
      unfold Batch.tuples at hrest ⊢
      rw [List.foldr_cons, List.getElem?_zipWith, hrest]
      simp [hi']

theorem getElem?_complete {n i : Nat} {cs : List Column} (h : ∀ c ∈ cs, c.length = n)
    (hi : i < n) {init : List Bool} (hinit : init.length = n) :
    ((cs.map filled).foldl (List.zipWith and) init)[i]?
      = some (init.getD i true && cs.all fun c => !(c.marksNulls && c.nullAt i)) := by
  induction cs generalizing init with
  | nil => simp [hinit, hi]
  | cons c rest ih =>
      obtain ⟨hc, hrest⟩ := List.forall_mem_cons.1 h
      have hi' : i < c.cells.length := Nat.lt_of_lt_of_eq hi hc.symm
      have hinit' : i < init.length := Nat.lt_of_lt_of_eq hi hinit.symm
      have hfilled : (filled c).length = n := by rw [filled, List.length_map]; exact hc
      rw [List.map_cons, List.foldl_cons,
        ih hrest (by rw [List.length_zipWith, hinit, hfilled, Nat.min_self])]
      have hhere : (List.zipWith and init (filled c)).getD i true
          = (init.getD i true && !(c.marksNulls && c.nullAt i)) := by
        rw [List.getD, List.getElem?_zipWith]
        simp [filled, nullAt, hi', hinit']
      rw [hhere, List.all_cons, Bool.and_assoc]

theorem getElem?_keyedRows {n i : Nat} {cs : List Column}
    (h : ∀ c ∈ cs, c.length = n) (hi : i < n) :
    (keyedRows n cs)[i]? = some {
      key := cs.map fun c => (c.cells[i]?.map Cell.bare).getD .null
      complete := cs.all fun c => !(c.marksNulls && c.nullAt i) } := by
  rw [keyedRows, List.getElem?_zipWith, getElem?_tuples h hi,
    getElem?_complete h hi List.length_replicate]
  simp [hi]

theorem length_complete {n : Nat} {cs : List Column} (h : ∀ c ∈ cs, c.length = n)
    {init : List Bool} (hinit : init.length = n) :
    ((cs.map filled).foldl (List.zipWith and) init).length = n := by
  induction cs generalizing init with
  | nil => exact hinit
  | cons c rest ih =>
      obtain ⟨hc, hrest⟩ := List.forall_mem_cons.1 h
      have hfilled : (filled c).length = n := by rw [filled, List.length_map]; exact hc
      exact ih hrest (by rw [List.length_zipWith, hinit, hfilled, Nat.min_self])

theorem length_keyedRows {n : Nat} {cs : List Column} (h : ∀ c ∈ cs, c.length = n) :
    (keyedRows n cs).length = n := by
  rw [keyedRows, List.length_zipWith, Batch.length_tuples h,
    length_complete h List.length_replicate, Nat.min_self]

/-- Rows of keys meet if and only if every key is the same in them. -/
theorem meets_keyedRows {nullsMatch : Bool} {m n i j : Nat} {ls rs : List Column}
    (h : List.Forall₂ (fun l r => r.type = l.type ∧ l.length = m ∧ r.length = n) ls rs)
    (hi : i < m) (hj : j < n) :
    meets nullsMatch
        ⟨ls.map fun c => (c.cells[i]?.map Cell.bare).getD .null,
          ls.all fun c => !(c.marksNulls && c.nullAt i)⟩
        ⟨rs.map fun c => (c.cells[j]?.map Cell.bare).getD .null,
          rs.all fun c => !(c.marksNulls && c.nullAt j)⟩
      = (ls.zip rs).all fun k => k.1.sameAt nullsMatch k.2 i j := by
  induction h with
  | nil => cases nullsMatch <;> rfl
  | @cons l r ls rs hlr _ ih =>
      obtain ⟨htype, hl, hr⟩ := hlr
      have hi' : i < l.cells.length := Nat.lt_of_lt_of_eq hi hl.symm
      have hj' : j < r.cells.length := Nat.lt_of_lt_of_eq hj hr.symm
      have hmarks : r.marksNulls = l.marksNulls := by rw [marksNulls, marksNulls, htype]
      -- The same data is null on both sides or on neither.
      have hnull : l.cells[i].bare = r.cells[j].bare → r.nullAt j = l.nullAt i := by
        intro heq
        simp only [nullAt, List.getElem?_eq_getElem hi', List.getElem?_eq_getElem hj',
          Option.any_some]
        rw [← Cell.isNull_bare, ← heq, Cell.isNull_bare]
      simp only [List.zip_cons_cons, List.all_cons, ← ih]
      unfold meets takesPart sameAt
      simp only [List.map_cons, List.getElem?_eq_getElem hi', List.getElem?_eq_getElem hj',
        Option.map_some, Option.getD_some, List.cons.injEq, Option.some.injEq,
        Bool.decide_and, hmarks]
      by_cases heq : l.cells[i].bare = r.cells[j].bare
      · rw [hnull heq]
        simp only [heq, decide_true, Bool.true_and]
        cases nullsMatch <;> cases (l.marksNulls && l.nullAt i) <;> simp
      · simp [heq]

/-- Converted keys have the types of the leading ones, and comparing them as data
is what `matchAt` does. -/
theorem convertKeys_eq_ok (nullsMatch : Bool) {m n : Nat} {ls rs os : List Column}
    (h : convertKeys ls rs = .ok os) (hlength : ls.length = rs.length)
    (hl : ∀ l ∈ ls, l.Typed ∧ l.length = m) (hr : ∀ r ∈ rs, r.Typed ∧ r.length = n) :
    List.Forall₂ (fun l o => o.type = l.type ∧ l.length = m ∧ o.length = n) ls os
      ∧ (∀ k ∈ ls.zip rs, ∃ o, k.2.cast k.1.type = .ok o)
      ∧ ∀ i < m, ∀ j < n, ((ls.zip os).all fun k => k.1.sameAt nullsMatch k.2 i j)
        = (ls.zip rs).all fun k => k.1.matchAt nullsMatch k.2 i j := by
  induction ls generalizing rs os with
  | nil =>
      cases h
      exact ⟨.nil, fun _ hk => (by cases hk), fun _ _ _ _ => rfl⟩
  | cons l ls ih =>
      cases rs with
      | nil => cases hlength
      | cons r rs =>
          obtain ⟨o, ho, h⟩ := bind_eq_ok.1 h
          obtain ⟨rest, hrest, h⟩ := bind_eq_ok.1 h
          cases h
          obtain ⟨⟨hltyped, hllength⟩, hl⟩ := List.forall_mem_cons.1 hl
          obtain ⟨⟨hrtyped, hrlength⟩, hr⟩ := List.forall_mem_cons.1 hr
          obtain ⟨htypes, hcasts, hall⟩ := ih hrest (Nat.succ.inj hlength) hl hr
          obtain ⟨hotype, hotyped⟩ := hrtyped.cast l.type o ho
          have holength : o.length = n := (length_cast ho).trans hrlength
          refine ⟨.cons ⟨hotype, hllength, holength⟩ htypes,
            List.forall_mem_cons.2 ⟨⟨o, ho⟩, hcasts⟩, fun i hi j hj => ?_⟩
          rw [List.zip_cons_cons, List.zip_cons_cons, List.all_cons, List.all_cons,
            hall i hi j hj, matchAt, ho]
          congr 1
          dsimp only
          split
          · rfl
          · next hplain =>
              obtain ⟨hnull, hlist⟩ := not_or.1 hplain
              exact (agreeAt_eq_sameAt nullsMatch hotype hnull
                (by simpa using hlist) hltyped hotyped
                (by rw [hllength]; exact hi) (by rw [holength]; exact hj)).symm

/-- The pairs of a join are those of nested loops in which every key matches. -/
theorem pairing_eq_ok {left right : Batch} {leftKeys rightKeys : List Expr}
    {kind : JoinKind} {nullsMatch : Bool} {pairs : List RowPair} (hl : left.Typed)
    (hr : right.Typed)
    (h : left.pairing right leftKeys rightKeys kind nullsMatch = .ok pairs) :
    ∃ ls rs, left.computeKeys leftKeys = .ok ls ∧ right.computeKeys rightKeys = .ok rs
      ∧ (∀ k ∈ ls.zip rs, ∃ o, k.2.cast k.1.type = .ok o)
      ∧ pairs = nested kind left.rows right.rows fun i j => (ls.zip rs).all fun k =>
        k.1.matchAt nullsMatch k.2 i j := by
  unfold Batch.pairing at h
  split at h
  · cases h
  · next hkeys =>
      obtain ⟨ls, hls, h⟩ := bind_eq_ok.1 h
      obtain ⟨rs, hrs, h⟩ := bind_eq_ok.1 h
      obtain ⟨os, hos, h⟩ := bind_eq_ok.1 h
      cases h
      have hlength : ls.length = rs.length := by
        rw [Batch.length_computeKeys hls, Batch.length_computeKeys hrs]
        simp only [Bool.or_eq_true, decide_eq_true_eq, not_or, ne_eq, not_not] at hkeys
        exact hkeys.2
      have hleft : ∀ l ∈ ls, l.Typed ∧ l.length = left.rows := fun l hl' =>
        ⟨hl.computeKeys leftKeys ls hls l hl', Batch.length_of_computeKeys hls l hl'⟩
      have hright : ∀ r ∈ rs, r.Typed ∧ r.length = right.rows := fun r hr' =>
        ⟨hr.computeKeys rightKeys rs hrs r hr', Batch.length_of_computeKeys hrs r hr'⟩
      obtain ⟨htypes, hcasts, hall⟩ := convertKeys_eq_ok nullsMatch hos hlength hleft hright
      have hos' : ∀ o ∈ os, o.length = right.rows := fun o ho => by
        obtain ⟨_, -, -, -, holength⟩ := exists_of_forall₂_right htypes ho
        exact holength
      have hls' : ∀ l ∈ ls, l.length = left.rows := fun l hl => (hleft l hl).2
      refine ⟨ls, rs, hls, hrs, hcasts, ?_⟩
      rw [matchRows_eq_nested, length_keyedRows hls', length_keyedRows hos']
      refine nested_congr kind fun i hi j hj => ?_
      rw [getElem?_keyedRows hls' hi, getElem?_keyedRows hos' hj, Option.any_some,
        Option.any_some, meets_keyedRows htypes hi hj, hall i hi j hj]

end Join

end TypedQuery
