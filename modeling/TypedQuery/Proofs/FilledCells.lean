import Mathlib.Data.List.Perm.Basic
import TypedQuery.Proofs.Columnar.RowView
import TypedQuery.Proofs.Engine.Names
import TypedQuery.Proofs.Engine.Preserved
import TypedQuery.Proofs.Node.Calls
import TypedQuery.Proofs.Plan.Names
import TypedQuery.Proofs.Plan.Rectangular

/-!
# Cells that are filled

A computed column takes the place of the first column of its name, and every other column
stays what it is where it is. As no two computed columns have one name, it does not matter
in which order they are put.

Filling takes columns of a table by their names and puts a constant where they are null or
not a number. The constant is converted to the type that the column has, and what comes of
it to the type that is declared for the column. Where a column is executed with another
type than the declared one, this last conversion is one of all its cells, and not of filled
ones only; where the types agree, all other cells stay as they are. Columns that are not
filled stay in any case.
-/

namespace TypedQuery.Batch

variable {b out : Batch} {columns computed computed' : List (String × Column)}
    {name other : String} {c d : Column} {j : Nat}

/-! ## One column -/

theorem getElem?_put (hj : columns[j]? = some (other, d)) : (put columns name c)[j]?
    = some (other, if other = name ∧ name ∉ (columns.map (·.1)).take j then c else d) := by
  induction columns generalizing j with
  | nil => cases hj
  | cons first rest ih =>
      obtain ⟨head, e⟩ := first
      rw [put]
      cases j with
      | zero =>
          cases hj
          split
          · next heq => rw [if_pos ⟨heq, List.not_mem_nil⟩]; rfl
          · next heq => rw [if_neg fun h => heq h.1]; rfl
      | succ j =>
          rw [List.map_cons, List.take_succ_cons]
          split
          · next heq =>
              rw [List.getElem?_cons_succ, if_neg fun h => h.2 (heq ▸ List.mem_cons_self)]
              exact hj
          · next heq =>
              rw [List.getElem?_cons_succ, ih hj]
              simp only [List.mem_cons, not_or, Ne.symm heq, not_false_eq_true, true_and]

/-- Columns of different names that are there can be put in either order. -/
theorem put_comm (hne : name ≠ other) (hname : name ∈ columns.map (·.1))
    (hother : other ∈ columns.map (·.1)) :
    put (put columns name c) other d = put (put columns other d) name c := by
  induction columns with
  | nil => cases hname
  | cons first rest ih =>
      obtain ⟨head, e⟩ := first
      by_cases hhead : head = name
      · subst hhead
        simp only [put, if_pos, if_neg hne]
      · by_cases hhead' : head = other
        · subst hhead'
          simp only [put, if_pos, if_neg hhead]
        · have hmem {x : String} (hx : x ∈ ((head, e) :: rest).map (·.1))
              (hne : ¬ head = x) : x ∈ rest.map (·.1) :=
            (List.mem_cons.1 hx).resolve_left fun h => hne h.symm
          simp only [put, if_neg hhead, if_neg hhead',
            ih (hmem hname hhead) (hmem hother hhead')]

/-! ## Several columns -/

/-- The batch's columns with computed ones in their places. -/
def putAll (columns computed : List (String × Column)) : List (String × Column) :=
  computed.foldl (fun columns c => put columns c.1 c.2) columns

theorem putAll_cons (first : String × Column) : putAll columns (first :: computed)
    = putAll (put columns first.1 first.2) computed := rfl

/-- A column stays if none of its name is computed, or if it is not the first of its name. -/
theorem getElem?_putAll_of_other (hmem : ∀ x ∈ computed, x.1 ∈ columns.map (·.1))
    (hj : columns[j]? = some (name, c))
    (h : name ∉ computed.map (·.1) ∨ name ∈ (columns.map (·.1)).take j) :
    (putAll columns computed)[j]? = some (name, c) := by
  induction computed generalizing columns with
  | nil => exact hj
  | cons first rest ih =>
      obtain ⟨hfirst, hrest⟩ := List.forall_mem_cons.1 hmem
      have hnames := names_put first.2 hfirst
      have hstays : (put columns first.1 first.2)[j]? = some (name, c) := by
        rw [getElem?_put hj, if_neg]
        rintro ⟨rfl, hnotin⟩
        exact h.elim (fun h => h List.mem_cons_self) hnotin
      refine ih (fun x hx => hnames ▸ hrest x hx) hstays ?_
      rw [hnames]
      exact h.imp_left fun h hmem => h (List.mem_cons_of_mem _ hmem)

/-- The first column of a name becomes the computed one. -/
theorem getElem?_putAll_of_mem (hmem : ∀ x ∈ computed, x.1 ∈ columns.map (·.1))
    (hnodup : (computed.map (·.1)).Nodup) (hj : columns[j]? = some (name, c))
    (hfirst : name ∉ (columns.map (·.1)).take j) (hd : (name, d) ∈ computed) :
    (putAll columns computed)[j]? = some (name, d) := by
  induction computed generalizing columns c with
  | nil => cases hd
  | cons first rest ih =>
      obtain ⟨hhead, hrest⟩ := List.forall_mem_cons.1 hmem
      obtain ⟨hnotin, hnodup⟩ := List.nodup_cons.1 hnodup
      have hnames := names_put first.2 hhead
      have hput : (put columns first.1 first.2)[j]?
        = some (name, if _ then first.2 else c) := getElem?_put hj
      rw [putAll_cons]
      rcases List.mem_cons.1 hd with rfl | hd
      · rw [if_pos ⟨rfl, hfirst⟩] at hput
        exact getElem?_putAll_of_other (fun x hx => hnames ▸ hrest x hx) hput (.inl hnotin)
      · exact ih (fun x hx => hnames ▸ hrest x hx) hnodup hput (hnames ▸ hfirst) hd

/-- The order of computed columns does not matter. -/
theorem putAll_perm (h : computed.Perm computed')
    (hmem : ∀ x ∈ computed, x.1 ∈ columns.map (·.1)) (hnodup : (computed.map (·.1)).Nodup) :
    putAll columns computed = putAll columns computed' := by
  induction h generalizing columns with
  | nil => rfl
  | cons x _ ih =>
      obtain ⟨hx, hrest⟩ := List.forall_mem_cons.1 hmem
      have hnames := names_put x.2 hx
      exact ih (fun y hy => hnames ▸ hrest y hy) (List.nodup_cons.1 hnodup).2
  | swap x y rest =>
      obtain ⟨hy, hrest⟩ := List.forall_mem_cons.1 hmem
      obtain ⟨hx, -⟩ := List.forall_mem_cons.1 hrest
      have hne : y.1 ≠ x.1 :=
        fun heq => (List.nodup_cons.1 hnodup).1 (List.mem_cons.2 (.inl heq))
      rw [putAll_cons, putAll_cons, putAll_cons, putAll_cons, put_comm hne hy hx]
  | trans h _ ih ih' =>
      rw [ih hmem hnodup]
      exact ih' (fun x hx => hmem x (h.mem_iff.2 hx)) ((h.map _).nodup_iff.1 hnodup)

/-! ## Batches -/

theorem names_of_computed {items : List Expr}
    (h : List.Forall₂ (fun e c => c.1 = e.outputName ∧ b.compute b.rows e = .ok c.2)
      items computed) :
    computed.map (·.1) = items.map Expr.outputName := by
  rw [← List.forall₂_eq_eq_eq, List.forall₂_map_left_iff, List.forall₂_map_right_iff]
  exact (h.imp fun _ _ h => h.1).flip

/-- A batch is extended by the columns that are computed for the items, each under
the name of its item. -/
theorem extend_eq_ok {items : List Expr} :
    b.extend items = .ok out ↔ ∃ computed : List (String × Column), List.Forall₂
      (fun e c => c.1 = e.outputName ∧ b.compute b.rows e = .ok c.2) items computed
      ∧ (items.map Expr.outputName).Nodup
      ∧ out = { b with columns := putAll b.columns computed } := by
  constructor
  · intro h
    obtain ⟨computed, hcomputed, h⟩ := bind_eq_ok.1 h
    cases h
    obtain ⟨hnames, hall, hnodup, -⟩ := computeAll_eq_ok.1 hcomputed
    rw [← List.forall₂_eq_eq_eq, List.forall₂_map_left_iff, List.forall₂_map_right_iff]
      at hnames
    exact ⟨computed, hnames.flip.mp (fun _ _ h h' => ⟨h, h'⟩) hall, hnodup, rfl⟩
  · rintro ⟨computed, hall, hnodup, rfl⟩
    have hcomputed :=
      computeAll_eq_ok.2 ⟨names_of_computed hall, hall.imp fun _ _ h => h.2, hnodup,
        fun _ _ => List.not_mem_nil⟩
    exact bind_eq_ok.2 ⟨computed, hcomputed, rfl⟩

/-- Items for columns that are there can be given in any order. -/
theorem extend_perm {items items' : List Expr} (h : items.Perm items')
    (hnames : ∀ e ∈ items, e.outputName ∈ b.names) (hout : b.extend items = .ok out) :
    b.extend items' = .ok out := by
  obtain ⟨computed, hall, hnodup, rfl⟩ := extend_eq_ok.1 hout
  obtain ⟨computed', hall', hperm⟩ := List.perm_comp_forall₂ h.symm hall
  have hcomputed := names_of_computed hall
  refine extend_eq_ok.2 ⟨computed', hall', (h.map _).nodup_iff.1 hnodup, ?_⟩
  rw [putAll_perm hperm.symm ?_ (hcomputed ▸ hnodup)]
  intro x hx
  have hmem : x.1 ∈ items.map Expr.outputName := hcomputed ▸ List.mem_map_of_mem hx
  obtain ⟨e, he, hname⟩ := List.mem_map.1 hmem
  exact hname ▸ hnames e he

end TypedQuery.Batch

namespace TypedQuery

/-- Null, or not a number. -/
def Cell.vacant (cell : Cell) : Bool := cell.isNull || cell.float?.any Double.isNaN

namespace Column

variable {c d k l out : Column} {rows i : Nat} {t : Physical}

/-! ## Cells -/

theorem float?_eq_none (h : c.Typed) (ht : c.type ≠ .float64) {cell : Cell}
    (hcell : cell ∈ c.cells) : cell.float? = none := by
  have hfits := h cell hcell
  cases cell with
  | float x =>
      cases htype : c.type <;> rw [htype] at hfits ht <;> first
        | exact absurd rfl ht
        | cases hfits
  | _ => rfl

theorem type_fillNan (h : c.fillNan k = .ok out) (ht : c.type = .float64) :
    out.type = .float64 := by
  obtain ⟨fill, hfill, h⟩ := bind_eq_ok.1 h
  have hcommon := type_select _ _ _ _ h
  rw [ht, type_cast _ _ _ hfill, commonType_self] at hcommon
  exact (Except.ok.inj hcommon).symm

/-- Where there is no number, the other column stands in. -/
theorem row_fillNan (h : c.fillNan k = .ok out) (ht : c.type = .float64)
    (hi : i < out.length) :
    ∃ w, Converts k.type .float64 (k.row i) w
      ∧ out.row i = if (c.row i).float?.any Double.isNaN then w else c.row i := by
  have hspans : ∀ d ∈ [c, k], d.Spans out.length :=
    spans_of_covers (covers_fillNan c k out h)
  have htype := type_fillNan h ht
  obtain ⟨fill, hfill, h⟩ := bind_eq_ok.1 h
  obtain ⟨x, y, -, hx, hy, hrow⟩ := row_select (k := c) h hi
  rw [htype, ht] at hx
  rw [htype, type_cast _ _ _ hfill] at hy
  refine ⟨fill.row i, row_cast hfill (hspans k (by simp)) hi, ?_⟩
  rw [hrow, hx.unique (.self _ _), hy.unique (.self _ _)]
  cases (c.row i).float?.any Double.isNaN <;> rfl

/-- The column with what a constant column gives in its vacant cells, all in the declared
type. -/
def Supplied (k : Column) (declared : Physical) (rows : Nat) (c d : Column) : Prop :=
  d.type = declared ∧ d.length = rows ∧ ∀ i < rows, ∃ w, Converts k.type c.type (k.row i) w
    ∧ Converts c.type declared (if (c.row i).vacant then w else c.row i) (d.row i)

/-- Without a change of the type no other cell is changed. -/
theorem Supplied.row_eq (h : Supplied k t rows c d) (ht : c.type = t) (hi : i < rows) :
    ∃ w, Converts k.type c.type (k.row i) w ∧ d.row i = if (c.row i).vacant then w
      else c.row i := by
  obtain ⟨w, hw, hrow⟩ := h.2.2 i hi
  rw [ht] at hrow
  exact ⟨w, hw, hrow.unique (.self _ _)⟩

theorem length_of_beside (hl : l.length = rows) (hk : k.length = rows)
    (h : Covers [l.length, k.length] out.length) :
    out.length = rows := by
  have hmem := h.1
  simp only [hl, hk, List.mem_cons, List.not_mem_nil, or_false, or_self] at hmem
  exact hmem

/-- Filling what is not a number and then what is null fills what is vacant. -/
theorem row_filled (hc : c.Typed) (hlength : c.length = rows) (hk : k.length = rows)
    (hl : (if c.type = .float64 then c.fillNan k else .ok c) = .ok l)
    (hout : l.orElse k = .ok out) :
    out.type = c.type ∧ out.length = rows
      ∧ ∀ i < rows, ∃ w, Converts k.type c.type (k.row i) w
        ∧ out.row i = if (c.row i).vacant then w else c.row i := by
  have htype := type_orElse l k out hout
  by_cases ht : c.type = .float64
  · rw [if_pos ht] at hl
    have hllength := length_of_beside hlength hk (covers_fillNan c k l hl)
    have houtlength := length_of_beside hllength hk (covers_orElse l k out hout)
    have hltype := type_fillNan hl ht
    refine ⟨htype.trans (hltype.trans ht.symm), houtlength, fun i hi => ?_⟩
    obtain ⟨w, hw, hlrow⟩ := row_fillNan hl ht (hllength.symm ▸ hi)
    obtain ⟨w', hw', hrow⟩ := row_orElse hout (houtlength.symm ▸ hi)
    rw [hltype] at hw'
    obtain rfl := hw.unique hw'
    refine ⟨w, ht ▸ hw, ?_⟩
    by_cases hnan : (c.row i).float?.any Double.isNaN = true
    · rw [hrow, hlrow, if_pos hnan, ite_self,
        if_pos (by rw [Cell.vacant, hnan, Bool.or_true])]
    · rw [hrow, hlrow, if_neg hnan, Cell.vacant, Bool.eq_false_iff.2 hnan, Bool.or_false]
  · rw [if_neg ht] at hl
    cases hl
    have houtlength := length_of_beside hlength hk (covers_orElse c k out hout)
    refine ⟨htype, houtlength, fun i hi => ?_⟩
    obtain ⟨w, hw, hrow⟩ := row_orElse hout (houtlength.symm ▸ hi)
    refine ⟨w, hw, ?_⟩
    rw [hrow, Cell.vacant, float?_eq_none hc ht (row_mem (.inl hlength) hi),
      Option.any_none, Bool.or_false]

/-- What is computed for a column that is filled. -/
theorem supplied_of_compute {b : Batch} (hb : b.Rectangular) (htyped : b.Typed)
    {column : ColumnInfo} {v : Value} (hc : b.column? column.name = some c)
    (h : b.compute b.rows (Engine.filledColumn column v) = .ok d) :
    ∃ k, (Expr.constant v).evaluate b = .ok k
      ∧ Supplied k (.ofLogical column.dataType) b.rows c d := by
  obtain ⟨e, he, hd⟩ := bind_eq_ok.1 h
  obtain ⟨out, hout, he⟩ := bind_eq_ok.1 he
  obtain ⟨l, hl, hout⟩ := bind_eq_ok.1 hout
  obtain ⟨k, hk, hout⟩ := bind_eq_ok.1 hout
  obtain ⟨c', hc', hl⟩ := bind_eq_ok.1 hl
  have hfound : (Expr.column column.name).evaluate b = .ok c := by
    rw [Expr.evaluate, Expr.findColumn, hc]
  cases hc'.symm.trans hfound
  have hmem : ∃ name, (name, c) ∈ b.columns := by
    obtain ⟨named, hnamed, rfl⟩ := Option.map_eq_some_iff.1 hc
    exact ⟨named.1, List.mem_of_find?_eq_some hnamed⟩
  obtain ⟨name, hmem⟩ := hmem
  have hlength : c.length = b.rows := hb _ hmem
  have hklength : k.length = b.rows := length_literal v v.dataType b.rows k hk
  have hl' : (if c.type = .float64 then c.fillNan k else .ok c) = .ok l := by
    split at hl
    · next ht =>
        obtain ⟨k', hk', hl⟩ := bind_eq_ok.1 hl
        cases hk.symm.trans hk'
        rw [if_pos ht, hl]
    · next ht => rw [if_neg ht, hl]
  obtain ⟨houttype, houtlength, hrows⟩ :=
    row_filled (htyped _ hmem) hlength hklength hl' hout
  have helength : e.length = b.rows := (length_cast he).trans houtlength
  rw [Column.broadcast, if_pos helength] at hd
  cases hd
  refine ⟨k, hk, type_cast _ _ _ he, helength, fun i hi => ?_⟩
  obtain ⟨w, hw, hrow⟩ := hrows i hi
  have hcast := row_cast he (.inl houtlength) hi
  rw [houttype, hrow] at hcast
  exact ⟨w, hw, hcast⟩

end Column

/-! ## What is filled -/

namespace Engine

variable {config : Config} {clock : Clock} {catalog : Catalog} {n n' m : Node} {t : Schema}
    {a : Arg} {before out : Batch}
  {entries entries' : List (String × Arg)} {filled : List (ColumnInfo × Value)}
  {column : ColumnInfo} {v : Value}

/-- The column of the schema is filled with the constant: it is named with it, or the only
constant can be compared with it. -/
def Fills (n : Node) (t : Schema) (a : Arg) (column : ColumnInfo) (v : Value) : Prop :=
  match a with
  | .map entries =>
    ∃ value, (column.name, value) ∈ entries ∧ t.column? column.name = some column
      ∧ replacement n value = .ok v
  | a => replacement n a = .ok v ∧ column ∈ t.columns
    ∧ v.dataType.isComparableWith column.dataType = true

theorem namedFills_eq_ok : namedFills n t entries = .ok filled ↔
    List.Forall₂ (fun entry fill => t.column? entry.1 = some fill.1
      ∧ replacement n entry.2 = .ok fill.2) entries filled := by
  induction entries generalizing filled with
  | nil => exact ⟨fun h => by cases h; exact .nil, fun h => by cases h; rfl⟩
  | cons entry rest ih =>
      obtain ⟨name, value⟩ := entry
      rw [namedFills]
      constructor
      · intro h
        split at h
        · cases h
        · next column hcolumn =>
            obtain ⟨v, hv, h⟩ := bind_eq_ok.1 h
            obtain ⟨more, hmore, h⟩ := bind_eq_ok.1 h
            cases h
            exact .cons ⟨hcolumn, hv⟩ (ih.1 hmore)
      · intro h
        cases h with
        | cons hfill hrest =>
            obtain ⟨hcolumn, hv⟩ := hfill
            rw [hcolumn]
            exact bind_eq_ok.2 ⟨_, hv, bind_eq_ok.2 ⟨_, ih.2 hrest, rfl⟩⟩

theorem name_of_column? {name : String} (h : t.column? name = some column) :
    column.name = name := by
  simpa using List.find?_some h

theorem mem_fills (h : fills n t a = .ok filled) :
    (column, v) ∈ filled ↔ Fills n t a column v := by
  unfold fills at h
  split at h
  · next entries =>
      have hall := namedFills_eq_ok.1 h
      constructor
      · intro hmem
        obtain ⟨⟨name, value⟩, hentry, hcolumn, hv⟩ := exists_of_forall₂_right hall hmem
        obtain rfl := name_of_column? hcolumn
        exact ⟨value, hentry, hcolumn, hv⟩
      · rintro ⟨value, hentry, hcolumn, hv⟩
        obtain ⟨⟨column', v'⟩, hmem, hcolumn', hv'⟩ :=
          exists_of_forall₂_right hall.flip hentry
        cases hcolumn.symm.trans hcolumn'
        cases hv.symm.trans hv'
        exact hmem
  · next hmap =>
      obtain ⟨v', hv', h⟩ := bind_eq_ok.1 h
      cases h
      have hfills : Fills n t a column v
          ↔ replacement n a = .ok v ∧ column ∈ t.columns
            ∧ v.dataType.isComparableWith column.dataType = true := by
        unfold Fills
        split
        · next entries => exact absurd rfl (hmap entries)
        · rfl
      rw [hfills, hv']
      constructor
      · intro hmem
        obtain ⟨_, hcolumn, heq⟩ := List.mem_map.1 hmem
        cases heq
        exact ⟨rfl, List.mem_filter.1 hcolumn⟩
      · rintro ⟨heq, hcolumn⟩
        cases heq
        exact List.mem_map.2 ⟨column, List.mem_filter.2 hcolumn, rfl⟩

/-- Which constant stands in a field does not depend on the node. -/
theorem replacement_eq_ok (h : replacement n a = .ok v) : replacement n' a = .ok v := by
  cases a with
  | node child =>
      unfold replacement at h ⊢
      cases hliteral : child.literal? with
      | some w => simpa only [hliteral] using h
      | none => simp only [hliteral, reduceCtorEq] at h
  | value w => exact h
  | _ => cases h

theorem fills_perm (h : fills n t (.map entries) = .ok filled)
    (hperm : entries.Perm entries') :
    ∃ filled', fills n' t (.map entries') = .ok filled' ∧ filled.Perm filled' := by
  obtain ⟨filled', hall, hfilled⟩ := List.perm_comp_forall₂ hperm.symm (namedFills_eq_ok.1 h)
  exact ⟨filled', namedFills_eq_ok.2 (hall.imp fun _ _ h => h.imp_right replacement_eq_ok),
    hfilled.symm⟩

/-- A table that is filled executes if it can be extended by what is computed for the
columns that are filled. -/
theorem execute_filled_eq_ok (h : n.Built) (hk : n.kind = .fillNa)
    (hm : n.child "table" = .ok m) (ht : m.outputSchema = .ok t)
    (ha : n.field "replacements" = .ok a) :
    execute config clock n catalog = .ok out ↔ ∃ filled before, fills n t a = .ok filled
      ∧ execute config clock m catalog = .ok before
      ∧ before.extend (filled.map fun fill => filledColumn fill.1 fill.2) = .ok out := by
  have hresolve : rules.resolve n.kind = .ok (.fillNa, fillNullsRule) :=
    resolve_of_kind hk rfl
  have hbm := h.of_child hm
  rw [execute_eq_ok h]
  constructor
  · rintro ⟨p, hp, hout⟩
    cases planned h hp (by rw [hk]; rfl) with
    | fillNulls _ hm' ht' ha' hfilled hinput =>
        cases hm.symm.trans hm'
        cases ht.symm.trans ht'
        cases ha.symm.trans ha'
        obtain ⟨before, hbefore, hout⟩ := execute_filledBy.1 hout
        exact ⟨_, before, hfilled, (execute_eq_ok hbm).2 ⟨_, hinput, hbefore⟩, hout⟩
    | stored hk' | given hk' | whole hk' | selection hk' | aggregation hk' | limit hk'
    | distinct hk' | dropNulls hk' | undropped hk' | join hk' | rightJoin hk' =>
        exact absurd hk' (by simp [hk, plainJoins])
  · rintro ⟨filled, before, hfilled, hbefore, hout⟩
    obtain ⟨input, hinput, hbefore⟩ := (execute_eq_ok hbm).1 hbefore
    have hplan : planOf clock n = .ok (filledBy input filled) := by
      have hrun : (fillNullsRule (lowered clock) n).run ⟨clock, none⟩
          = (.ok (.plan (filledBy input filled)), ⟨clock, none⟩) := by
        rw [fillNullsRule, hm]
        show ((liftM m.outputSchema >>= _ : Lowering _).run _) = _
        rw [ht, ha]
        show ((liftM (fills n t a) >>= _ : Lowering _).run _) = _
        rw [hfilled]
        show ((plan (lowered clock) n "table" >>= _).run _) = _
        rw [Emission.run_bind_of_ok (run_plan hm hinput _)]
        rfl
      rw [planOf_eq_result h clock hresolve, Emission.result, hrun]
      rfl
    exact ⟨_, hplan, execute_filledBy.2 ⟨before, hbefore, hout⟩⟩

end Engine

/-- The first column of a name is the one that the name means. -/
theorem Batch.column?_of_first {b : Batch} {j : Nat} {name : String} {c : Column}
    (hj : b.columns[j]? = some (name, c)) (h : name ∉ b.names.take j) :
    b.column? name = some c := by
  obtain ⟨rows, columns⟩ := b
  simp only [names] at h
  simp only [column?] at hj ⊢
  induction columns generalizing j with
  | nil => cases hj
  | cons first rest ih =>
      cases j with
      | zero =>
          cases hj
          simp
      | succ j =>
          rw [List.map_cons, List.take_succ_cons, List.mem_cons, not_or] at h
          rw [List.find?_cons_of_neg (by simpa using Ne.symm h.1)]
          exact ih hj h.2

/-- Filling keeps the number of rows and the names of the columns. A column that is not
filled stays where it is. One that is filled takes the constant, converted to its type,
where it is null or not a number, and is then converted as a whole to the type that is
declared for it; if it has that type already, all other cells stay. In which order a
mapping names the columns is of no account. -/
theorem filled_cells {config : Config} {clock : Engine.Clock} {catalog : Catalog}
    {n m : Node} {t : Schema} {a : Arg} {out : Batch} (h : n.Built) (hk : n.kind = .fillNa)
    (hm : n.child "table" = .ok m) (ht : m.outputSchema = .ok t)
    (ha : n.field "replacements" = .ok a) (hrectangular : catalog.Rectangular)
    (htyped : catalog.Typed) (hout : Engine.execute config clock n catalog = .ok out) :
    ∃ before, Engine.execute config clock m catalog = .ok before ∧ out.rows = before.rows
      ∧ out.names = before.names
      ∧ (∀ j name c, before.columns[j]? = some (name, c) →
        ((∀ column v, Engine.Fills n t a column v → column.name ≠ name)
          ∨ name ∈ before.names.take j →
          out.columns[j]? = some (name, c))
        ∧ ∀ column v, Engine.Fills n t a column v → column.name = name →
          name ∉ before.names.take j →
          ∃ k d, (Expr.constant v).evaluate before = .ok k ∧ out.columns[j]? = some (name, d)
            ∧ Column.Supplied k (.ofLogical column.dataType) before.rows c d
            ∧ (c.type = .ofLogical column.dataType →
              d.type = c.type ∧ ∀ i < before.rows, ∃ w, Converts k.type c.type (k.row i) w
                ∧ d.row i = if (c.row i).vacant then w else c.row i))
      ∧ ∀ n' entries entries', n'.Built → n'.kind = .fillNa → n'.child "table" = .ok m →
        a = .map entries →
        n'.field "replacements" = .ok (.map entries') → entries.Perm entries' →
          Engine.execute config clock n' catalog = .ok out := by
  obtain ⟨filled, before, hfilled, hbefore, hextend⟩ :=
    (Engine.execute_filled_eq_ok h hk hm ht ha).1 hout
  have hbm := h.of_child hm
  have htable : m.kind.isTable = true := h.isTable_of_child (by rw [hk]; rfl) hm
  have hb : before.Rectangular :=
    Engine.preserved_execute Batch.preserved_rectangular hbm htable
      hrectangular before hbefore
  have hbtyped : before.Typed := Engine.typed_execute hbm htable htyped hbefore
  have hthere := Engine.names_of_filled hextend
  obtain ⟨computed, hall, hnodup, rfl⟩ := Batch.extend_eq_ok.1 hextend
  have hcomputed := Batch.names_of_computed hall
  have hmem : ∀ x ∈ computed, x.1 ∈ before.names := by
    intro x hx
    have hmem : x.1
        ∈ (filled.map fun fill => Engine.filledColumn fill.1 fill.2).map Expr.outputName :=
      hcomputed ▸ List.mem_map_of_mem hx
    obtain ⟨e, he, hname⟩ := List.mem_map.1 hmem
    exact hname ▸ hthere e he
  refine ⟨before, hbefore, rfl, Batch.names_extend hthere hextend,
    fun j name c hj => ⟨fun hother => ?_, ?_⟩, ?_⟩
  · refine Batch.getElem?_putAll_of_other hmem hj (hother.imp_left fun hother hname => ?_)
    rw [hcomputed, List.map_map] at hname
    obtain ⟨⟨column, v⟩, hfill, hname⟩ := List.mem_map.1 hname
    exact hother column v ((Engine.mem_fills hfilled).1 hfill) hname
  · rintro column v hfills rfl hfirst
    obtain ⟨x, hx, hname, hcompute⟩ := exists_of_forall₂_right hall.flip
      (List.mem_map_of_mem (f := fun fill => Engine.filledColumn fill.1 fill.2)
        ((Engine.mem_fills hfilled).2 hfills))
    obtain ⟨k, hk, hcells⟩ :=
      Column.supplied_of_compute hb hbtyped (Batch.column?_of_first hj hfirst) hcompute
    have hx' : (column.name, x.2) ∈ computed := by
      have hpair : x = (column.name, x.2) := Prod.ext hname rfl
      exact hpair ▸ hx
    refine ⟨k, x.2, hk, Batch.getElem?_putAll_of_mem hmem (hcomputed ▸ hnodup) hj hfirst hx',
      hcells, fun htype => ?_⟩
    exact ⟨hcells.1.trans htype.symm, fun i hi => hcells.row_eq htype hi⟩
  · rintro n' entries entries' h' hk' hm' rfl ha' hperm
    obtain ⟨filled', hfilled', hfills⟩ := Engine.fills_perm hfilled hperm
    exact (Engine.execute_filled_eq_ok h' hk' hm' ht ha').2
      ⟨filled', before, hfilled', hbefore, Batch.extend_perm (hfills.map _) hthere hextend⟩

/-- Two columns are filled with constants of their own, in either order, and the third one
stays. -/
theorem filled_cells_by_name :
    ∃ (source n n' : Node) (catalog : Catalog) (out : Batch) (a c : Column),
      Node.databaseTable "t"
        ⟨[⟨"a", .int32, true⟩, ⟨"s", .string, true⟩, ⟨"c", .int64, true⟩]⟩ = .ok source
        ∧ Node.build .fillNa [.node source,
          .map [("c", .value (.int64 7)), ("a", .value (.int64 5))]] [] = .ok n
        ∧ Node.build .fillNa [.node source,
          .map [("a", .value (.int64 5)), ("c", .value (.int64 7))]] [] = .ok n'
        ∧ catalog = ⟨[("t",
          ⟨2, [("a", ⟨.int32, [.null, .int 1]⟩), ("s", ⟨.text, [.null, .text "z"]⟩),
            ("c", ⟨.int64, [.int 3, .null]⟩)]⟩)], {}⟩
        ∧ Engine.execute {} ⟨0⟩ n catalog = .ok out
        ∧ Engine.execute {} ⟨0⟩ n' catalog = .ok out
        ∧ out.names = ["a", "s", "c"] ∧ out.columns[0]? = some ("a", a)
        ∧ out.columns[1]? = some ("s", ⟨.text, [.null, .text "z"]⟩)
        ∧ out.columns[2]? = some ("c", c)
        ∧ a.type = .int32 ∧ a.row 0 = .int 5 ∧ a.row 1 = .int 1
        ∧ c.type = .int64 ∧ c.row 0 = .int 3 ∧ c.row 1 = .int 7 := by
  obtain ⟨catalog, hcatalog⟩ : ∃ catalog : Catalog,
      catalog = ⟨[("t",
        ⟨2, [("a", ⟨.int32, [.null, .int 1]⟩), ("s", ⟨.text, [.null, .text "z"]⟩),
          ("c", ⟨.int64, [.int 3, .null]⟩)]⟩)], {}⟩ := ⟨_, rfl⟩
  obtain ⟨source, n, n', ⟨hsource, hn, hn'⟩, ⟨hk, hm, ht, ha⟩,
    ⟨hk', hm', ha'⟩, hrun, hruns⟩ :
      ∃ source n n' : Node,
        (Node.databaseTable "t"
          ⟨[⟨"a", .int32, true⟩, ⟨"s", .string, true⟩, ⟨"c", .int64, true⟩]⟩ = .ok source
            ∧ Node.build .fillNa [.node source,
              .map [("c", .value (.int64 7)), ("a", .value (.int64 5))]] [] = .ok n
            ∧ Node.build .fillNa [.node source,
              .map [("a", .value (.int64 5)), ("c", .value (.int64 7))]] [] = .ok n')
          ∧ (n.kind = .fillNa ∧ n.child "table" = .ok source
            ∧ source.outputSchema
              = .ok ⟨[⟨"a", .int32, true⟩, ⟨"s", .string, true⟩, ⟨"c", .int64, true⟩]⟩
            ∧ n.field "replacements"
              = .ok (.map [("c", .node (Node.literal (.int64 7))),
                ("a", .node (Node.literal (.int64 5)))]))
          ∧ (n'.kind = .fillNa ∧ n'.child "table" = .ok source
            ∧ n'.field "replacements"
              = .ok (.map [("a", .node (Node.literal (.int64 5))),
                ("c", .node (Node.literal (.int64 7)))]))
          ∧ Engine.execute {} ⟨0⟩ source catalog = .ok ⟨2, [("a", ⟨.int32, [.null, .int 1]⟩),
            ("s", ⟨.text, [.null, .text "z"]⟩), ("c", ⟨.int64, [.int 3, .null]⟩)]⟩
          ∧ ∃ out, Engine.execute {} ⟨0⟩ n catalog = .ok out := by
    subst hcatalog
    exact ⟨_, _, _, ⟨rfl, rfl, rfl⟩, ⟨rfl, rfl, rfl, rfl⟩, ⟨rfl, rfl, rfl⟩, rfl, _, rfl⟩
  obtain ⟨out, hout⟩ := hruns
  have bsource := Node.built_databaseTable hsource
  have hbuilt {k : Node} {entries : List (String × Arg)}
      (hentries : Arg.nodesOfFields entries = [])
      (h : Node.build .fillNa [.node source, .map entries] [] = .ok k) : k.Built := by
    refine .of_build h (fun m hm => ?_) nofun
    simp only [Arg.nodesOfItems, Arg.nodes, hentries, List.append_nil,
      List.mem_singleton] at hm
    exact hm ▸ bsource
  have hrectangular : catalog.Rectangular := by
    subst hcatalog
    unfold Catalog.Rectangular
    decide
  have htyped : catalog.Typed := by
    subst hcatalog
    unfold Catalog.Typed Batch.Typed Column.Typed
    decide
  obtain ⟨before, hbefore, -, hnames, hcolumns, hperm⟩ :=
    filled_cells (hbuilt rfl hn) hk hm ht ha hrectangular htyped hout
  cases hrun.symm.trans hbefore
  obtain ⟨ka, a, hka, haj, -, hafilled⟩ :=
    (hcolumns 0 "a" _ rfl).2 ⟨"a", .int32, true⟩ (.int64 5)
    ⟨_, List.mem_cons_of_mem _ List.mem_cons_self, rfl, rfl⟩ rfl List.not_mem_nil
  obtain ⟨kc, c, hkc, hcj, -, hcfilled⟩ :=
    (hcolumns 2 "c" _ rfl).2 ⟨"c", .int64, true⟩ (.int64 7)
    ⟨_, List.mem_cons_self, rfl, rfl⟩ rfl (by decide)
  have hs := (hcolumns 1 "s" _ rfl).1 (.inl fun column v hfills hname => by
    obtain ⟨value, hentry, -⟩ := hfills
    simp [hname] at hentry)
  cases hka
  cases hkc
  obtain ⟨hatype, harows⟩ := hafilled rfl
  obtain ⟨hctype, hcrows⟩ := hcfilled rfl
  obtain ⟨wa, hwa, ha0⟩ := harows 0 (show 0 < 2 by decide)
  obtain ⟨_, -, ha1⟩ := harows 1 (show 1 < 2 by decide)
  obtain ⟨_, -, hc0⟩ := hcrows 0 (show 0 < 2 by decide)
  obtain ⟨wc, hwc, hc1⟩ := hcrows 1 (show 1 < 2 by decide)
  have hfive : wa = .int 5 :=
    hwa.unique (show Converts .int64 .int32 (.int 5) (.int 5) from rfl)
  have hseven : wc = .int 7 := hwc.unique (.self _ _)
  refine ⟨source, n, n', catalog, out, a, c, hsource, hn, hn', hcatalog, hout,
    hperm n' _ _ (hbuilt rfl hn') hk' hm' rfl ha' (.swap _ _ _), hnames, haj, hs, hcj,
    hatype, ?_, ha1, hctype, hc0, ?_⟩
  · rw [ha0, hfive]
    rfl
  · rw [hc1, hseven]
    rfl

/-- A column that is declared narrower than it is executed loses what has no room in the
declared type, where nothing was to be filled at all. -/
theorem filled_cells_narrowed :
    ∃ source p q bits x m n : Node,
      Node.databaseTable "t" ⟨[⟨"p", .int32, true⟩, ⟨"q", .int32, true⟩]⟩ = .ok source
        ∧ Node.column source "p" = .ok p ∧ Node.column source "q" = .ok q
        ∧ Node.build .bitwiseLeftShift [.node p, .node q] [] = .ok bits
        ∧ Node.rename (.node bits) "x" = .ok x
        ∧ Node.build .selection [.node source] [("selections", .seq [.node x])] = .ok m
        ∧ Node.build .fillNa [.node m, .map [("x", .value (.int64 0))]] [] = .ok n
        ∧ ∀ catalog : Catalog, catalog
          = ⟨[("t", ⟨1, [("p", ⟨.int32, [.int 1]⟩), ("q", ⟨.int32, [.int 40]⟩)]⟩)], {}⟩ →
          Engine.execute {} ⟨0⟩ m catalog = .ok ⟨1, [("x", ⟨.int64, [.int 1099511627776]⟩)]⟩
            ∧ Engine.execute {} ⟨0⟩ n catalog = .ok ⟨1, [("x", ⟨.int32, [.null]⟩)]⟩ := by
  refine ⟨_, _, _, _, _, _, _, rfl, rfl, rfl, rfl, rfl, rfl, rfl, ?_⟩
  rintro _ rfl
  constructor <;> with_unfolding_all decide

end TypedQuery
