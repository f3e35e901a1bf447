import TypedQuery.Proofs.Columnar.ResultTypes
import TypedQuery.Proofs.Plan.Join

/-!
# Types of executed columns

Steps that choose or order rows keep the types of all columns. A computed column has a type
that its expression gives over some batch with the same columns (`Expr.MayGive`). The
metrics of an aggregation are computed for one group after the other, or for no rows at all
where there is no group, and each of these batches has the columns of the whole.
-/

namespace TypedQuery

namespace Schema

/-- The names of the columns with the types that they are stored with. -/
def header (s : Schema) : List (String × Physical) :=
  s.columns.map fun c => (c.name, .ofLogical c.dataType)

/-- The types that the columns are stored with. -/
def types (s : Schema) : List Physical := s.columns.map fun c => .ofLogical c.dataType

end Schema

namespace Batch

variable {b out : Batch} {s : Schema}

/-- The batch has the columns of the schema, with their types. -/
def Matches (b : Batch) (s : Schema) : Prop := b.header = s.header

instance : Decidable (b.Matches s) := inferInstanceAs (Decidable (_ = _))

theorem matches_iff : b.Matches s ↔ b.names = s.names ∧ b.types = s.types := by
  have hzip {α : Type} (xs : List α) (f : α → String) (g : α → Physical) :
      xs.map (fun x => (f x, g x)) = (xs.map f).zip (xs.map g) := by
    induction xs with
    | nil => rfl
    | cons x rest ih => rw [List.map_cons, ih]; rfl
  constructor
  · intro h
    rw [names_eq_header, types_eq_header, h]
    simp [Schema.header, Schema.names, Schema.types, Function.comp_def]
  · rintro ⟨hnames, htypes⟩
    rw [Matches, header, Schema.header, hzip, hzip]
    exact congrArg₂ List.zip hnames htypes

theorem Matches.names (h : b.Matches s) : b.names = s.names := (matches_iff.1 h).1

theorem Matches.types (h : b.Matches s) : b.types = s.types := (matches_iff.1 h).2

theorem Matches.of_header (h : b.Matches s) (hout : out.header = b.header) :
    out.Matches s := hout.trans h

theorem Matches.type_eq (h : b.Matches s) {name : String} {c : Column}
    (hc : b.column? name = some c) :
    (s.dataType? name).map .ofLogical = some c.type := by
  have hfind := congrArg (fun columns => (columns.find? (·.1 == name)).map (·.2)) h
  simp only [header, Schema.header, List.find?_map, Option.map_map] at hfind
  rw [Schema.dataType?, Schema.column?, Option.map_map]
  refine hfind.symm.trans ?_
  obtain ⟨d, hd, rfl⟩ := Option.map_eq_some_iff.1 hc
  exact congrArg (Option.map _) hd

end Batch

/-- The expression gives a column of the type over some batch with the columns of the
schema. -/
def Expr.MayGive (s : Schema) (e : Expr) (t : Physical) : Prop :=
  ∃ b c, b.Matches s ∧ e.evaluate b = .ok c ∧ c.type = t

namespace Batch

variable {b out : Batch} {s : Schema} {items : List Expr}

/-! ## Computed columns -/

theorem mayGive_compute (hb : b.Matches s) {rows : Nat} {e : Expr} {c : Column}
    (h : b.compute rows e = .ok c) :
    e.MayGive s c.type := by
  obtain ⟨d, hd, h⟩ := bind_eq_ok.1 h
  exact ⟨b, d, hb, hd, (Column.type_broadcast d rows c h).symm⟩

theorem mayGive_computeAll (hb : b.Matches s) {rows : Nat} {seen : List String}
    {columns : List (String × Column)} (h : b.computeAll rows seen items = .ok columns) :
    List.Forall₂ (fun e c => c.1 = e.outputName ∧ e.MayGive s c.2.type) items columns := by
  obtain ⟨hnames, hall, -⟩ := computeAll_eq_ok.1 h
  clear h
  induction hall with
  | nil => exact .nil
  | cons hc _ ih =>
      obtain ⟨hname, hnames⟩ := List.cons.inj hnames
      exact .cons ⟨hname, mayGive_compute hb hc⟩ (ih hnames)

theorem mayGive_select (hb : b.Matches s) (h : b.select items = .ok out) :
    List.Forall₂ (fun e c => c.1 = e.outputName ∧ e.MayGive s c.2.type) items
      out.columns := by
  obtain ⟨columns, hcolumns, h⟩ := bind_eq_ok.1 h
  cases h
  exact mayGive_computeAll hb hcolumns

theorem mayGive_computeKeys (hb : b.Matches s) {columns : List Column}
    (h : b.computeKeys items = .ok columns) :
    List.Forall₂ (fun e c => e.MayGive s c.type) items columns := by
  induction items generalizing columns with
  | nil => cases h; exact .nil
  | cons e rest ih =>
      obtain ⟨here, hhere, h⟩ := bind_eq_ok.1 h
      obtain ⟨more, hmore, h⟩ := bind_eq_ok.1 h
      cases h
      exact .cons (mayGive_compute hb hhere) (ih hmore)

/-! ## Columns in place of others -/

/-- A column that takes the place of one of its name and type. -/
theorem header_put {columns : List (String × Column)} {name : String} {c : Column}
    (hnodup : (columns.map (·.1)).Nodup)
    (h : (name, c.type) ∈ columns.map fun c => (c.1, c.2.type)) :
    (put columns name c).map (fun c => (c.1, c.2.type)) = columns.map fun c =>
      (c.1, c.2.type) := by
  induction columns with
  | nil => cases h
  | cons d rest ih =>
      obtain ⟨other, d⟩ := d
      obtain ⟨hnew, hnodup⟩ := List.nodup_cons.1 hnodup
      rw [put]
      rcases List.mem_cons.1 h with heq | h
      · obtain ⟨rfl, htype⟩ := Prod.mk.inj heq
        rw [if_pos rfl, List.map_cons, List.map_cons, htype]
      · have hne : other ≠ name := by
          rintro rfl
          obtain ⟨x, hx, heq⟩ := List.mem_map.1 h
          exact hnew (List.mem_map.2 ⟨x, hx, (Prod.mk.inj heq).1⟩)
        rw [if_neg hne, List.map_cons, List.map_cons, ih hnodup h]

theorem header_foldl_put {columns computed : List (String × Column)}
    (hnodup : (columns.map (·.1)).Nodup)
    (h : ∀ c ∈ computed, (c.1, c.2.type) ∈ columns.map fun c => (c.1, c.2.type)) :
    (computed.foldl (fun columns c => put columns c.1 c.2) columns).map
      (fun c => (c.1, c.2.type))
      = columns.map fun c => (c.1, c.2.type) := by
  induction computed generalizing columns with
  | nil => rfl
  | cons c rest ih =>
      obtain ⟨hc, hrest⟩ := List.forall_mem_cons.1 h
      have hput := header_put hnodup hc
      have hnames := congrArg (List.map Prod.fst) hput
      simp only [List.map_map, Function.comp_def] at hnames
      rw [List.foldl_cons, ih (hnames ▸ hnodup) fun d hd => hput ▸ hrest d hd, hput]

/-- Computed columns that have the types of those whose place they take. -/
theorem header_extend (hb : b.Matches s) (hnodup : s.names.Nodup)
    (hitems : ∀ e ∈ items, ∀ t, e.MayGive s t → (e.outputName, t) ∈ s.header)
    (h : b.extend items = .ok out) :
    out.header = b.header := by
  obtain ⟨computed, hcomputed, h⟩ := bind_eq_ok.1 h
  cases h
  refine header_foldl_put (by rw [← hb.names] at hnodup; exact hnodup) fun c hc => ?_
  obtain ⟨e, he, hname, hgive⟩ :=
    exists_of_forall₂_right (mayGive_computeAll hb hcomputed) hc
  rw [hname, ← header, hb]
  exact hitems e he _ hgive

/-! ## Groups -/

theorem mayGive_reduceAll (hb : b.Matches s) {columns : List Column}
    (h : b.reduceAll items = .ok columns) :
    List.Forall₂ (fun e c => e.MayGive s c.type) items columns := by
  induction items generalizing columns with
  | nil => cases h; exact .nil
  | cons e rest ih =>
      obtain ⟨here, hhere, h⟩ := bind_eq_ok.1 h
      obtain ⟨more, hmore, h⟩ := bind_eq_ok.1 h
      cases h
      obtain ⟨c, hc, hhere⟩ := bind_eq_ok.1 hhere
      cases hhere
      exact .cons ⟨b, c, hb, hc, rfl⟩ (ih hmore)

theorem type_stack {first c : Column} {rest : List Column}
    (h : stack (first :: rest) = .ok c) : c.type = first.type := by
  rw [stack] at h
  split at h
  · cases h; rfl
  · cases h

theorem stackAll_eq_ok {parts : List (List Column)} {columns : List Column}
    (h : stackAll parts = .ok columns) :
    List.Forall₂ (fun part c => stack part = .ok c) parts columns := by
  induction parts generalizing columns with
  | nil => cases h; exact .nil
  | cons part rest ih =>
      obtain ⟨here, hhere, h⟩ := bind_eq_ok.1 h
      obtain ⟨more, hmore, h⟩ := bind_eq_ok.1 h
      cases h
      exact .cons hhere (ih hmore)

/-- The columns of the groups under each other have the types that they have for the first
group. -/
theorem mayGive_stackAll {first : List Column} {rows : List (List Column)}
    (h : List.Forall₂ (fun e c => e.MayGive s c.type) items first) {columns : List Column}
    (hcolumns : stackAll ((List.range items.length).map fun i =>
      (first :: rows).filterMap (·[i]?)) = .ok columns) :
    List.Forall₂ (fun e c => e.MayGive s c.type) items columns := by
  have hstack := List.forall₂_map_left_iff.1 (stackAll_eq_ok hcolumns)
  have hlength := hstack.length_eq
  rw [List.length_range] at hlength
  refine List.forall₂_iff_get.2 ⟨hlength, fun i hi hi' => ?_⟩
  have hfirst : i < first.length := h.length_eq ▸ hi
  have hhere := hstack.get (by rwa [List.length_range]) hi'
  have hget : first[i]? = some (first.get ⟨i, hfirst⟩) := List.getElem?_eq_getElem hfirst
  simp only [List.get_eq_getElem, List.getElem_range] at hhere
  rw [List.filterMap_cons_some (f := (·[i]?)) hget] at hhere
  have htype : (columns.get ⟨i, hi'⟩).type = (first.get ⟨i, hfirst⟩).type := type_stack hhere
  rw [htype]
  exact h.get hi hfirst

theorem mayGive_reduceGroups (hb : b.Matches s) {groups : List (List Nat)}
    {rows : List (List Column)} (h : b.reduceGroups items groups = .ok rows) :
    rows.length = groups.length
      ∧ ∀ row ∈ rows, List.Forall₂ (fun e c => e.MayGive s c.type) items row := by
  induction groups generalizing rows with
  | nil => cases h; exact ⟨rfl, fun _ hrow => by cases hrow⟩
  | cons members rest ih =>
      obtain ⟨here, hhere, h⟩ := bind_eq_ok.1 h
      obtain ⟨more, hmore, h⟩ := bind_eq_ok.1 h
      cases h
      obtain ⟨hlength, hall⟩ := ih hmore
      exact ⟨congrArg Nat.succ hlength,
        List.forall_mem_cons.2 ⟨mayGive_reduceAll
          (hb.of_header (header_gather b _)) hhere, hall⟩⟩

theorem mayGive_metricColumns (hb : b.Matches s) {groups : List (List Nat)}
    {columns : List Column} (h : b.metricColumns items groups = .ok columns) :
    List.Forall₂ (fun e c => e.MayGive s c.type) items columns := by
  unfold metricColumns at h
  split at h
  · obtain ⟨reduced, hreduced, h⟩ := bind_eq_ok.1 h
    cases h
    rw [List.forall₂_map_right_iff]
    exact mayGive_reduceAll (hb.of_header (header_slice b 0 _)) hreduced
  · next hgroups =>
      obtain ⟨rows, hrows, h⟩ := bind_eq_ok.1 h
      obtain ⟨hlength, hall⟩ := mayGive_reduceGroups hb hrows
      cases rows with
      | nil =>
          exact absurd (List.isEmpty_iff.2 (List.length_eq_zero_iff.1 hlength.symm)) hgroups
      | cons first rest => exact mayGive_stackAll (hall first List.mem_cons_self) h

theorem forall₂_zip_outputName {P : Expr → Physical → Prop} {columns : List Column}
    (h : List.Forall₂ (fun e c => P e c.type) items columns) :
    List.Forall₂ (fun e c => c.1 = e.outputName ∧ P e c.2.type) items
      ((items.map Expr.outputName).zip columns) := by
  induction h with
  | nil => exact .nil
  | cons hc _ ih => exact .cons ⟨rfl, hc⟩ ih

theorem mayGive_aggregate (hb : b.Matches s) {keys metrics : List Expr}
    (h : b.aggregate keys metrics = .ok out) :
    List.Forall₂ (fun e c => c.1 = e.outputName ∧ e.MayGive s c.2.type)
      (keys ++ metrics) out.columns := by
  obtain ⟨_, -, h⟩ := bind_eq_ok.1 h
  split at h
  · next hkeys =>
      obtain ⟨columns, hcolumns, h⟩ := bind_eq_ok.1 h
      cases h
      rw [List.isEmpty_iff.1 hkeys]
      exact forall₂_zip_outputName (mayGive_reduceAll hb hcolumns)
  · obtain ⟨keyColumns, hkeys, h⟩ := bind_eq_ok.1 h
    obtain ⟨columns, hcolumns, h⟩ := bind_eq_ok.1 h
    cases h
    refine forall₂_zip_outputName (List.rel_append ?_ (mayGive_metricColumns hb hcolumns))
    rw [List.forall₂_map_right_iff]
    exact mayGive_computeKeys hb hkeys

/-! ## Joins -/

theorem types_paired (left right : Batch) (pairs : List Join.RowPair) :
    (left.paired right pairs).types = left.types ++ right.types := by
  simp [paired, types, Function.comp_def, Column.gather]

end Batch

end TypedQuery
