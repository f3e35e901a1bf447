import TypedQuery.Plan.Execute
import TypedQuery.Proofs.Columnar.Typed
import TypedQuery.Proofs.Outcome

/-!
# What every step of a plan preserves

If each step of a plan preserves a property of batches, then what is executed has the
property as soon as the tables of the catalog have it, and the rows that the plan brings
along. These are rows that tables were given.
-/

namespace TypedQuery

/-- Given rows have the property, and every step makes batches that have it out of such as
do. -/
structure Batch.Preserved (P : Batch → Prop) : Prop where
  ofRows : ∀ s rows, Yields P (Batch.ofRows s rows)
  filterBy : ∀ {b}, P b → ∀ predicate, Yields P (b.filterBy predicate)
  select : ∀ {b}, P b → ∀ items, Yields P (b.select items)
  extend : ∀ {b}, P b → ∀ items, Yields P (b.extend items)
  sort : ∀ {b}, P b → ∀ keys descending, Yields P (b.sort keys descending)
  slice : ∀ {b}, P b → ∀ offset length, P (b.slice offset length)
  aggregate : ∀ {b}, P b → ∀ keys metrics, Yields P (b.aggregate keys metrics)
  join : ∀ {l r}, P l → P r → ∀ leftKeys rightKeys kind suffix nullsMatch,
    Yields P (l.join r leftKeys rightKeys kind suffix nullsMatch)
  dropNulls : ∀ {b}, P b → ∀ names, Yields P (b.dropNulls names)
  unique : ∀ {b}, P b → P b.unique

namespace Plan

/-- The rows that the plan brings along have the property. -/
def Brings (P : Batch → Prop) : Plan → Prop
  | scan _ => True
  | rows _ batch => P batch
  | filter input _ | select input _ | extend input _ | sort input _ _ | slice input _ _
  | aggregate input _ _ | dropNulls input _ | unique input => input.Brings P
  | join left right _ _ _ _ => left.Brings P ∧ right.Brings P

theorem yields_execute {P : Batch → Prop} (hP : Batch.Preserved P) {catalog : Catalog}
    (hcatalog : ∀ t ∈ catalog.tables, P t.2) :
    ∀ p : Plan, p.Brings P → Yields P (p.execute catalog)
  | scan table, _ => by
      rw [execute, Catalog.get]
      cases hb : catalog.table? table with
      | none => exact .error _
      | some b =>
          obtain ⟨t, ht, rfl⟩ := Option.map_eq_some_iff.1 hb
          exact .ok (hcatalog t (List.mem_of_find?_eq_some ht))
  | rows _ _, hp => .ok hp
  | filter input _, hp => .bind (yields_execute hP hcatalog input hp) fun _ hb =>
    hP.filterBy hb _
  | select input _, hp => .bind (yields_execute hP hcatalog input hp)
    fun _ hb => hP.select hb _
  | extend input _, hp => .bind (yields_execute hP hcatalog input hp)
    fun _ hb => hP.extend hb _
  | sort input _ _, hp => .bind (yields_execute hP hcatalog input hp)
    fun _ hb => hP.sort hb _ _
  | slice input _ _, hp => .bind (yields_execute hP hcatalog input hp) fun _ hb => .ok
    (hP.slice hb _ _)
  | aggregate input _ _, hp => .bind (yields_execute hP hcatalog input hp) fun _ hb =>
    hP.aggregate hb _ _
  | dropNulls input _, hp => .bind (yields_execute hP hcatalog input hp) fun _ hb =>
    hP.dropNulls hb _
  | unique input, hp => .bind (yields_execute hP hcatalog input hp) fun _ hb =>
    .ok (hP.unique hb)
  | join left right _ _ _ _, hp => .bind (yields_execute hP hcatalog left hp.1) fun _ hl =>
      .bind (yields_execute hP hcatalog right hp.2) fun _ hr => hP.join hl hr _ _ _ _ _

end Plan

/-!
## Batches of typed columns

Where every column holds cells of its type, the columns of what a step of a plan makes do
so, too, and given rows are converted to the types of their columns.
-/

open Column

namespace Batch

variable {b : Batch}

/-! ### Moving rows -/

theorem typed_map {move : Column → Column} (hmove : ∀ c, c.Typed → (move c).Typed)
    (hb : b.Typed) (rows : Nat) :
    Batch.Typed ⟨rows, b.columns.map fun c => (c.1, move c.2)⟩ := by
  intro c hc
  obtain ⟨d, hd, rfl⟩ := List.mem_map.1 hc
  exact hmove d.2 (hb d hd)

theorem Typed.gather (hb : b.Typed) (rows : List (Option Nat)) : (b.gather rows).Typed :=
  typed_map (fun _ h => h.gather rows) hb _

theorem Typed.keep (hb : b.Typed) (mask : List Bool) : (b.keep mask).Typed :=
  typed_map (fun _ h => h.keep mask) hb _

theorem Typed.slice (hb : b.Typed) (offset : Nat) (length : Option Nat) :
    (b.slice offset length).Typed :=
  fun c hc => by
    obtain ⟨d, hd, rfl⟩ := List.mem_map.1 hc
    exact fun cell hcell => hb d hd cell (List.mem_of_mem_drop (List.mem_of_mem_take hcell))

/-! ### Computed columns -/

theorem Typed.compute (hb : b.Typed) (rows : Nat) (e : Expr) :
    Yields Column.Typed (b.compute rows e) :=
  .bind (Expr.typed_evaluate hb e) fun _ h => (h.broadcast rows).mono fun _ h => h.2

theorem Typed.computeKeys (hb : b.Typed) (keys : List Expr) :
    Yields (∀ c ∈ ·, c.Typed) (b.computeKeys keys) := by
  induction keys with
  | nil => exact .ok fun _ h => by cases h
  | cons e rest ih =>
      exact .bind (hb.compute _ e) fun _ hhere => .bind ih fun _ hrest =>
        .ok (List.forall_mem_cons.2 ⟨hhere, hrest⟩)

theorem Typed.computeAll (hb : b.Typed) (rows : Nat) (seen : List String)
    (items : List Expr) :
    Yields (∀ c ∈ ·, c.2.Typed) (b.computeAll rows seen items) := by
  induction items generalizing seen with
  | nil => exact .ok fun _ h => by cases h
  | cons e rest ih =>
      rw [Batch.computeAll]
      split
      · exact .error _
      · exact .bind (hb.compute _ e) fun _ hhere => .bind (ih _) fun _ hrest =>
          .ok (List.forall_mem_cons.2 ⟨hhere, hrest⟩)

theorem Typed.select (hb : b.Typed) (items : List Expr) :
    Yields Batch.Typed (b.select items) :=
  .bind (hb.computeAll _ _ items) fun _ h => .ok h

theorem typed_put {columns : List (String × Column)} (h : ∀ c ∈ columns, c.2.Typed)
    (name : String) {c : Column} (hc : c.Typed) : ∀ d ∈ put columns name c, d.2.Typed := by
  induction columns with
  | nil => exact List.forall_mem_cons.2 ⟨hc, fun _ h => by cases h⟩
  | cons first rest ih =>
      obtain ⟨hfirst, hrest⟩ := List.forall_mem_cons.1 h
      rw [put]
      split
      · exact List.forall_mem_cons.2 ⟨hc, hrest⟩
      · exact List.forall_mem_cons.2 ⟨hfirst, ih hrest⟩

theorem Typed.extend (hb : b.Typed) (items : List Expr) :
    Yields Batch.Typed (b.extend items) := by
  refine .bind (hb.computeAll _ _ items) fun computed hcomputed => .ok ?_
  suffices h : ∀ columns : List (String × Column), (∀ c ∈ columns, c.2.Typed) →
      ∀ c ∈ computed.foldl (fun columns c => put columns c.1 c.2) columns, c.2.Typed
        from h b.columns hb
  induction computed with
  | nil => exact fun _ h => h
  | cons first rest ih =>
      obtain ⟨hfirst, hrest⟩ := List.forall_mem_cons.1 hcomputed
      exact fun columns h => ih hrest _ (typed_put h first.1 hfirst)

/-! ### Steps -/

theorem Typed.filterBy (hb : b.Typed) (predicate : Expr) :
    Yields Batch.Typed (b.filterBy predicate) :=
  .bind_any fun _ _ => .ok (hb.keep _)

theorem Typed.sort (hb : b.Typed) (keys : List Expr) (descending : List Bool) :
    Yields Batch.Typed (b.sort keys descending) := by
  unfold Batch.sort
  split
  · exact .error _
  · split
    · exact .ok hb
    · exact .bind_any fun _ _ => .bind_any fun _ _ => .ok (hb.gather _)

theorem Typed.dropNulls (hb : b.Typed) (names : Option (List String)) :
    Yields Batch.Typed (b.dropNulls names) := by
  cases names with
  | none => exact .ok (hb.keep _)
  | some names => exact .bind_any fun _ _ => .ok (hb.keep _)

theorem Typed.reduceAll (hb : b.Typed) (metrics : List Expr) :
    Yields (∀ c ∈ ·, c.Typed) (b.reduceAll metrics) := by
  induction metrics with
  | nil => exact .ok fun _ h => by cases h
  | cons e rest ih =>
      refine .bind (P := Column.Typed) ?_ fun _ hhere => .bind ih fun _ hrest =>
        .ok (List.forall_mem_cons.2 ⟨hhere, hrest⟩)
      refine .bind (Expr.typed_evaluate hb e) fun c hc =>
        .ok (typed_of_fits fun cell hcell => ?_)
      rw [List.mem_singleton.1 hcell]
      cases hcells : c.cells with
      | nil => exact Cell.fits_null _
      | cons first rest => exact hc first (hcells ▸ List.mem_cons_self)

theorem Typed.reduceGroups (hb : b.Typed) (metrics : List Expr) (groups : List (List Nat)) :
    Yields (∀ row ∈ ·, ∀ c ∈ row, c.Typed) (b.reduceGroups metrics groups) := by
  induction groups with
  | nil => exact .ok fun _ h => by cases h
  | cons members rest ih =>
      exact .bind ((hb.gather _).reduceAll metrics) fun _ hhere => .bind ih fun _ hrest =>
        .ok (List.forall_mem_cons.2 ⟨hhere, hrest⟩)

theorem typed_stack {parts : List Column} (h : ∀ c ∈ parts, c.Typed) :
    Yields Column.Typed (stack parts) := by
  unfold stack
  split
  · exact .error _
  · next first rest =>
      obtain ⟨hfirst, hrest⟩ := List.forall_mem_cons.1 h
      split
      · next htypes =>
          refine .ok (typed_of_fits fun cell hcell => ?_)
          rcases List.mem_append.1 hcell with hcell | hcell
          · exact hfirst cell hcell
          · obtain ⟨c, hc, hcell⟩ := List.mem_flatMap.1 hcell
            have htype : c.type = first.type :=
              of_decide_eq_true (List.all_eq_true.1 htypes c hc)
            exact htype ▸ hrest c hc cell hcell
      · exact .error _

theorem typed_stackAll {columns : List (List Column)}
    (h : ∀ parts ∈ columns, ∀ c ∈ parts, c.Typed) :
    Yields (∀ c ∈ ·, c.Typed) (stackAll columns) := by
  induction columns with
  | nil => exact .ok fun _ h => by cases h
  | cons parts rest ih =>
      obtain ⟨hparts, hrest⟩ := List.forall_mem_cons.1 h
      exact .bind (typed_stack hparts) fun _ hhere => .bind (ih hrest) fun _ hrest =>
        .ok (List.forall_mem_cons.2 ⟨hhere, hrest⟩)

theorem Typed.metricColumns (hb : b.Typed) (metrics : List Expr) (groups : List (List Nat)) :
    Yields (∀ c ∈ ·, c.Typed) (b.metricColumns metrics groups) := by
  unfold Batch.metricColumns
  split
  · refine .bind_any fun cs _ => .ok fun c hc => ?_
    obtain ⟨d, -, rfl⟩ := List.mem_map.1 hc
    exact fun _ h => by cases h
  · refine .bind (hb.reduceGroups metrics groups) fun rows hrows =>
      typed_stackAll fun parts hparts => ?_
    obtain ⟨i, -, rfl⟩ := List.mem_map.1 hparts
    intro c hc
    obtain ⟨row, hrow, hget⟩ := List.mem_filterMap.1 hc
    exact hrows row hrow c (List.mem_of_getElem? hget)

theorem typed_zip {columns : List Column} (h : ∀ c ∈ columns, c.Typed)
    (names : List String) (rows : Nat) :
    Batch.Typed ⟨rows, names.zip columns⟩ := fun _ hc => h _ (List.of_mem_zip hc).2

theorem Typed.aggregate (hb : b.Typed) (keys metrics : List Expr) :
    Yields Batch.Typed (b.aggregate keys metrics) := by
  refine .bind_any fun _ _ => ?_
  split
  · exact .bind (hb.reduceAll metrics) fun _ h => .ok (typed_zip h _ _)
  · refine .bind (hb.computeKeys keys) fun ks hks =>
      .bind (hb.metricColumns metrics _) fun ms hms =>
      .ok (typed_zip (fun c hc => ?_) _ _)
    rcases List.mem_append.1 hc with hc | hc
    · obtain ⟨k, hk, rfl⟩ := List.mem_map.1 hc
      exact (hks k hk).gather _
    · exact hms c hc

theorem Typed.join {r : Batch} (hb : b.Typed) (hr : r.Typed)
    (leftKeys rightKeys : List Expr) (kind : JoinKind) (suffix : String)
    (nullsMatch : Bool) :
    Yields Batch.Typed (b.join r leftKeys rightKeys kind suffix nullsMatch) := by
  unfold Batch.join
  split
  · exact .error _
  · refine .bind_any fun _ _ => .bind_any fun _ _ => .bind_any fun _ _ => ?_
    dsimp only
    split
    · exact .ok (hb.gather _)
    · refine .ok fun c hc => ?_
      rcases List.mem_append.1 hc with hc | hc
      · exact hb.gather _ c hc
      · obtain ⟨d, hd, rfl⟩ := List.mem_map.1 hc
        exact hr.gather _ d hd

/-! ### Given rows -/

theorem typed_cellsOf (column : ColumnInfo) (position : Nat) (rows : List (List Value)) :
    Yields (∀ c ∈ ·, c.Typed) (cellsOf column position rows) := by
  induction rows with
  | nil => exact .ok fun _ h => by cases h
  | cons row rest ih =>
      refine .bind (P := Column.Typed) ?_ fun _ hhere => .bind ih fun _ hrest =>
        .ok (List.forall_mem_cons.2 ⟨hhere, hrest⟩)
      unfold cellOf
      split
      · exact Literal.typed_column _ _ _
      · exact .error _

theorem typed_columnsOf (rows : List (List Value)) (position : Nat)
    (columns : List ColumnInfo) :
    Yields (∀ c ∈ ·, c.2.Typed) (columnsOf rows position columns) := by
  induction columns generalizing position with
  | nil => exact .ok fun _ h => by cases h
  | cons column rest ih =>
      refine .bind (P := Column.Typed) ?_ fun _ hhere => .bind (ih _) fun _ hrest =>
        .ok (List.forall_mem_cons.2 ⟨hhere, hrest⟩)
      unfold columnOf
      split
      · exact .ok fun _ h => by cases h
      · exact .bind (typed_cellsOf column position rows) fun _ h => typed_stack h

theorem typed_ofRows (s : Schema) (rows : List (List Value)) :
    Yields Batch.Typed (ofRows s rows) := by
  refine .bind (typed_columnsOf rows 0 s.columns) fun columns h => ?_
  split
  · exact .ok h
  · exact .error _

theorem preserved_typed : Preserved Batch.Typed where
  ofRows := typed_ofRows
  filterBy := Typed.filterBy
  select := Typed.select
  extend := Typed.extend
  sort := Typed.sort
  slice := Typed.slice
  aggregate := Typed.aggregate
  join := Typed.join
  dropNulls := Typed.dropNulls
  unique {b} hb := by
    rcases b.unique_cases with h | h | ⟨rows, h⟩
    · exact h ▸ Typed.slice hb _ _
    · exact h.symm ▸ hb
    · exact h ▸ hb.gather rows

end Batch

/-- Every table of the catalog holds cells of the types of its columns. -/
def Catalog.Typed (catalog : Catalog) : Prop := ∀ t ∈ catalog.tables, t.2.Typed

end TypedQuery
