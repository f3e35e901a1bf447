import TypedQuery.Proofs.Plan.Groups
import TypedQuery.Proofs.Plan.Types

/-!
# The rows of an aggregation

An aggregation reduces every metric over every group, and then puts the results of one
metric under each other. So an output row is the key of a group followed by what each
metric gives for its rows (`tuples_aggregate`), and a metric fails or succeeds by itself
(`metricColumns_eq_ok`).
-/

namespace TypedQuery.Batch

variable {b out : Batch} {keys metrics : List Expr} {e : Expr}
    {groups : List (List Nat)} {c : Column}
  {cs columns parts : List Column}

/-! ## One metric -/

theorem reduceAll_eq_mapM (group : Batch) (metrics : List Expr) :
    group.reduceAll metrics = metrics.mapM group.reduceGroup := by
  induction metrics with
  | nil => rfl
  | cons e rest ih => rw [reduceAll, ih, List.mapM_cons]; rfl

theorem reduceGroups_eq_mapM (b : Batch) (metrics : List Expr) (groups : List (List Nat)) :
    b.reduceGroups metrics groups
      = groups.mapM fun members =>
        metrics.mapM (b.gather (members.map some)).reduceGroup := by
  induction groups with
  | nil => rfl
  | cons members rest ih => rw [reduceGroups, ih, reduceAll_eq_mapM, List.mapM_cons]; rfl

theorem stackAll_eq_mapM (columns : List (List Column)) :
    stackAll columns = columns.mapM stack := by
  induction columns with
  | nil => rfl
  | cons parts rest ih => rw [stackAll, ih, List.mapM_cons]; rfl

theorem reduceGroup_eq_ok {group : Batch} :
    group.reduceGroup e = .ok c
      ↔ ∃ d, e.evaluate group = .ok d ∧ c = ⟨d.type, [d.cells.head?.getD .null]⟩ := by
  rw [reduceGroup, bind_eq_ok]
  exact exists_congr fun d => and_congr_right fun _ =>
    ⟨fun h => (Except.ok.inj h).symm, fun h => h ▸ rfl⟩

/-- What a metric gives for a group of rows. -/
def metricCell (group : Batch) (e : Expr) : Cell :=
  match group.reduceGroup e with
  | .ok c => c.cells.head?.getD .null
  | .error _ => .null

theorem metricCell_eq (h : e.evaluate b = .ok c) :
    b.metricCell e = c.cells.head?.getD .null := by
  rw [metricCell, reduceGroup, h]
  rfl

/-- A metric gives a column of the one cell. -/
theorem reduceGroup_eq_single (h : b.reduceGroup e = .ok c) :
    c = ⟨c.type, [b.metricCell e]⟩ := by
  rw [metricCell, h]
  obtain ⟨d, -, rfl⟩ := reduceGroup_eq_ok.1 h
  rfl

/-- The column has, row by row, what the metric gives for each of the groups. Where there
is none, its type is that which the metric has without rows. -/
structure ReducedOver (b : Batch) (groups : List (List Nat)) (e : Expr)
    (c : Column) : Prop where
  cells : c.cells = groups.map fun members => (b.gather (members.map some)).metricCell e
  parts : ∀ members ∈ groups, ∃ part,
    (b.gather (members.map some)).reduceGroup e = .ok part ∧ part.type = c.type
  empty : groups = [] → ∃ part,
    (b.slice 0 (some 0)).reduceGroup e = .ok part ∧ part.type = c.type

theorem ReducedOver.length (h : b.ReducedOver groups e c) : c.length = groups.length := by
  rw [Column.length, h.cells, List.length_map]

theorem stack_eq_ok :
    stack parts = .ok c ↔ parts ≠ [] ∧ (∀ part ∈ parts, part.type = c.type)
      ∧ c.cells = parts.flatMap (·.cells) := by
  cases parts with
  | nil => simp [stack]
  | cons first rest =>
      simp only [stack, List.all_eq_true, decide_eq_true_iff]
      constructor
      · intro h
        split at h
        · next hrest =>
            cases h; exact ⟨List.cons_ne_nil _ _, List.forall_mem_cons.2 ⟨rfl, hrest⟩, rfl⟩
        · cases h
      · rintro ⟨-, htypes, hcells⟩
        obtain ⟨hfirst, hrest⟩ := List.forall_mem_cons.1 htypes
        rw [if_pos fun part hpart => (hrest part hpart).trans hfirst.symm, hfirst]
        exact congrArg (Except.ok ∘ Column.mk c.type) hcells.symm

/-- The results of one metric under each other. -/
theorem stack_reduced (hne : groups ≠ []) :
    (∃ parts, List.Forall₂ (fun members part => (b.gather (members.map some)).reduceGroup e
      = .ok part) groups parts
      ∧ stack parts = .ok c) ↔ b.ReducedOver groups e c := by
  have hcells : ∀ {parts}, List.Forall₂
      (fun members part => (b.gather (members.map some)).reduceGroup e = .ok part)
      groups parts →
      parts.flatMap (·.cells) = groups.map fun members =>
          (b.gather (members.map some)).metricCell e := by
    intro parts h
    clear hne
    induction h with
    | nil => rfl
    | cons hpart _ ih =>
        rw [List.flatMap_cons, List.map_cons, ih, reduceGroup_eq_single hpart,
          List.singleton_append]
  constructor
  · rintro ⟨parts, hparts, hstack⟩
    obtain ⟨-, htypes, hall⟩ := stack_eq_ok.1 hstack
    refine ⟨hall.trans (hcells hparts), fun members hmembers => ?_, fun h => absurd h hne⟩
    obtain ⟨part, hmem, hpart⟩ := exists_of_forall₂_right hparts.flip hmembers
    exact ⟨part, hpart, htypes part hmem⟩
  · rintro ⟨hall, hreduced, -⟩
    obtain ⟨parts, hparts⟩ :=
      mapM_isOk fun members hmembers => (hreduced members hmembers).imp fun _ h => h.1
    have hparts := mapM_eq_ok.1 hparts
    refine ⟨parts, hparts,
      stack_eq_ok.2 ⟨?_, fun part hmem => ?_, hall.trans (hcells hparts).symm⟩⟩
    · rintro rfl
      exact hne (List.forall₂_nil_right_iff.1 hparts)
    · obtain ⟨members, hmembers, hpart⟩ := exists_of_forall₂_right hparts hmem
      obtain ⟨other, hother, htype⟩ := hreduced members hmembers
      cases hpart.symm.trans hother
      exact htype

/-! ## All metrics -/

section

variable {α β γ : Type}

/-- Of a table that was filled row by row one may take the columns. -/
theorem forall₂_columns {R : α → β → γ → Prop} {as : List α} {bs : List β}
    {rows : List (List γ)}
    (h : List.Forall₂ (fun a row => List.Forall₂ (R a) bs row) as rows) :
    List.Forall₂ (fun b column => List.Forall₂ (R · b) as column) bs
      ((List.range bs.length).map fun i => rows.filterMap (·[i]?)) := by
  refine List.forall₂_iff_get.2 ⟨by simp, fun i hi hi' => ?_⟩
  simp only [List.get_eq_getElem, List.getElem_map, List.getElem_range]
  clear hi'
  induction h with
  | nil => exact .nil
  | @cons a row as rows hrow _ ih =>
      have hi' : i < row.length := hrow.length_eq ▸ hi
      rw [List.filterMap_cons_some (f := (·[i]?)) (List.getElem?_eq_getElem hi')]
      exact .cons (hrow.get hi hi') ih

end

theorem metricColumns_nil :
    b.metricColumns metrics [] = .ok columns
      ↔ List.Forall₂ (b.ReducedOver []) metrics columns := by
  rw [metricColumns, List.isEmpty_nil, if_pos rfl, reduceAll_eq_mapM, bind_eq_ok]
  have hone : ∀ e c, b.ReducedOver [] e c
      ↔ ∃ part, (b.slice 0 (some 0)).reduceGroup e = .ok part
        ∧ (⟨part.type, []⟩ : Column) = c := by
    intro e c
    constructor
    · rintro ⟨hcells, -, hempty⟩
      obtain ⟨part, hpart, htype⟩ := hempty rfl
      exact ⟨part, hpart, by rw [htype]; exact congrArg (Column.mk c.type) hcells.symm⟩
    · rintro ⟨part, hpart, rfl⟩
      exact ⟨rfl, fun _ h => by (cases h), fun _ => ⟨part, hpart, rfl⟩⟩
  simp only [funext fun e => funext fun c => propext (hone e c)]
  rw [forall₂_comp_iff]
  simp only [mapM_eq_ok, ← List.forall₂_map_left_iff
    (f := fun part : Column => (⟨part.type, []⟩ : Column)), List.forall₂_eq_eq_eq]
  simp only [Except.ok.injEq]

/-- Every metric is reduced over all groups by itself. -/
theorem metricColumns_eq_ok :
    b.metricColumns metrics groups = .ok columns
      ↔ List.Forall₂ (b.ReducedOver groups) metrics columns := by
  by_cases hne : groups = []
  · exact hne ▸ metricColumns_nil
  let F (e : Expr) (members : List Nat) (part : Column) :=
    (b.gather (members.map some)).reduceGroup e = .ok part
  have hone : ∀ e c, b.ReducedOver groups e c
      ↔ ∃ parts, List.Forall₂ (F e) groups parts ∧ stack parts = .ok c :=
    fun e c => (stack_reduced hne).symm
  simp only [funext fun e => funext fun c => propext (hone e c)]
  rw [forall₂_comp_iff, metricColumns, if_neg (by simpa using hne),
    reduceGroups_eq_mapM, bind_eq_ok]
  simp only [stackAll_eq_mapM, mapM_eq_ok]
  constructor
  · rintro ⟨rows, hrows, hstack⟩
    exact ⟨_, forall₂_columns hrows, hstack⟩
  · rintro ⟨table, htable, hstack⟩
    have hrows := forall₂_columns htable
    refine ⟨_, hrows, ?_⟩
    -- The columns of the rows of the table are its columns again, since results are unique.
    have hunique : Relator.RightUnique fun e parts => List.Forall₂ (F e) groups parts :=
      fun _ _ _ => List.right_unique_forall₂' fun _ _ _ h h' =>
        Except.ok.inj (h.symm.trans h')
    rwa [List.right_unique_forall₂' hunique (forall₂_columns hrows) htable]

/-! ## Output rows -/

theorem checkNames_eq_ok : ∀ {names seen : List String},
    checkNames seen names = .ok () ↔ names.Nodup ∧ ∀ name ∈ names, name ∉ seen
  | [], seen => by simp [checkNames]
  | name :: rest, seen => by
      rw [checkNames, List.contains_eq_mem, List.nodup_cons, List.forall_mem_cons]
      split
      · next h =>
          have hmem : name ∈ seen := of_decide_eq_true h
          exact ⟨(fun h => nomatch h), fun hall => absurd hmem hall.2.1⟩
      · next h =>
          rw [decide_eq_true_iff] at h
          rw [checkNames_eq_ok]
          simp only [List.mem_cons, not_or]
          constructor
          · rintro ⟨hnodup, hrest⟩
            exact ⟨⟨fun hmem => (hrest name hmem).1 rfl, hnodup⟩, h,
              fun other hother => (hrest other hother).2⟩
          · rintro ⟨⟨hname, hnodup⟩, -, hrest⟩
            exact ⟨hnodup,
              fun other hother => ⟨fun heq => hname (heq ▸ hother), hrest other hother⟩⟩

/-- With keys an aggregation succeeds if names are different, the keys can be computed, and
every metric can be reduced. -/
theorem aggregate_eq_ok (hkeys : keys ≠ []) :
    b.aggregate keys metrics = .ok out ↔
      ((keys ++ metrics).map Expr.outputName).Nodup
        ∧ ∃ keyColumns, b.computeKeys keys = .ok keyColumns
          ∧ ∃ columns,
            b.metricColumns metrics (groupRows (tuples b.rows keyColumns)) = .ok columns
            ∧ out = ⟨(groupRows (tuples b.rows keyColumns)).length,
              ((keys ++ metrics).map Expr.outputName).zip
              (keyColumns.map
                (·.gather ((groupRows (tuples b.rows keyColumns)).map List.head?))
                  ++ columns)⟩ := by
  have hnames := @checkNames_eq_ok ((keys ++ metrics).map Expr.outputName) []
  rw [aggregate, bind_eq_ok]
  simp only [if_neg (show ¬ keys.isEmpty = true by simpa using hkeys)]
  constructor
  · rintro ⟨_, hcheck, h⟩
    obtain ⟨keyColumns, hkeyColumns, h⟩ := bind_eq_ok.1 h
    obtain ⟨columns, hcolumns, h⟩ := bind_eq_ok.1 h
    cases h
    exact ⟨(hnames.1 hcheck).1, keyColumns, hkeyColumns, columns, hcolumns, rfl⟩
  · rintro ⟨hnodup, keyColumns, hkeyColumns, columns, hcolumns, rfl⟩
    refine ⟨(), hnames.2 ⟨hnodup, fun _ _ h => by cases h⟩, ?_⟩
    exact bind_eq_ok.2 ⟨_, hkeyColumns, bind_eq_ok.2 ⟨_, hcolumns, rfl⟩⟩

/-- Without keys all rows are reduced to one. -/
theorem aggregate_all_eq_ok :
    b.aggregate [] metrics = .ok out ↔
      (metrics.map Expr.outputName).Nodup
        ∧ ∃ columns, List.Forall₂ (fun e c => b.reduceGroup e = .ok c) metrics columns
          ∧ out = ⟨1, (metrics.map Expr.outputName).zip columns⟩ := by
  have hnames := @checkNames_eq_ok (metrics.map Expr.outputName) []
  rw [aggregate, bind_eq_ok]
  simp only [List.nil_append, List.isEmpty_nil, if_true, reduceAll_eq_mapM]
  constructor
  · rintro ⟨_, hcheck, h⟩
    obtain ⟨columns, hcolumns, h⟩ := bind_eq_ok.1 h
    cases h
    exact ⟨(hnames.1 hcheck).1, columns, mapM_eq_ok.1 hcolumns, rfl⟩
  · rintro ⟨hnodup, columns, hcolumns, rfl⟩
    refine ⟨(), hnames.2 ⟨hnodup, fun _ _ h => by cases h⟩, ?_⟩
    exact bind_eq_ok.2 ⟨_, mapM_eq_ok.2 hcolumns, rfl⟩

theorem tuples_reduced (h : List.Forall₂ (b.ReducedOver groups) metrics columns) :
    tuples groups.length columns
      = groups.map fun members => metrics.map fun e =>
        ((b.gather (members.map some)).metricCell e).bare := by
  induction h with
  | nil => exact List.map_const'.symm
  | cons hc _ ih =>
      unfold tuples at ih ⊢
      rw [List.foldr_cons, ih, hc.cells, List.map_map, List.zipWith_map, List.zipWith_self]
      rfl

/-- The columns of an aggregation are those of the keys and then those of the metrics. -/
theorem values_aggregate (hkeys : keys ≠ []) (h : b.aggregate keys metrics = .ok out) :
    ∃ keyColumns columns, b.computeKeys keys = .ok keyColumns
      ∧ out.rows = (groupRows (tuples b.rows keyColumns)).length
      ∧ List.Forall₂ (b.ReducedOver (groupRows (tuples b.rows keyColumns))) metrics columns
      ∧ out.columns.map (·.2)
          = keyColumns.map
            (·.gather ((groupRows (tuples b.rows keyColumns)).map List.head?))
              ++ columns := by
  obtain ⟨-, keyColumns, hkeyColumns, columns, hcolumns, rfl⟩ := (aggregate_eq_ok hkeys).1 h
  refine ⟨keyColumns, columns, hkeyColumns, rfl, metricColumns_eq_ok.1 hcolumns,
    List.map_snd_zip ?_⟩
  simp [length_computeKeys hkeyColumns, length_metricColumns hcolumns]

/-- An aggregation has a row for each key, with what the metrics give for the rows with
that key. -/
theorem tuples_aggregate (hkeys : keys ≠ []) (h : b.aggregate keys metrics = .ok out) :
    ∃ keyColumns, b.computeKeys keys = .ok keyColumns
      ∧ tuples out.rows (out.columns.map (·.2))
        = (tuples b.rows keyColumns).eraseDups.map fun key =>
          key ++ metrics.map fun e =>
            ((b.gather ((placesOf (tuples b.rows keyColumns) key).map some)).metricCell
              e).bare := by
  obtain ⟨keyColumns, columns, hkeyColumns, hrows, hreduced, hvalues⟩ :=
    values_aggregate hkeys h
  refine ⟨keyColumns, hkeyColumns, ?_⟩
  let rows := tuples b.rows keyColumns
  have hfirsts : ∀ c ∈ keyColumns.map (·.gather ((groupRows rows).map List.head?)),
      c.length = (groupRows rows).length := by
    intro c hc
    obtain ⟨d, -, rfl⟩ := List.mem_map.1 hc
    rw [Column.length, Column.gather, List.length_map, List.length_map]
  have hmetrics : ∀ c ∈ columns, c.length = (groupRows rows).length := by
    intro c hc
    obtain ⟨e, -, hc⟩ := exists_of_forall₂_right hreduced hc
    exact hc.length
  rw [hvalues, hrows, tuples_append hfirsts hmetrics,
    tuples_firsts (length_of_computeKeys hkeyColumns), tuples_reduced hreduced,
    groupRows_eq, List.map_map, List.zipWith_map_right, List.zipWith_self]
  rfl

/-- The keys of an aggregation are the different keys of the rows. -/
theorem tuples_keys (hkeys : keys ≠ []) (h : b.aggregate keys metrics = .ok out)
    {keyColumns : List Column} (hkeyColumns : b.computeKeys keys = .ok keyColumns) :
    tuples out.rows ((out.columns.take keys.length).map (·.2))
      = (tuples b.rows keyColumns).eraseDups := by
  obtain ⟨_, columns, hsame, hrows, -, hvalues⟩ := values_aggregate hkeys h
  cases hkeyColumns.symm.trans hsame
  have hlength := length_computeKeys hkeyColumns
  rw [List.map_take, hvalues, List.take_left' (by rw [List.length_map, hlength]), hrows]
  exact tuples_firsts (length_of_computeKeys hkeyColumns)

end TypedQuery.Batch
