import Mathlib.Data.List.Forall2
import TypedQuery.Plan.Execute
import TypedQuery.Proofs.Outcome

/-!
# Names of executed columns

Which columns a step of a plan leaves, and under which names. Steps that choose or order
rows keep all columns, with their types (`Batch.header`); computed columns bear the names
of their expressions, and no two of those may be the same.

A computed column is called by the name that its expression bears, or else by one met on
the way through its subexpressions. `Expr.metNames` lists what is met there. Where a part
bears no name, the walk answers with `literal` for it, and it takes every such answer to
mean that there is none: a column of that very name is passed over, and so the name that
comes out is the first one met that is not `literal`.
-/

namespace TypedQuery

namespace Expr

/-! ## Names met on the way -/

/-- The direct subexpressions, in evaluation order. -/
def subexpressions : Expr → List Expr
  | column _ | literal .. | countRows none => []
  | named e _ | cast e _ | unary _ e | reduce _ e none | countRows (some e) => [e]
  | binary a _ b | fillNull a b | fillNan a b | reduce _ a (some b) => [a, b]
  | choose a b c | between a b c => [a, b, c]
  | isIn e items => e :: items
  | coalesce items | least items | greatest items | call _ items => items

/-- The name of the expression itself. -/
def ownName? : Expr → Option String
  | column name | named _ name => some name
  | countRows _ => some "len"
  | _ => none

theorem sizeOf_of_mem_subexpressions {e part : Expr} (h : part ∈ e.subexpressions) :
    sizeOf part < sizeOf e := by
  cases e with
  | column | literal => cases h
  | named | cast | unary | binary | choose | fillNull | fillNan | between =>
      simp only [subexpressions, List.mem_cons, List.not_mem_nil, or_false] at h
      rcases h with rfl | rfl | rfl <;> simp <;> omega
  | isIn e items =>
      rcases List.mem_cons.1 h with rfl | h
      · simp; omega
      · have := List.sizeOf_lt_of_mem h
        simp; omega
  | coalesce items | least items | greatest items | call f items =>
      have := List.sizeOf_lt_of_mem (show part ∈ items from h)
      simp; omega
  | reduce f e filter =>
      cases filter
        <;> simp only [subexpressions, List.mem_cons, List.not_mem_nil, or_false] at h
      · subst h; simp only [reduce.sizeOf_spec]; omega
      · rcases h with rfl | rfl
          <;> simp only [reduce.sizeOf_spec, Option.some.sizeOf_spec] <;> omega
  | countRows filter =>
      cases filter
        <;> simp only [subexpressions, List.mem_cons, List.not_mem_nil, or_false] at h
      subst h; simp; omega

/-- The names that are met, in evaluation order. What is within an expression with a name
of its own is not met. -/
def metNames (e : Expr) : List String :=
  match e.ownName? with
  | some name => [name]
  | none => e.subexpressions.attach.flatMap fun part => metNames part.1
termination_by sizeOf e
decreasing_by exact sizeOf_of_mem_subexpressions part.2

theorem metNames_of_some {e : Expr} {name : String} (h : e.ownName? = some name) :
    e.metNames = [name] := by
  rw [metNames, h]

theorem metNames_of_none {e : Expr} (h : e.ownName? = none) :
    e.metNames = e.subexpressions.flatMap metNames := by
  rw [metNames, h]
  simp only []
  rw [List.flatMap_subtype (g := metNames) fun _ _ => rfl, List.unattach_attach]

/-! ## The first of them -/

theorem firstName_append (xs ys : List String) :
    firstName (xs ++ ys) = firstName (firstName xs :: ys) := by
  induction xs with
  | nil => rw [List.nil_append, firstName, firstName, if_pos rfl]
  | cons name rest ih =>
      rw [List.cons_append]
      by_cases hname : name = unnamed
      · have hfirst : firstName (name :: rest) = firstName rest := by
          rw [firstName, if_pos hname]
        rw [hfirst, firstName, if_pos hname, ih]
      · have hfirst : firstName (name :: rest) = name := by rw [firstName, if_neg hname]
        rw [hfirst, firstName, if_neg hname, firstName, if_neg hname]

theorem firstName_flatMap (f : Expr → List String) (es : List Expr) :
    firstName (es.flatMap f) = firstName (es.map fun e => firstName (f e)) := by
  induction es with
  | nil => rfl
  | cons e rest ih =>
      rw [List.flatMap_cons, List.map_cons, firstName_append, firstName, firstName, ih]

theorem firstName_eq_find (names : List String) :
    firstName names = (names.find? (· ≠ unnamed)).getD unnamed := by
  induction names with
  | nil => rfl
  | cons name rest ih =>
      rw [firstName]
      split
      · next hname => simp [hname, ih]
      · next hname => simp [hname]

theorem firstName_eq_unnamed_iff {names : List String} :
    firstName names = unnamed ↔ ∀ name ∈ names, name = unnamed := by
  induction names with
  | nil => simp [firstName]
  | cons name rest ih =>
      rw [firstName, List.forall_mem_cons]
      split
      · next hname => simp [hname, ih]
      · next hname => simp [hname]

theorem outputNames_eq_map (es : List Expr) : outputNames es = es.map outputName := by
  induction es with
  | nil => rfl
  | cons e rest ih => rw [outputNames, ih, List.map_cons]

/-- An expression with a name is called by it, and one without is called as its
subexpressions are. -/
theorem outputName_of_some {e : Expr} {name : String} (h : e.ownName? = some name) :
    e.outputName = name := by
  cases e <;> cases h <;> rfl

theorem outputName_of_none {e : Expr} (h : e.ownName? = none) :
    e.outputName = firstName (e.subexpressions.map outputName) := by
  cases e with
  | column | named | countRows => cases h
  | literal => rfl
  | cast | unary | binary | choose | fillNull | fillNan | between =>
      simp only [outputName, subexpressions, List.map]
  | isIn | coalesce | least | greatest | call =>
      simp only [outputName, subexpressions, outputNames_eq_map, List.map]
  | reduce f e filter => cases filter <;> simp only [outputName, subexpressions, List.map]

/-- On the way the answers for parts stand for the names met in them. -/
theorem outputName_eq_firstName (e : Expr) : e.outputName = firstName e.metNames := by
  induction hsize : sizeOf e using Nat.strongRecOn generalizing e with
  | ind size ih =>
      subst hsize
      cases h : e.ownName? with
      | some name =>
          rw [outputName_of_some h, metNames_of_some h, firstName]
          split
          · next hname => exact hname
          · rfl
      | none =>
          rw [outputName_of_none h, metNames_of_none h, firstName_flatMap]
          exact congrArg firstName
            (List.map_congr_left fun part hpart =>
              ih _ (sizeOf_of_mem_subexpressions hpart) part rfl)

/-! ## The first name met -/

/-- A computed column is called by the first name met that is not `literal`, and `literal`
if there is none. That is the first name met, unless that one is `literal` and another
name is met later on. -/
theorem outputName_of_first_met (e : Expr) :
    e.outputName = (e.metNames.find? (· ≠ unnamed)).getD unnamed
      ∧ (e.outputName = e.metNames.head?.getD unnamed
        ↔ e.metNames.head? ≠ some unnamed ∨ ∀ name ∈ e.metNames, name = unnamed) := by
  rw [outputName_eq_firstName]
  refine ⟨firstName_eq_find _, ?_⟩
  cases e.metNames with
  | nil => simp [firstName]
  | cons name rest =>
      rw [firstName, List.head?_cons, Option.getD_some, List.forall_mem_cons]
      split
      · next hname => simp [hname, firstName_eq_unnamed_iff]
      · next hname => simp [hname]

/-- A sum of a column that is called `literal` and another one: it is called by the other
one and takes its place. -/
theorem outputName_of_literal_met :
    ∃ (e : Expr) (b : Batch),
      e = .binary (.column "literal") (.arithmetic .add) (.column "b")
      ∧ e.metNames = ["literal", "b"] ∧ e.outputName ≠ e.metNames.head?.getD unnamed
      ∧ b = ⟨1, [("literal", ⟨.int64, [.int 1]⟩), ("b", ⟨.int64, [.int 2]⟩)]⟩
      ∧ b.extend [e]
        = .ok ⟨1, [("literal", ⟨.int64, [.int 1]⟩), ("b", ⟨.int64, [.int 3]⟩)]⟩ := by
  have hmet : (Expr.binary (.column "literal") (.arithmetic .add) (.column "b")).metNames
      = ["literal", "b"] := by
    rw [metNames_of_none rfl]
    simp [subexpressions, metNames_of_some, ownName?]
  refine ⟨_, _, rfl, hmet, ?_, rfl, ?_⟩
  · rw [hmet]
    decide
  · rfl

end Expr

namespace Batch

/-! ## Columns of batches -/

/-- The names of the columns with their types. -/
def header (b : Batch) : List (String × Physical) := b.columns.map fun c => (c.1, c.2.type)

/-- The types of the columns. -/
def types (b : Batch) : List Physical := b.columns.map (·.2.type)

theorem names_eq_header (b : Batch) : b.names = b.header.map (·.1) := by
  simp [names, header, Function.comp_def]

theorem types_eq_header (b : Batch) : b.types = b.header.map (·.2) := by
  simp [types, header, Function.comp_def]

theorem names_of_header {b c : Batch} (h : b.header = c.header) : b.names = c.names := by
  rw [names_eq_header, names_eq_header, h]

/-! ## Computed columns -/

theorem broadcast_of_length {c : Column} {rows : Nat} (h : c.length = rows) :
    c.broadcast rows = .ok c := if_pos h

/-- Columns are computed one by one, and no two of them may have the same name. -/
theorem computeAll_eq_ok {b : Batch} {rows : Nat} {seen : List String} {items : List Expr}
    {columns : List (String × Column)} :
    b.computeAll rows seen items = .ok columns ↔
      columns.map (·.1) = items.map Expr.outputName
        ∧ List.Forall₂ (fun e c => b.compute rows e = .ok c.2) items columns
        ∧ (items.map Expr.outputName).Nodup ∧ ∀ e ∈ items, e.outputName ∉ seen := by
  induction items generalizing seen columns with
  | nil =>
      rw [computeAll]
      constructor
      · intro h
        cases h
        exact ⟨rfl, .nil, List.nodup_nil, fun e he => by cases he⟩
      · rintro ⟨-, h, -, -⟩
        cases h
        rfl
  | cons e rest ih =>
      rw [computeAll]
      constructor
      · intro h
        split at h
        · cases h
        · next hseen =>
            obtain ⟨here, hhere, h⟩ := bind_eq_ok.1 h
            obtain ⟨more, hmore, h⟩ := bind_eq_ok.1 h
            cases h
            obtain ⟨hnames, hall, hnodup, hfree⟩ := ih.1 hmore
            refine ⟨by rw [List.map_cons, hnames, List.map_cons], .cons hhere hall, ?_, ?_⟩
            · refine List.nodup_cons.2 ⟨fun hmem => ?_, hnodup⟩
              obtain ⟨other, hother, hname⟩ := List.mem_map.1 hmem
              exact hfree other hother (hname ▸ List.mem_cons_self)
            · refine List.forall_mem_cons.2
                ⟨by simpa using hseen, fun other hother hmem => ?_⟩
              exact hfree other hother (List.mem_cons_of_mem _ hmem)
      · rintro ⟨hnames, hall, hnodup, hfree⟩
        obtain ⟨⟨name, c⟩, more, hcompute, hmore, rfl⟩ := List.forall₂_cons_left_iff.1 hall
        obtain ⟨hnew, hnodup⟩ := List.nodup_cons.1 hnodup
        obtain ⟨hname, hnames⟩ := List.cons.inj hnames
        obtain ⟨hseen, hfree⟩ := List.forall_mem_cons.1 hfree
        rw [if_neg (by rwa [List.contains_iff_mem])]
        refine bind_eq_ok.2
          ⟨c, hcompute, bind_eq_ok.2 ⟨more, ih.2 ⟨hnames, hmore, hnodup, ?_⟩, ?_⟩⟩
        · intro other hother hmem
          rcases List.mem_cons.1 hmem with heq | hmem
          · exact hnew (List.mem_map.2 ⟨other, hother, heq⟩)
          · exact hfree other hother hmem
        · rw [← hname]

/-- What is selected bears the names of the items, each once. -/
theorem select_eq_ok {b out : Batch} {items : List Expr} (h : b.select items = .ok out) :
    out.names = items.map Expr.outputName ∧ out.names.Nodup := by
  obtain ⟨columns, hcolumns, h⟩ := bind_eq_ok.1 h
  cases h
  obtain ⟨hnames, -, hnodup, -⟩ := computeAll_eq_ok.1 hcolumns
  exact ⟨hnames, by rw [names, hnames]; exact hnodup⟩

/-- As high as the batch, unless all items are reductions. -/
theorem select_of_computeAll {b : Batch} {items : List Expr}
    {columns : List (String × Column)} (hplain : ∀ e ∈ items, e.reduces = false)
    (h : b.computeAll b.rows [] items = .ok columns) :
    b.select items = .ok ⟨b.rows, columns⟩ := by
  have hrows :
      (if !items.isEmpty && items.all Expr.reduces then 1 else b.rows) = b.rows := by
    cases items with
    | nil => rfl
    | cons e rest => simp [hplain e List.mem_cons_self]
  rw [select]
  simp only [hrows, h]
  rfl

theorem column?_of_mem {b : Batch} (hnodup : b.names.Nodup) {name : String} {c : Column}
    (h : (name, c) ∈ b.columns) : b.column? name = some c := by
  obtain ⟨rows, columns⟩ := b
  simp only [names] at hnodup
  simp only [column?] at h ⊢
  induction columns with
  | nil => cases h
  | cons d rest ih =>
      obtain ⟨hnew, hnodup⟩ := List.nodup_cons.1 hnodup
      rcases List.mem_cons.1 h with rfl | h
      · simp
      · have hne : d.1 ≠ name := by
          rintro rfl
          exact hnew (List.mem_map_of_mem (f := (·.1)) h)
        simpa [hne] using ih hnodup h

/-- A column that is computed from the batch is one of its own. -/
theorem mem_names_of_evaluate {b : Batch} {name : String} {c : Column}
    (h : Expr.evaluate b (.column name) = .ok c) :
    name ∈ b.names := by
  rw [Expr.evaluate, Expr.findColumn] at h
  split at h
  · next hfound =>
      obtain ⟨named, hnamed, -⟩ := Option.map_eq_some_iff.1 hfound
      have hname := List.find?_some hnamed
      exact List.mem_map.2 ⟨named, List.mem_of_find?_eq_some hnamed, beq_iff_eq.1 hname⟩
  · cases h

/-- One column under another name. -/
theorem select_named {b : Batch} {name other : String} {c : Column}
    (h : b.column? name = some c) (hlength : c.length = b.rows) :
    b.select [.named (.column name) other] = .ok ⟨b.rows, [(other, c)]⟩ := by
  have hcompute : b.compute b.rows (.named (.column name) other) = .ok c := by
    rw [compute, Expr.evaluate, Expr.evaluate, Expr.findColumn, h]
    exact broadcast_of_length hlength
  refine select_of_computeAll (by simp [Expr.reduces])
    (computeAll_eq_ok.2 ⟨rfl, .cons hcompute .nil, ?_, ?_⟩)
  · simp
  · simp

/-! ## Steps that keep the columns -/

section

variable {b out : Batch}

theorem header_map {f : Column → Column} (hf : ∀ c, (f c).type = c.type)
    (b : Batch) (rows : Nat) :
    header ⟨rows, b.columns.map fun c => (c.1, f c.2)⟩ = b.header := by
  rw [header, header, List.map_map]
  exact List.map_congr_left fun c _ => congrArg (Prod.mk c.1) (hf c.2)

theorem header_gather (b : Batch) (rows : List (Option Nat)) :
    (b.gather rows).header = b.header :=
  header_map (f := (·.gather rows)) (fun _ => rfl) b _

theorem header_keep (b : Batch) (mask : List Bool) : (b.keep mask).header = b.header :=
  header_map (f := (·.keep mask)) (fun _ => rfl) b _

theorem header_slice (b : Batch) (offset : Nat) (length : Option Nat) :
    (b.slice offset length).header = b.header :=
  header_map (f := fun c => ⟨c.type, (c.cells.drop (min offset b.rows)).take
    (min (length.getD b.rows) (b.rows - min offset b.rows))⟩) (fun _ => rfl) b _

theorem unique_cases (b : Batch) :
    b.unique = b.slice 0 (some 1) ∨ b.unique = b ∨ ∃ rows, b.unique = b.gather rows := by
  unfold unique
  split
  · exact .inl rfl
  · dsimp only
    split
    · exact .inr (.inl rfl)
    · exact .inr (.inr ⟨_, rfl⟩)

theorem header_unique (b : Batch) : b.unique.header = b.header := by
  rcases b.unique_cases with h | h | ⟨rows, h⟩
  · rw [h, header_slice]
  · rw [h]
  · rw [h, header_gather]

theorem header_filterBy {predicate : Expr} (h : b.filterBy predicate = .ok out) :
    out.header = b.header := by
  obtain ⟨mask, -, h⟩ := bind_eq_ok.1 h
  cases h
  exact header_keep b _

theorem header_dropNulls {columns : Option (List String)}
    (h : b.dropNulls columns = .ok out) :
    out.header = b.header := by
  cases columns with
  | none =>
      cases h
      exact header_keep b _
  | some columns =>
      obtain ⟨found, -, h⟩ := bind_eq_ok.1 h
      cases h
      exact header_keep b _

theorem header_sort {keys : List Expr} {descending : List Bool}
    (h : b.sort keys descending = .ok out) :
    out.header = b.header := by
  unfold sort at h
  split at h
  · cases h
  · split at h
    · cases h; rfl
    · obtain ⟨columns, -, h⟩ := bind_eq_ok.1 h
      obtain ⟨_, -, h⟩ := bind_eq_ok.1 h
      cases h
      exact header_gather b _

/-- A join that only chooses rows of the left side. -/
theorem header_join_of_chosen {left right : Batch} {leftKeys rightKeys : List Expr}
    {kind : JoinKind} {suffix : String} {nullsMatch : Bool}
    (hkind : kind = .semi ∨ kind = .anti)
    (h : left.join right leftKeys rightKeys kind suffix nullsMatch = .ok out) :
    out.header = left.header := by
  unfold join at h
  split at h
  · cases h
  · obtain ⟨ls, -, h⟩ := bind_eq_ok.1 h
    obtain ⟨computed, -, h⟩ := bind_eq_ok.1 h
    obtain ⟨rs, -, h⟩ := bind_eq_ok.1 h
    rw [if_pos (by rcases hkind with rfl | rfl <;> rfl)] at h
    cases h
    exact header_gather left _

theorem names_put {columns : List (String × Column)} {name : String} (c : Column)
    (h : name ∈ columns.map (·.1)) : (put columns name c).map (·.1) = columns.map (·.1) := by
  induction columns with
  | nil => cases h
  | cons d rest ih =>
      obtain ⟨other, d⟩ := d
      rw [put]
      by_cases heq : other = name
      · rw [if_pos heq]
        rfl
      · rw [if_neg heq, List.map_cons, List.map_cons, ih]
        rcases List.mem_cons.1 h with hname | h
        · exact absurd hname.symm heq
        · exact h

theorem names_foldl_put {columns computed : List (String × Column)}
    (h : ∀ c ∈ computed, c.1 ∈ columns.map (·.1)) :
    (computed.foldl (fun columns c => put columns c.1 c.2) columns).map (·.1)
      = columns.map (·.1) := by
  induction computed generalizing columns with
  | nil => rfl
  | cons c rest ih =>
      obtain ⟨hc, hrest⟩ := List.forall_mem_cons.1 h
      have hput := names_put c.2 hc
      rw [List.foldl_cons, ih fun d hd => hput ▸ hrest d hd, hput]

/-- Columns that take the place of others leave the names as they are. -/
theorem names_extend {items : List Expr} (hnames : ∀ e ∈ items, e.outputName ∈ b.names)
    (h : b.extend items = .ok out) : out.names = b.names := by
  obtain ⟨computed, hcomputed, h⟩ := bind_eq_ok.1 h
  cases h
  obtain ⟨hall, -⟩ := computeAll_eq_ok.1 hcomputed
  refine names_foldl_put fun c hc => ?_
  have hmem : c.1 ∈ items.map Expr.outputName := hall ▸ List.mem_map_of_mem hc
  obtain ⟨e, he, hname⟩ := List.mem_map.1 hmem
  exact hname ▸ hnames e he

/-! ## Steps that make new columns -/

theorem length_computeKeys {keys : List Expr} {columns : List Column}
    (h : b.computeKeys keys = .ok columns) : columns.length = keys.length := by
  induction keys generalizing columns with
  | nil => cases h; rfl
  | cons e rest ih =>
      obtain ⟨here, -, h⟩ := bind_eq_ok.1 h
      obtain ⟨more, hmore, h⟩ := bind_eq_ok.1 h
      cases h
      rw [List.length_cons, List.length_cons, ih hmore]

theorem length_reduceAll {metrics : List Expr} {columns : List Column}
    (h : b.reduceAll metrics = .ok columns) : columns.length = metrics.length := by
  induction metrics generalizing columns with
  | nil => cases h; rfl
  | cons e rest ih =>
      obtain ⟨here, -, h⟩ := bind_eq_ok.1 h
      obtain ⟨more, hmore, h⟩ := bind_eq_ok.1 h
      cases h
      rw [List.length_cons, List.length_cons, ih hmore]

theorem length_stackAll {parts : List (List Column)} {columns : List Column}
    (h : stackAll parts = .ok columns) : columns.length = parts.length := by
  induction parts generalizing columns with
  | nil => cases h; rfl
  | cons part rest ih =>
      obtain ⟨here, -, h⟩ := bind_eq_ok.1 h
      obtain ⟨more, hmore, h⟩ := bind_eq_ok.1 h
      cases h
      rw [List.length_cons, List.length_cons, ih hmore]

theorem length_metricColumns {metrics : List Expr} {groups : List (List Nat)}
    {columns : List Column} (h : b.metricColumns metrics groups = .ok columns) :
    columns.length = metrics.length := by
  unfold metricColumns at h
  split at h
  · obtain ⟨reduced, hreduced, h⟩ := bind_eq_ok.1 h
    cases h
    rw [List.length_map, length_reduceAll hreduced]
  · obtain ⟨rows, -, h⟩ := bind_eq_ok.1 h
    rw [length_stackAll h, List.length_map, List.length_range]

/-- An aggregation has the keys and then the metrics. -/
theorem names_aggregate {keys metrics : List Expr} (h : b.aggregate keys metrics = .ok out) :
    out.names = (keys ++ metrics).map Expr.outputName := by
  obtain ⟨_, -, h⟩ := bind_eq_ok.1 h
  split at h
  · next hkeys =>
      obtain ⟨columns, hcolumns, h⟩ := bind_eq_ok.1 h
      cases h
      rw [names, List.map_fst_zip]
      rw [List.length_map, length_reduceAll hcolumns, List.isEmpty_iff.1 hkeys]
      exact Nat.le_refl _
  · obtain ⟨keyColumns, hkeys, h⟩ := bind_eq_ok.1 h
    obtain ⟨columns, hcolumns, h⟩ := bind_eq_ok.1 h
    cases h
    rw [names, List.map_fst_zip]
    simp [length_computeKeys hkeys, length_metricColumns hcolumns]

theorem names_columnsOf {rows : List (List Value)} {position : Nat} {infos : List ColumnInfo}
    {columns : List (String × Column)} (h : columnsOf rows position infos = .ok columns) :
    columns.map (·.1) = infos.map (·.name) := by
  induction infos generalizing position columns with
  | nil => cases h; rfl
  | cons info rest ih =>
      obtain ⟨here, -, h⟩ := bind_eq_ok.1 h
      obtain ⟨after, hafter, h⟩ := bind_eq_ok.1 h
      cases h
      rw [List.map_cons, List.map_cons, ih hafter]

theorem names_ofRows {s : Schema} {rows : List (List Value)} (h : ofRows s rows = .ok out) :
    out.names = s.names := by
  obtain ⟨columns, hcolumns, h⟩ := bind_eq_ok.1 h
  split at h
  · cases h
    exact names_columnsOf hcolumns
  · cases h

end

end Batch

end TypedQuery
