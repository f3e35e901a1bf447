import TypedQuery.Proofs.Engine.Answers

/-!
# Names of executed tables

A table that is executed has the columns that its schema names, in order, if the
tables of the catalog do and no join inside it has clashing names. What a table is
executed to comes in few forms (`Executed`), and each of them is held against the
schema rule of its kind of table.
-/

namespace TypedQuery

/-- The tables that the catalog has for a node have the columns that their schemas name. -/
def Catalog.Fits (catalog : Catalog) (n : Node) : Prop :=
  ∀ m : Node, m.Within n → m.kind = .databaseTable →
    ∀ name s b, m.stringField "name" = .ok name →
    m.outputSchema = .ok s → catalog.get name = .ok b → b.names = s.names

/-- No join inside a node has clashing names. -/
def Node.ClashFree (n : Node) : Prop :=
  ∀ m : Node, m.Within n → ∀ left right l r s, m.Joins left right l r s →
    ¬ Rules.Clash l.names r.names

theorem Catalog.Fits.child {catalog : Catalog} {m n : Node} (h : catalog.Fits n)
    (hm : m ∈ n.children) :
    catalog.Fits m :=
  fun k hk => h k (Or.inr (hk.under hm))

theorem Node.ClashFree.child {m n : Node} (h : n.ClashFree)
    (hm : m ∈ n.children) : m.ClashFree :=
  fun k hk => h k (Or.inr (hk.under hm))

theorem NodeKind.isTable_of_isValue {k : NodeKind} (h : k.isValue = true) :
    k.isTable = false := by
  revert h
  have hmem := k.mem_all
  revert hmem
  revert k
  set_option maxRecDepth 2000 in decide

/-- The kinds of tables that are made of some of the rows of the table in a field. -/
def NodeKind.keeping : List (NodeKind × String) :=
  [(.limit, "table"), (.distinct, "table"), (.dropNa, "table"), (.leftSemiJoin, "left"),
    (.leftAntiJoin, "left")]

/-- The schema of such a table is that of the table in the field. -/
theorem Node.Built.schemaIn_of_keeping {n : Node} {field : String} {s : Schema} (h : n.Built)
    (hk : (n.kind, field) ∈ NodeKind.keeping) (hs : n.outputSchema = .ok s) :
    n.kind.validator? field = some .table ∧ Rules.schemaIn field n.fields = .ok s := by
  simp only [NodeKind.keeping, List.mem_cons, List.not_mem_nil, or_false,
    Prod.mk.injEq] at hk
  rcases hk with ⟨hk, rfl⟩ | ⟨hk, rfl⟩ | ⟨hk, rfl⟩ | ⟨hk, rfl⟩ | ⟨hk, rfl⟩ <;> (
    have hrule := (h.outputSchema_eq (by rw [hk]; rfl)).1 hs
    rw [hk] at hrule ⊢
    exact ⟨rfl, hrule⟩)

namespace Engine

variable {clock : Clock} {s after : Session Clock Lowered}

/-! ## Names of values -/

theorem run_exprOf_eq_ok {m : Node} {e : Expr}
    (h : (exprOf (lowered clock) m).run s = (.ok e, after)) :
    rules.answer clock m = .ok (.expr e) := by
  obtain ⟨output, middle, houtput, h⟩ := Emission.run_bind_eq_ok h
  rw [lowered, Emission.run_lift] at houtput
  rw [Emission.run_lift] at h
  obtain ⟨hanswer, rfl⟩ := Prod.mk.inj houtput
  obtain ⟨hexpr, -⟩ := Prod.mk.inj h
  cases output with
  | expr e' => cases hexpr; exact hanswer
  | plan p => cases hexpr
  | exprs items => cases hexpr

theorem run_giving_eq_ok {rule : (Node → Lowering Lowered) → Node → Lowering Expr}
    {emit : Node → Lowering Lowered} {n : Node} {e : Expr}
    (h : (giving rule emit n).run s = (.ok (.expr e), after)) :
    (rule emit n).run s = (.ok e, after) := by
  obtain ⟨e', middle, he, h⟩ := Emission.run_bind_eq_ok h
  cases h
  exact he

/-- What is computed for a value bears the name of the value. -/
theorem outputName_of_named {m : Node} (hm : m.Built) {e : Expr}
    (h : (named (lowered clock) m).run s = (.ok e, after)) : m.name = .ok e.outputName := by
  obtain ⟨e', middle, he, h⟩ := Emission.run_bind_eq_ok h
  have hanswer := run_exprOf_eq_ok he
  split at h
  · next hkind =>
      cases h
      rw [Node.name_of_given hkind]
      rcases hkind with hkind | hkind
      · have hresolve : rules.resolve m.kind = .ok (.renamed, aliasRule) :=
          resolve_of_kind hkind rfl
        obtain ⟨_, hrun⟩ := run_of_answer hm hresolve hanswer
        obtain ⟨arg, _, -, hrun⟩ := Emission.run_bind_eq_ok (run_giving_eq_ok hrun)
        obtain ⟨name, hname, hrun⟩ := Emission.run_lift_bind_eq_ok hrun
        cases hrun
        exact hname
      · have hresolve : rules.resolve m.kind = .ok (.tableColumn, columnRule) :=
          resolve_of_kind hkind rfl
        obtain ⟨_, hrun⟩ := run_of_answer hm hresolve hanswer
        obtain ⟨name, hname, hrun⟩ := Emission.run_lift_bind_eq_ok (run_giving_eq_ok hrun)
        cases hrun
        exact hname
  · obtain ⟨name, hname, h⟩ := Emission.run_lift_bind_eq_ok h
    cases h
    exact hname

end Engine

/-! ## Columns that are added -/

namespace Rules

theorem columns_pushUnique {owner field : String} {s out : Schema}
    {columns : List ColumnInfo} (h : pushUnique owner field s columns = .ok out) :
    out.columns = s.columns ++ columns := by
  induction columns generalizing s with
  | nil => cases h; simp
  | cons column rest ih =>
      rw [pushUnique] at h
      split at h
      · cases h
      · rw [ih h, Schema.push, List.append_assoc]
        rfl

theorem valueColumn_eq_ok {m : Node} {column : ColumnInfo} (h : valueColumn m = .ok column) :
    m.name = .ok column.name ∧ m.dataType? = some column.dataType := by
  obtain ⟨name, hname, h⟩ := bind_eq_ok.1 h
  obtain ⟨t, ht, h⟩ := bind_eq_ok.1 h
  cases h
  refine ⟨hname, ?_⟩
  unfold Node.outputType at ht
  split at ht
  · next u hu => cases ht; exact hu
  · cases ht

end Rules

namespace Engine

/-- The columns that nodes add to a schema, beside the expressions that these
are computed by. A table adds all of its columns, which are found by their
names, and a value adds one. -/
inductive Added (clock : Clock) : List Node → List Expr → List ColumnInfo → Prop
  | nil : Added clock [] [] []
  | table {m : Node} {rest : List Node} {t : Schema} {items : List Expr}
      {columns : List ColumnInfo} (hk : m.kind.isTable = true) (ht : m.outputSchema = .ok t)
      (hrest : Added clock rest items columns) :
      Added clock (m :: rest) (t.names.map Expr.column ++ items) (t.columns ++ columns)
  | value {m : Node} {rest : List Node} {e : Expr} {items : List Expr} {column : ColumnInfo}
      {columns : List ColumnInfo}
      (hk : m.kind.isTable = false) (he : Emission.CanGive (named (lowered clock) m) e)
      (hcolumn : Rules.valueColumn m = .ok column) (hrest : Added clock rest items columns) :
      Added clock (m :: rest) (e :: items) (column :: columns)

variable {clock : Clock} {s after : Session Clock Lowered} {ms : List Node}
    {items : List Expr} {before out : Schema}

/-- The items of a selection add its columns. -/
theorem added_of_selected (h : (selected (lowered clock) ms).run s = (.ok items, after))
    (hout : Rules.pushSelected before ms = .ok out) :
    ∃ columns, Added clock ms items columns ∧ out.columns = before.columns ++ columns := by
  induction ms generalizing items s after before with
  | nil => cases h; cases hout; exact ⟨[], .nil, (List.append_nil _).symm⟩
  | cons m rest ih =>
      rw [selected] at h
      rw [Rules.pushSelected] at hout
      simp only [] at hout
      by_cases htable : m.kind.isTable = true
      · rw [if_pos htable] at h hout
        obtain ⟨next, hnext, hout⟩ := bind_eq_ok.1 hout
        obtain ⟨t, ht, h⟩ := Emission.run_lift_bind_eq_ok h
        obtain ⟨here, _, hhere, hafter⟩ := Emission.run_bind_eq_ok h
        cases hhere
        obtain ⟨more, _, hmore, hlast⟩ := Emission.run_bind_eq_ok hafter
        obtain ⟨rfl, -⟩ := Emission.run_pure_eq_ok hlast
        obtain ⟨columns, hadded, hcolumns⟩ := ih hmore hout
        rw [Node.schema?_of_outputSchema ht] at hnext
        exact ⟨_, .table htable ht hadded,
          by rw [hcolumns, Rules.columns_pushUnique hnext, List.append_assoc]; rfl⟩
      · rw [if_neg htable] at h hout
        obtain ⟨column, hcolumn, hout⟩ := bind_eq_ok.1 hout
        obtain ⟨next, hnext, hout⟩ := bind_eq_ok.1 hout
        obtain ⟨e, _, he, h⟩ := Emission.run_bind_eq_ok h
        obtain ⟨here, _, hhere, hafter⟩ := Emission.run_bind_eq_ok h
        cases hhere
        obtain ⟨more, _, hmore, hlast⟩ := Emission.run_bind_eq_ok hafter
        obtain ⟨rfl, -⟩ := Emission.run_pure_eq_ok hlast
        obtain ⟨columns, hadded, hcolumns⟩ := ih hmore hout
        exact ⟨_, .value (by simpa using htable) ⟨_, _, he⟩ hcolumn hadded,
          by rw [hcolumns, Rules.columns_pushUnique hnext, List.append_assoc]; rfl⟩

/-- The keys and the metrics of an aggregation add one column each. -/
theorem added_of_namedEach {field : String} (hms : ∀ m ∈ ms, m.kind.isTable = false)
    (h : (namedEach (lowered clock) ms).run s = (.ok items, after))
    (hout : Rules.pushValues field before ms = .ok out) :
    ∃ columns, Added clock ms items columns ∧ out.columns = before.columns ++ columns := by
  induction ms generalizing items s after before with
  | nil => cases h; cases hout; exact ⟨[], .nil, (List.append_nil _).symm⟩
  | cons m rest ih =>
      obtain ⟨hm, hrest⟩ := List.forall_mem_cons.1 hms
      obtain ⟨e, middle, he, h⟩ := Emission.run_bind_eq_ok h
      obtain ⟨more, last, hmore, h⟩ := Emission.run_bind_eq_ok h
      cases h
      obtain ⟨column, hcolumn, hout⟩ := bind_eq_ok.1 hout
      obtain ⟨next, hnext, hout⟩ := bind_eq_ok.1 hout
      obtain ⟨columns, hadded, hcolumns⟩ := ih hrest hmore hout
      exact ⟨_, .value hm ⟨_, _, he⟩ hcolumn hadded,
        by rw [hcolumns, Rules.columns_pushUnique hnext, List.append_assoc]; rfl⟩

theorem Added.append {ms' : List Node} {items' : List Expr}
    {columns columns' : List ColumnInfo} (h : Added clock ms items columns)
    (h' : Added clock ms' items' columns') :
    Added clock (ms ++ ms') (items ++ items') (columns ++ columns') := by
  induction h with
  | nil => exact h'
  | table hk ht _ ih =>
      rw [List.append_assoc, List.append_assoc]
      exact .table hk ht ih
  | value hk he hcolumn _ ih => exact .value hk he hcolumn ih

/-- The expressions bear the names of the columns. -/
theorem Added.names {columns : List ColumnInfo} (h : Added clock ms items columns)
    (hms : ∀ m ∈ ms, m.Built) :
    columns.map (·.name) = items.map Expr.outputName := by
  induction h with
  | nil => rfl
  | table _ _ _ ih =>
      rw [List.map_append, List.map_append, ih (List.forall_mem_cons.1 hms).2]
      simp [Schema.names, Expr.outputName, Function.comp_def]
  | value _ he hcolumn _ ih =>
      obtain ⟨_, _, he⟩ := he
      obtain ⟨hm, hrest⟩ := List.forall_mem_cons.1 hms
      have hsame :=
        Except.ok.inj ((Rules.valueColumn_eq_ok hcolumn).1.symm.trans
          (outputName_of_named hm he))
      rw [List.map_cons, List.map_cons, hsame, ih hrest]

/-! ## Names of filled columns -/

theorem mem_of_namedFills {n : Node} {t : Schema} {entries : List (String × Arg)}
    {filled : List (ColumnInfo × Value)} (h : namedFills n t entries = .ok filled) :
    ∀ fill ∈ filled, fill.1 ∈ t.columns := by
  induction entries generalizing filled with
  | nil => cases h; exact fun fill hfill => by cases hfill
  | cons entry rest ih =>
      obtain ⟨name, a⟩ := entry
      rw [namedFills] at h
      split at h
      · cases h
      · next column hcolumn =>
          obtain ⟨v, -, h⟩ := bind_eq_ok.1 h
          obtain ⟨more, hmore, h⟩ := bind_eq_ok.1 h
          cases h
          exact List.forall_mem_cons.2 ⟨List.mem_of_find?_eq_some hcolumn, ih hmore⟩

theorem mem_of_fills {n : Node} {t : Schema} {a : Arg} {filled : List (ColumnInfo × Value)}
    (h : fills n t a = .ok filled) : ∀ fill ∈ filled, fill.1 ∈ t.columns := by
  unfold fills at h
  split at h
  · exact mem_of_namedFills h
  · obtain ⟨v, -, h⟩ := bind_eq_ok.1 h
    cases h
    intro fill hfill
    obtain ⟨column, hcolumn, rfl⟩ := List.mem_map.1 hfill
    exact (List.mem_filter.1 hcolumn).1

/-! ## Names of tables -/

theorem header_filtered {catalog : Catalog} {input : Plan}
    {predicates : List Expr} {b : Batch}
    (h : (filtered input predicates).execute catalog = .ok b) :
    ∃ before, input.execute catalog = .ok before ∧ b.header = before.header := by
  unfold filtered at h
  split at h
  · obtain ⟨before, hbefore, h⟩ := bind_eq_ok.1 h
    exact ⟨before, hbefore, Batch.header_filterBy h⟩
  · exact ⟨b, h, rfl⟩

section

variable {n : Node} {config : Config} {clock : Clock} {catalog : Catalog}
    {p : Plan} {b : Batch}

/-- The table in a field is executed, and the names and types of its columns are kept. -/
def KeptFrom (clock : Clock) (catalog : Catalog) (n : Node) (field : String)
    (b : Batch) : Prop :=
  ∃ m input before, n.child field = .ok m ∧ planOf clock m = .ok input
    ∧ input.execute catalog = .ok before ∧ b.header = before.header

theorem kept_execute {field : String} {input : Plan} {before : Batch}
    (hinput : PlanIn clock n field input) (hbefore : input.execute catalog = .ok before)
    (hheader : b.header = before.header) :
    KeptFrom clock catalog n field b := by
  obtain ⟨-, m, hm, hplan⟩ := hinput
  exact ⟨m, input, before, hm, hplan, hbefore, hheader⟩

theorem kept_sortedBy {field : String} {input : Plan} {predicates : List Expr}
    {keys : List (Expr × Bool)} (hinput : PlanIn clock n field input)
    (hb : (sortedBy (filtered input predicates) keys).execute catalog = .ok b) :
    KeptFrom clock catalog n field b := by
  unfold sortedBy at hb
  split at hb
  · obtain ⟨before, hbefore, hheader⟩ := header_filtered hb
    exact kept_execute hinput hbefore hheader
  · obtain ⟨kept, hkept, hb⟩ := bind_eq_ok.1 hb
    obtain ⟨before, hbefore, hheader⟩ := header_filtered hkept
    exact kept_execute hinput hbefore ((Batch.header_sort hb).trans hheader)

theorem execute_filledBy {input : Plan} {filled : List (ColumnInfo × Value)} :
    (filledBy input filled).execute catalog = .ok b
      ↔ ∃ before, input.execute catalog = .ok before
      ∧ before.extend (filled.map fun fill => filledColumn fill.1 fill.2) = .ok b := by
  unfold filledBy
  split
  · next hempty =>
      obtain rfl := List.isEmpty_iff.1 hempty
      refine ⟨fun hb => ⟨b, hb, rfl⟩, ?_⟩
      rintro ⟨before, hbefore, hb⟩
      cases hb
      exact hbefore
  · exact bind_eq_ok

/-- What a table is executed to, by what it has to do with the tables that it is made of. -/
inductive Executed (clock : Clock) (catalog : Catalog) (n : Node) (b : Batch) : Prop
  | stored {name : String} (hk : n.kind = .databaseTable)
    (hname : n.stringField "name" = .ok name)
      (hb : catalog.get name = .ok b)
  | given {t : Schema} {rows : List (List Value)} (hk : n.kind = .inMemoryTable)
      (ht : n.outputSchema = .ok t)
      (hb : Batch.ofRows t rows = .ok b)
  | selection {ms : List Node} {sorted : Batch} (hk : n.kind = .selection)
      (hms : n.childList "selections" = .ok ms)
      (hsorted : KeptFrom clock catalog n "table" sorted)
      (hb : ms = [] ∧ b = sorted
        ∨ ms ≠ [] ∧ ∃ items, Emission.CanGive (selected (lowered clock) ms) items
        ∧ sorted.select items = .ok b)
  | aggregation {ks ms : List Node} {keys metrics : List Expr} {kept : Batch}
      (hk : n.kind = .aggregation)
      (hks : n.childList "by" = .ok ks)
        (hkeys : Emission.CanGive (namedEach (lowered clock) ks) keys)
      (hms : n.childList "metrics" = .ok ms)
        (hmetrics : Emission.CanGive (namedEach (lowered clock) ms) metrics)
      (hkept : KeptFrom clock catalog n "table" kept)
        (hb : kept.aggregate keys metrics = .ok b)
  | kept {field : String} (hk : (n.kind, field) ∈ NodeKind.keeping)
    (hkept : KeptFrom clock catalog n field b)
  | filled {m : Node} {t : Schema} {a : Arg} {filled : List (ColumnInfo × Value)}
      {input : Plan} {before : Batch}
      (hk : n.kind = .fillNa) (hm : n.child "table" = .ok m) (ht : m.outputSchema = .ok t)
      (hfilled : fills n t a = .ok filled) (hinput : planOf clock m = .ok input)
      (hbefore : input.execute catalog = .ok before)
      (hb : before.extend (filled.map fun fill => filledColumn fill.1 fill.2) = .ok b)
  | joined (hk : n.kind ∈ NodeKind.wideJoins)

theorem executed (h : n.Built) (htable : n.kind.isTable = true) (hp : planOf clock n = .ok p)
    (hb : p.execute catalog = .ok b) : Executed clock catalog n b := by
  cases planned h hp htable with
  | stored hk hname => exact .stored hk hname hb
  | given hk ht _ hbatch _ =>
      cases hb
      exact .given hk ht hbatch
  | whole hk hinput hms =>
      exact .selection hk hms (kept_sortedBy hinput hb) (.inl ⟨rfl, rfl⟩)
  | selection hk hinput hms hne hitems =>
      obtain ⟨sorted, hsorted, hb⟩ := bind_eq_ok.1 hb
      exact .selection hk hms (kept_sortedBy hinput hsorted) (.inr ⟨hne, _, hitems, hb⟩)
  | aggregation hk hinput hks hkeys hms hmetrics =>
      obtain ⟨kept, hkept, hb⟩ := bind_eq_ok.1 hb
      obtain ⟨before, hbefore, hheader⟩ := header_filtered hkept
      exact .aggregation hk hks hkeys hms hmetrics (kept_execute hinput hbefore hheader) hb
  | limit hk _ _ hinput =>
      obtain ⟨before, hbefore, hb⟩ := bind_eq_ok.1 hb
      cases hb
      exact .kept (by rw [hk]; decide)
        (kept_execute hinput hbefore (Batch.header_slice before _ _))
  | distinct hk hinput =>
      obtain ⟨before, hbefore, hb⟩ := bind_eq_ok.1 hb
      cases hb
      exact .kept (by rw [hk]; decide)
        (kept_execute hinput hbefore (Batch.header_unique before))
  | dropNulls hk _ hinput =>
      obtain ⟨before, hbefore, hb⟩ := bind_eq_ok.1 hb
      exact .kept (by rw [hk]; decide)
        (kept_execute hinput hbefore (Batch.header_dropNulls hb))
  | undropped hk _ hinput => exact .kept (by rw [hk]; decide) (kept_execute hinput hb rfl)
  | fillNulls hk hm ht _ hfilled hinput =>
      obtain ⟨before, hbefore, hb⟩ := execute_filledBy.1 hb
      exact .filled hk hm ht hfilled hinput hbefore hb
  | join hk hl _ _ =>
      simp only [plainJoins, List.mem_cons, List.not_mem_nil, or_false, Prod.mk.injEq] at hk
      obtain ⟨lb, hlb, hb⟩ := bind_eq_ok.1 hb
      obtain ⟨_, _, hb⟩ := bind_eq_ok.1 hb
      rcases hk with ⟨hk, -⟩ | ⟨hk, -⟩ | ⟨hk, -⟩ | ⟨hk, rfl⟩ | ⟨hk, rfl⟩
      · exact .joined (by rw [hk]; decide)
      · exact .joined (by rw [hk]; decide)
      · exact .joined (by rw [hk]; decide)
      · exact .kept (by rw [hk]; decide)
          (kept_execute hl hlb (Batch.header_join_of_chosen (.inl rfl) hb))
      · exact .kept (by rw [hk]; decide)
          (kept_execute hl hlb (Batch.header_join_of_chosen (.inr rfl) hb))
  | rightJoin hk => exact .joined (by rw [hk]; decide)

theorem mem_names_of_filledColumn {b : Batch} {column : ColumnInfo} {v : Value}
    {rows : Nat} {c : Column} (h : b.compute rows (filledColumn column v) = .ok c) :
    column.name ∈ b.names := by
  obtain ⟨filled, hfilled, -⟩ := bind_eq_ok.1 h
  obtain ⟨withNan, hwithNan, -⟩ := bind_eq_ok.1 hfilled
  obtain ⟨withoutNan, hwithoutNan, -⟩ := bind_eq_ok.1 hwithNan
  obtain ⟨here, hhere, -⟩ := bind_eq_ok.1 hwithoutNan
  exact Batch.mem_names_of_evaluate hhere

/-- Only columns that are there are filled. -/
theorem names_of_filled {before : Batch} {filled : List (ColumnInfo × Value)}
    (hb : before.extend (filled.map fun fill => filledColumn fill.1 fill.2) = .ok b) :
    ∀ e ∈ filled.map (fun fill => filledColumn fill.1 fill.2),
      e.outputName ∈ before.names := by
  intro e he
  obtain ⟨columns, hcolumns, -⟩ := bind_eq_ok.1 hb
  obtain ⟨c, -, hc⟩ :=
    exists_of_forall₂_right (Batch.computeAll_eq_ok.1 hcolumns).2.1.flip he
  obtain ⟨fill, -, rfl⟩ := List.mem_map.1 he
  exact mem_names_of_filledColumn hc

end

/-- How the names of an executed table relate to those of its schema: whatever holds of
equal names, and of a join whenever it holds of both sides, holds of every table. -/
theorem names_induction {config : Config} {clock : Clock} {catalog : Catalog}
    {R : List String → List String → Prop} {P : Node → Prop}
    (hrefl : ∀ names, R names names) (hchild : ∀ {m n : Node}, P n → m ∈ n.children → P m)
    (hjoin : ∀ {n left right : Node} {l r s : Schema} {lb rb b : Batch}, P n →
      n.Joins left right l r s →
      execute config clock left catalog = .ok lb →
        execute config clock right catalog = .ok rb →
      R lb.names l.names → R rb.names r.names → execute config clock n catalog = .ok b →
        R b.names s.names)
    {n : Node} (h : n.Built) (htable : n.kind.isTable = true) (hcatalog : catalog.Fits n)
    (hn : P n) {s : Schema} (hs : n.outputSchema = .ok s) {b : Batch}
    (hb : execute config clock n catalog = .ok b) : R b.names s.names := by
  induction hdepth : n.depth using Nat.strongRecOn generalizing n s b with
  | ind depth ih =>
      subst hdepth
      have hrule := (h.outputSchema_eq htable).1 hs
      obtain ⟨p, hp, hb'⟩ := (execute_eq_ok h).1 hb
      have hsame : b.names = s.names → R b.names s.names := fun heq => heq ▸ hrefl b.names
      -- The tables that a table is made of stand below it.
      have hbelow : ∀ {field m input before}, n.kind.validator? field = some .table →
          Rules.schemaIn field n.fields = .ok s → n.child field = .ok m →
            planOf clock m = .ok input →
            input.execute catalog = .ok before → b.names = before.names →
                R b.names s.names := by
        intro field m input before hv hschema hm hinput hbefore hnames
        obtain ⟨m', hm', hmem, hmtable, ht⟩ := h.table_in hv hschema
        cases hm.symm.trans hm'
        have hbuilt := h.of_mem_children hmem
        rw [hnames]
        exact ih m.depth (Node.depth_of_mem_children hmem) hbuilt hmtable
          (hcatalog.child hmem) (hchild hn hmem) ht
          ((execute_eq_ok hbuilt).2 ⟨input, hinput, hbefore⟩) rfl
      have hfrom : ∀ {field}, n.kind.validator? field = some .table →
          Rules.schemaIn field n.fields = .ok s →
          KeptFrom clock catalog n field b → R b.names s.names := by
        rintro field hv hschema ⟨m, input, before, hm, hinput, hbefore, hheader⟩
        exact hbelow hv hschema hm hinput hbefore (Batch.names_of_header hheader)
      have hwide : n.kind ∈ NodeKind.wideJoins → R b.names s.names := by
        intro hkind
        obtain ⟨left, right, l, r, s', hj⟩ := h.joins hkind
        cases hs.symm.trans hj.schema
        obtain ⟨lb, rb, hlb, hrb⟩ := execute_sides hj hb
        refine hjoin hn hj hlb hrb ?_ ?_ hb
        · exact ih left.depth (Node.depth_of_mem_children hj.left_mem)
            hj.left_built hj.left_table
            (hcatalog.child hj.left_mem) (hchild hn hj.left_mem) hj.leftSchema hlb rfl
        · exact ih right.depth (Node.depth_of_mem_children hj.right_mem)
            hj.right_built hj.right_table
            (hcatalog.child hj.right_mem) (hchild hn hj.right_mem) hj.rightSchema hrb rfl
      cases executed h htable hp hb' with
      | stored hk hname hb => exact hsame (hcatalog n (.refl n) hk _ s b hname hs hb)
      | given _ ht hb =>
          cases hs.symm.trans ht
          exact hsame (Batch.names_ofRows hb)
      | selection hk hms hkept hcases =>
          rw [hk] at hrule
          simp only [NodeKind.schemaRule, Rules.selectionSchema,
            h.nodesIn_eq (by rw [hk]; rfl) hms] at hrule
          rcases hcases with ⟨rfl, rfl⟩ | ⟨hne, items, ⟨_, _, hitems⟩, hselect⟩
          · exact hfrom (by rw [hk]; rfl) hrule hkept
          · obtain ⟨m, rest, rfl⟩ := List.exists_cons_of_ne_nil hne
            have hbuilt : ∀ k ∈ m :: rest, k.Built :=
              fun k hk => h.of_mem_children (h.mem_children_of_childList hms hk)
            obtain ⟨columns, hadded, hcolumns⟩ := added_of_selected hitems hrule
            refine hsame ?_
            rw [(Batch.select_eq_ok hselect).1, ← hadded.names hbuilt,
              Schema.names, hcolumns]
            rfl
      | aggregation hk hks hkeys hms hmetrics _ haggregate =>
          obtain ⟨_, _, hkeys⟩ := hkeys
          obtain ⟨_, _, hmetrics⟩ := hmetrics
          rw [hk] at hrule
          obtain ⟨grouped, hgrouped, hrule⟩ := bind_eq_ok.1 hrule
          rw [h.nodesIn_eq (by rw [hk]; rfl) hks] at hgrouped
          rw [h.nodesIn_eq (by rw [hk]; rfl) hms] at hrule
          have hbuilt : ∀ {field ms}, n.childList field = .ok ms → ∀ m ∈ ms, m.Built :=
            fun hms m hm => h.of_mem_children (h.mem_children_of_childList hms hm)
          have hplain : ∀ {field v ms}, n.kind.validator? field = some v →
              v.onlyValues = true →
              n.childList field = .ok ms → ∀ m ∈ ms, m.kind.isTable = false :=
            fun hv honly hms m hm =>
              NodeKind.isTable_of_isValue (h.isValue_of_mem_childList hv honly hms hm)
          obtain ⟨first, hfirst, hgrouped⟩ := added_of_namedEach
            (hplain (v := .tupleOf .value) (by rw [hk]; rfl) rfl hks) hkeys hgrouped
          obtain ⟨second, hsecond, hadded⟩ := added_of_namedEach
            (hplain (v := .tupleOf .scalarValue) (by rw [hk]; rfl) rfl hms) hmetrics hrule
          refine hsame ?_
          rw [Batch.names_aggregate haggregate, ← (hfirst.append hsecond).names fun m hm =>
            (List.mem_append.1 hm).elim (hbuilt hks m) (hbuilt hms m), Schema.names,
              hadded, hgrouped]
          rfl
      | kept hk hkept =>
          obtain ⟨hv, hschema⟩ := h.schemaIn_of_keeping hk hs
          exact hfrom hv hschema hkept
      | filled hk hm _ _ hinput hbefore hb =>
          rw [hk] at hrule
          exact hbelow (by rw [hk]; rfl) hrule hm hinput hbefore
            (Batch.names_extend (names_of_filled hb) hb)
      | joined hk => exact hwide hk

/-- A table that is executed has the columns that its schema names. -/
theorem names_execute {n : Node} (h : n.Built) (htable : n.kind.isTable = true)
    {config : Config} {clock : Clock} {catalog : Catalog} (hcatalog : catalog.Fits n)
    (hfree : n.ClashFree) {s : Schema} (hs : n.outputSchema = .ok s) {b : Batch}
    (hb : execute config clock n catalog = .ok b) :
    b.names = s.names := by
  refine names_induction (R := Eq) (P := Node.ClashFree) (fun _ => rfl)
    (fun hn hm => hn.child hm) ?_ h htable hcatalog
    hfree hs hb
  intro n left right l r s lb rb b hn hj hlb hrb hl hr hb
  rw [(names_wideJoin hj hlb hrb hl hr hb).1]
  exact (hj.schema_names_iff.2 (hn n (.refl n) left right l r s hj)).symm

end Engine

end TypedQuery
