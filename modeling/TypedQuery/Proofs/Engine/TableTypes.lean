import TypedQuery.Proofs.Engine.ValueTypes
import TypedQuery.Proofs.Node.Revalidated

/-!
# Types of executed tables

What a selection or an aggregation is executed to has the types of its schema if and only
if every item agrees with the table that it is computed from, provided that the parts of
items do. All other kinds of tables hand on the types of the tables that they are made of,
and what the catalog has and what is stored is where the types begin.
-/

namespace TypedQuery

/-! ## Items that agree -/

namespace Node

/-- The tables and values whose columns a selection or an aggregation has. -/
def items (n : Node) : List Node :=
  match n.kind with
  | .selection => Rules.nodesIn "selections" n.fields
  | .aggregation => Rules.nodesIn "by" n.fields ++ Rules.nodesIn "metrics" n.fields
  | _ => []

/-- Whether an item has the types that it is declared with, as far as that is up
to the item itself. The columns of a table are read by their names from the
table with the schema. -/
def itemAgrees (s : Schema) (m : Node) : Bool :=
  if m.kind.isTable then
    ((m.schema?.map (·.columns)).getD []).all fun column =>
      (s.dataType? column.name).map Physical.ofLogical = some (.ofLogical column.dataType)
  else m.agrees s

/-- Whether all values agree that an item is made of. -/
def itemPartsAgree (s : Schema) (m : Node) : Bool := m.kind.isTable || m.partsAgree s

/-- All items inside the node agree, with all their parts. -/
def Agreeing (n : Node) : Prop :=
  ∀ m : Node, m.Within n → ∀ source s, m.child "table" = .ok source →
    source.outputSchema = .ok s →
    ∀ item ∈ m.items, item.itemPartsAgree s = true ∧ item.itemAgrees s = true

theorem Agreeing.child {m n : Node} (h : n.Agreeing) (hm : m ∈ n.children) : m.Agreeing :=
  fun k hk => h k (Or.inr (hk.under hm))

/-- The schema of the table in a field. -/
theorem Built.schemaIn_of_child {n m : Node} (h : n.Built) {field : String} {s : Schema}
    (hv : n.kind.validator? field = some .table) (hm : n.child field = .ok m)
    (hs : m.outputSchema = .ok s) :
    Rules.schemaIn field n.fields = .ok s := by
  obtain ⟨_, _, a, -, -, -, hfield⟩ := h.field?_eq hv
  have hget : n.get? field = some a := by rw [Node.get?, hfield]; rfl
  obtain ⟨a', ha', hread⟩ := fieldAs_eq_ok hm
  cases hget.symm.trans ha'
  rw [Rules.schemaIn, Fields.node?, hfield, Option.bind_some, hread, Option.bind_some,
    schema?_of_outputSchema hs]

end Node

/-- The tables that the catalog has for a node have the columns of their
schemas, with their types. -/
def Catalog.Matches (catalog : Catalog) (n : Node) : Prop :=
  ∀ m : Node, m.Within n → m.kind = .databaseTable →
    ∀ name s b, m.stringField "name" = .ok name →
    m.outputSchema = .ok s → catalog.get name = .ok b → b.Matches s

namespace Catalog.Matches

variable {catalog : Catalog} {m n : Node}

theorem child (h : catalog.Matches n) (hm : m ∈ n.children) : catalog.Matches m :=
  fun k hk => h k (Or.inr (hk.under hm))

theorem fits (h : catalog.Matches n) : catalog.Fits n :=
  fun m hm hkind name s b hname hs hb => (h m hm hkind name s b hname hs hb).names

end Catalog.Matches

/-! ## Types of columns that are added -/

namespace Rules

theorem types_pushRight {s out : Schema} {columns : List ColumnInfo}
    (h : pushRight s columns = .ok out) :
    out.types = s.types ++ columns.map fun column => .ofLogical column.dataType := by
  induction columns generalizing s with
  | nil => cases h; simp
  | cons column rest ih =>
      rw [pushRight] at h
      obtain ⟨next, hnext, h⟩ := bind_eq_ok.1 h
      rw [ih h, Schema.types, columns_pushUnique hnext, List.map_append, List.append_assoc]
      split <;> rfl

end Rules

namespace Engine

variable {clock : Clock} {st after : Session Clock Lowered} {s before out : Schema}
    {m : Node} {ms : List Node}
  {e : Expr} {es : List Expr} {u : Physical} {us : List Physical}

/-! ## Types of items -/

theorem executedType_of_mayGive (hm : m.Built) (hvalue : m.kind.isValue = true)
    (hparts : m.partsAgree s = true) (he : Compiled clock m e) (hu : e.MayGive s u) :
    m.executedType s = some u := by
  obtain ⟨b, c, hb, hc, rfl⟩ := hu
  exact foretold_value hb hm hvalue hparts he c hc

/-- What a value makes of its type. -/
theorem executedType_of_named (hm : m.Built) (hvalue : m.kind.isValue = true)
    (hparts : m.partsAgree s = true) (h : (named (lowered clock) m).run st = (.ok e, after))
    (hu : e.MayGive s u) : m.executedType s = some u := by
  obtain ⟨e', middle, he, h⟩ := Emission.run_bind_eq_ok h
  have hcompiled : Compiled clock m e' := run_exprOf_eq_ok he
  split at h
  · cases h
    exact executedType_of_mayGive hm hvalue hparts hcompiled hu
  · obtain ⟨name, hname, h⟩ := Emission.run_lift_bind_eq_ok h
    cases h
    obtain ⟨b, c, hb, hc, rfl⟩ := hu
    rw [Expr.evaluate] at hc
    exact executedType_of_mayGive hm hvalue hparts hcompiled ⟨b, c, hb, hc, rfl⟩

/-- A table agrees if its columns, found by their names, have the types that
they are declared with. -/
theorem itemAgrees_table {t : Schema} (hk : m.kind.isTable = true)
    (ht : m.outputSchema = .ok t)
    (hus : List.Forall₂ (Expr.MayGive s) (t.names.map Expr.column) us) :
    us = t.columns.map (fun column => .ofLogical column.dataType)
      ↔ m.itemAgrees s = true := by
  rw [Node.itemAgrees, hk, if_pos rfl, Node.schema?_of_outputSchema ht]
  simp only [Option.map_some, Option.getD_some, List.all_eq_true, decide_eq_true_iff]
  rw [Schema.names, List.map_map, List.forall₂_map_left_iff] at hus
  generalize t.columns = columns at hus
  induction hus with
  | nil => simp
  | cons hu _ ih =>
      obtain ⟨b, c, hb, hc, rfl⟩ := hu
      rw [Function.comp_apply, Expr.evaluate, Expr.findColumn] at hc
      split at hc
      · next d hd =>
          cases hc
          rw [List.map_cons, List.cons.injEq, ih, List.forall_mem_cons, hb.type_eq hd,
            Option.some.injEq]
      · cases hc

/-- A value agrees if what it is computed by has the type that it is declared with. -/
theorem itemAgrees_value {column : ColumnInfo} (hm : m.Built) (hk : m.kind.isTable = false)
    (hvalue : m.kind.isValue = true) (hparts : m.itemPartsAgree s = true)
    (he : Emission.CanGive (named (lowered clock) m) e) (hu : e.MayGive s u)
    (hcolumn : Rules.valueColumn m = .ok column) : u = .ofLogical column.dataType
      ↔ m.itemAgrees s = true := by
  obtain ⟨_, _, he⟩ := he
  rw [Node.itemPartsAgree, hk, Bool.false_or] at hparts
  rw [Node.itemAgrees, hk, if_neg (by decide), Node.agrees,
    executedType_of_named hm hvalue hparts he hu, (Rules.valueColumn_eq_ok hcolumn).2,
    decide_eq_true_iff]
  simp

/-- The columns that are added have the types that they are declared with if and
only if the items agree. -/
theorem Added.types_iff {columns : List ColumnInfo} (h : Added clock ms es columns)
    (hms : ∀ m ∈ ms, m.Built ∧ (m.kind.isTable = true ∨ m.kind.isValue = true)
      ∧ m.itemPartsAgree s = true)
    (hus : List.Forall₂ (Expr.MayGive s) es us) :
    us = columns.map (fun column => .ofLogical column.dataType)
      ↔ ∀ m ∈ ms, m.itemAgrees s = true := by
  induction h generalizing us with
  | nil => cases hus; simp
  | table hk ht _ ih =>
      obtain ⟨us₁, us₂, hus₁, hus₂, rfl⟩ := exists_of_forall₂_append hus
      have hlength := hus₁.length_eq.symm
      rw [List.map_append,
        List.append_eq_append_iff_of_size_eq_left (by simpa [Schema.names] using hlength),
        itemAgrees_table hk ht hus₁, ih (List.forall_mem_cons.1 hms).2 hus₂,
        List.forall_mem_cons]
  | value hk he hcolumn _ ih =>
      obtain ⟨⟨hm, hkind, hparts⟩, hrest⟩ := List.forall_mem_cons.1 hms
      have hvalue := hkind.resolve_left (by simp [hk])
      cases hus with
      | cons hu hus =>
          rw [List.map_cons, List.cons.injEq,
            itemAgrees_value hm hk hvalue hparts he hu hcolumn, ih hrest hus,
            List.forall_mem_cons]

/-! ## Selections and aggregations -/

section

variable {n : Node} {catalog : Catalog} {p : Plan} {b : Batch}

variable (h : n.Built) (hparts : ∀ item ∈ n.items, item.itemPartsAgree s = true)
  (hsource : ∀ kept, KeptFrom clock catalog n "table" kept → kept.Matches s)

include h hparts hsource

theorem types_selection {sorted : Batch} (hkind : n.kind = .selection)
    (hs : Rules.schemaIn "table" n.fields = .ok s)
    (hout : Rules.selectionSchema n.fields = .ok out)
    (hms : n.childList "selections" = .ok ms)
    (hkept : KeptFrom clock catalog n "table" sorted)
    (hb : ms = [] ∧ b = sorted
      ∨ ms ≠ [] ∧ ∃ items, Emission.CanGive (selected (lowered clock) ms) items
      ∧ sorted.select items = .ok b) :
    b.types = out.types ↔ ∀ item ∈ n.items, item.itemAgrees s = true := by
  have hselections :
      n.kind.validator? "selections" = some (.tupleOf (.either .table .value)) := by
    rw [hkind]
    rfl
  have hnodes := h.nodesIn_eq hselections hms
  have hitems : n.items = ms := by rw [Node.items, hkind]; exact hnodes
  rw [hitems] at hparts ⊢
  rw [Rules.selectionSchema, hnodes] at hout
  have hmatches := hsource sorted hkept
  rcases hb with ⟨rfl, rfl⟩ | ⟨hne, es, ⟨_, _, hes⟩, hselect⟩
  · cases hs.symm.trans hout
    simp [hmatches.types]
  · have hout : Rules.pushSelected .empty ms = .ok out := by
      cases ms with
      | nil => exact absurd rfl hne
      | cons m rest => exact hout
    have hbuilt : ∀ m ∈ ms, m.Built ∧ (m.kind.isTable = true ∨ m.kind.isValue = true)
        ∧ m.itemPartsAgree s = true := by
      intro m hm
      refine ⟨h.of_mem_children (h.mem_children_of_childList hms hm), ?_, hparts m hm⟩
      obtain ⟨raw, bound, hvalid⟩ := h.validate_of_mem_childList (by rw [hkind]; rfl) hms hm
      exact Validator.table_or_value hvalid
    have hcolumns : List.Forall₂ (Expr.MayGive s) es b.types :=
      List.forall₂_map_right_iff.2 ((Batch.mayGive_select hmatches hselect).imp
        fun _ _ hc => hc.2)
    obtain ⟨columns, hadded, hadds⟩ := added_of_selected hes hout
    rw [← hadded.types_iff hbuilt hcolumns, Schema.types, hadds]
    rfl

theorem types_aggregation {ks : List Node} {keys metrics : List Expr} {kept : Batch}
    (hkind : n.kind = .aggregation) (hout : Rules.aggregationSchema n.fields = .ok out)
    (hks : n.childList "by" = .ok ks)
    (hkeys : Emission.CanGive (namedEach (lowered clock) ks) keys)
    (hms : n.childList "metrics" = .ok ms)
    (hmetrics : Emission.CanGive (namedEach (lowered clock) ms) metrics)
    (hkept : KeptFrom clock catalog n "table" kept)
    (haggregate : kept.aggregate keys metrics = .ok b) :
    b.types = out.types ↔ ∀ item ∈ n.items, item.itemAgrees s = true := by
  obtain ⟨_, _, hkeys⟩ := hkeys
  obtain ⟨_, _, hmetrics⟩ := hmetrics
  have hknodes :=
    h.nodesIn_eq (show n.kind.validator? "by" = some (.tupleOf .value) by
      rw [hkind]; rfl) hks
  have hmnodes :=
    h.nodesIn_eq (show n.kind.validator? "metrics" = some (.tupleOf .scalarValue) by
      rw [hkind]; rfl) hms
  have hitems : n.items = ks ++ ms := by rw [Node.items, hkind, ← hknodes, ← hmnodes]
  rw [hitems] at hparts ⊢
  obtain ⟨grouped, hgrouped, hout⟩ := bind_eq_ok.1 hout
  rw [hknodes] at hgrouped
  rw [hmnodes] at hout
  have hvalues {field : String} {v : Validator} {xs : List Node}
      (hv : n.kind.validator? field = some v)
      (honly : v.onlyValues = true) (hxs : n.childList field = .ok xs) :
      ∀ m ∈ xs, m.Built ∧ m.kind.isValue = true :=
    fun m hm => ⟨h.of_mem_children (h.mem_children_of_childList hxs hm),
      h.isValue_of_mem_childList hv honly hxs hm⟩
  have hkvalues := hvalues (v := .tupleOf .value) (by rw [hkind]; rfl) rfl hks
  have hmvalues := hvalues (v := .tupleOf .scalarValue) (by rw [hkind]; rfl) rfl hms
  obtain ⟨first, hfirst, hgrouped⟩ := added_of_namedEach
    (fun m hm => NodeKind.isTable_of_isValue (hkvalues m hm).2) hkeys hgrouped
  obtain ⟨second, hsecond, hout⟩ := added_of_namedEach
    (fun m hm => NodeKind.isTable_of_isValue (hmvalues m hm).2) hmetrics hout
  have hcolumns := List.forall₂_map_right_iff.2
    ((Batch.mayGive_aggregate (hsource kept hkept) haggregate).imp fun _ _ hc => hc.2)
  have hitems : ∀ m ∈ ks ++ ms, m.Built ∧ (m.kind.isTable = true ∨ m.kind.isValue = true)
      ∧ m.itemPartsAgree s = true := by
    intro m hm
    obtain ⟨hbuilt, hvalue⟩ := (List.mem_append.1 hm).elim (hkvalues m) (hmvalues m)
    exact ⟨hbuilt, .inr hvalue, hparts m hm⟩
  rw [← (hfirst.append hsecond).types_iff hitems hcolumns, Schema.types, hout, hgrouped]
  rfl

end

/-! ## All tables -/

/-- A filled column has the type of its column. -/
theorem mayGive_filledColumn {column : ColumnInfo} {v : Value}
    (h : (filledColumn column v).MayGive s u) :
    u = .ofLogical column.dataType := by
  obtain ⟨b, c, -, hc, rfl⟩ := h
  exact Expr.HasType.named (.cast _ _) c hc

theorem types_ofRows {t : Schema} {rows : List (List Value)} {b : Batch}
    (h : Batch.ofRows t rows = .ok b) :
    b.types = t.types := by
  obtain ⟨columns, -, h⟩ := bind_eq_ok.1 h
  split at h
  · next hconforms =>
      cases h
      rw [Batch.conforms, Bool.and_eq_true, decide_eq_true_iff] at hconforms
      exact hconforms.2
  · cases h

variable {n : Node} {config : Config} {catalog : Catalog} {p : Plan} {b : Batch}

/-- Columns are filled with what is converted to their types. -/
theorem matches_filled {a : Arg} {filled : List (ColumnInfo × Value)} {before : Batch}
    (hnodup : s.names.Nodup) (hbefore : before.Matches s)
    (hfilled : fills n s a = .ok filled)
    (hb : before.extend (filled.map fun fill => filledColumn fill.1 fill.2) = .ok b) :
    b.Matches s := by
  refine hbefore.of_header (Batch.header_extend hbefore hnodup (fun e he u hu => ?_) hb)
  obtain ⟨fill, hfill, rfl⟩ := List.mem_map.1 he
  rw [mayGive_filledColumn hu]
  exact List.mem_map.2 ⟨fill.1, mem_of_fills hfilled fill hfill, rfl⟩

/-- The columns of both sides, without a change. -/
theorem types_wideJoin {left right : Node} {l r : Schema} {lb rb : Batch}
    (hj : n.Joins left right l r s) (hfree : ¬ Rules.Clash l.names r.names)
    (hlb : execute config clock left catalog = .ok lb)
    (hrb : execute config clock right catalog = .ok rb) (hl : lb.Matches l)
    (hr : rb.Matches r) (hb : execute config clock n catalog = .ok b) :
    b.types = s.types := by
  rw [execute_wideJoin hj hlb hrb hl.names hr.names fun _ => hfree] at hb
  obtain ⟨pairs, -, rfl⟩ := map_eq_ok.1 hb
  rw [Batch.types_paired, hl.types, hr.types, Rules.types_pushRight hj.pushed]
  rfl

/-- A table inside which all items agree has the columns of its schema, with their types. -/
theorem matches_execute (h : n.Built) (htable : n.kind.isTable = true)
    (hcatalog : catalog.Matches n) (hfree : n.ClashFree) (hagree : n.Agreeing)
    (hs : n.outputSchema = .ok s) (hb : execute config clock n catalog = .ok b) :
    b.Matches s := by
  induction hdepth : n.depth using Nat.strongRecOn generalizing n s b with
  | ind depth ih =>
      subst hdepth
      refine Batch.matches_iff.2 ⟨names_execute h htable hcatalog.fits hfree hs hb, ?_⟩
      have hrule := (h.outputSchema_eq htable).1 hs
      obtain ⟨p, hp, hb'⟩ := (execute_eq_ok h).1 hb
      have hbelow : ∀ {m t b}, m ∈ n.children → m.kind.isTable = true →
          m.outputSchema = .ok t →
          execute config clock m catalog = .ok b → b.Matches t := fun hm hmtable ht hb =>
        ih _ (Node.depth_of_mem_children hm) (h.of_mem_children hm) hmtable
          (hcatalog.child hm) (hfree.child hm)
          (hagree.child hm) ht hb rfl
      have hkept : ∀ {field t b}, n.kind.validator? field = some .table →
          Rules.schemaIn field n.fields = .ok t →
          KeptFrom clock catalog n field b → b.Matches t := by
        rintro field t b hv hschema ⟨m, input, before, hm, hinput, hbefore, hheader⟩
        obtain ⟨m', hm', hmem, hmtable, ht⟩ := h.table_in hv hschema
        cases hm.symm.trans hm'
        have hexecuted : execute config clock m catalog = .ok before :=
          (execute_eq_ok (h.of_mem_children hmem)).2 ⟨input, hinput, hbefore⟩
        exact (hbelow hmem hmtable ht hexecuted).of_header hheader
      have hsourceOf : n.kind.validator? "table" = some .table →
          ∃ source t, n.child "table" = .ok source
          ∧ source.outputSchema = .ok t ∧ Rules.schemaIn "table" n.fields = .ok t := by
        intro hv
        obtain ⟨source, hsource, hstable, hmem⟩ := h.child_eq hv
        obtain ⟨t, -, ht⟩ := (h.of_mem_children hmem).schemaRule_eq hstable
        have hschema := Node.outputSchema_eq_ok ht
        exact ⟨source, t, hsource, hschema, h.schemaIn_of_child hv hsource hschema⟩
      have hjoin : n.kind ∈ NodeKind.wideJoins → b.types = s.types := by
        intro hkind
        obtain ⟨left, right, l, r, s', hj⟩ := h.joins hkind
        cases hs.symm.trans hj.schema
        obtain ⟨lb, rb, hlb, hrb⟩ := execute_sides hj hb
        have hl := hbelow hj.left_mem hj.left_table hj.leftSchema hlb
        have hr := hbelow hj.right_mem hj.right_table hj.rightSchema hrb
        exact types_wideJoin hj (hfree n (.refl n) left right l r s hj) hlb hrb hl hr hb
      cases executed h htable hp hb' with
      | stored hk hname hb => exact (hcatalog n (.refl n) hk _ s b hname hs hb).types
      | given _ ht hb =>
          cases hs.symm.trans ht
          exact types_ofRows hb
      | selection hk hms hkept' hcases =>
          rw [hk] at hrule
          obtain ⟨source, t, hsource, hschema, ht⟩ := hsourceOf (by rw [hk]; rfl)
          have hitems := hagree n (.refl n) source t hsource hschema
          exact (types_selection h (fun item hitem => (hitems item hitem).1)
            (fun kept => hkept (by rw [hk]; rfl) ht) hk
            ht hrule hms hkept' hcases).2 fun item hitem => (hitems item hitem).2
      | aggregation hk hks hkeys hms hmetrics hkept' haggregate =>
          rw [hk] at hrule
          obtain ⟨source, t, hsource, hschema, ht⟩ := hsourceOf (by rw [hk]; rfl)
          have hitems := hagree n (.refl n) source t hsource hschema
          exact (types_aggregation h (fun item hitem => (hitems item hitem).1)
            (fun kept => hkept (by rw [hk]; rfl) ht) hk
            hrule hks hkeys hms hmetrics hkept' haggregate).2 fun item hitem =>
            (hitems item hitem).2
      | kept hk hkept' =>
          obtain ⟨hv, hschema⟩ := h.schemaIn_of_keeping hk hs
          exact (hkept hv hschema hkept').types
      | filled hk hm ht hfilled hinput hbefore hb =>
          rw [hk] at hrule
          have hv : n.kind.validator? "table" = some .table := by rw [hk]; rfl
          have hmem := h.mem_children_of_child hm
          have hbuilt := h.of_mem_children hmem
          have hmtable := h.isTable_of_child hv hm
          cases hrule.symm.trans (h.schemaIn_of_child hv hm ht)
          exact (matches_filled
            (hbuilt.schema_nodup hmtable (Node.schema?_of_outputSchema ht))
            (hbelow hmem hmtable ht ((execute_eq_ok hbuilt).2 ⟨_, hinput, hbefore⟩))
              hfilled hb).types
      | joined hk => exact hjoin hk

end Engine

end TypedQuery
