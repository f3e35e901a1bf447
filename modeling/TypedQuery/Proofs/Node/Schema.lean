import TypedQuery.Proofs.Node.Built

/-!
# Schemas of tables that build

A table derives its schema from its fields. No schema that is derived repeats a name:
declared schemas are refused if they do, columns are only added under names that are not
taken, and all other tables have the schema of a table that they are made of.
-/

namespace TypedQuery

/-! ## Schemas without repeated names -/

namespace Schema

variable {s : Schema}

theorem contains_iff {name : String} : s.contains name = true ↔ name ∈ s.names := by
  simp [contains, names, List.any_eq_true, List.mem_map]

/-- A name that is given once is found where it stands. -/
theorem column?_of_getElem? (hnodup : s.names.Nodup) {i : Nat} {column : ColumnInfo}
    (h : s.columns[i]? = some column) :
    s.column? column.name = some column := by
  obtain ⟨hlt, rfl⟩ := List.getElem?_eq_some_iff.1 h
  refine List.find?_eq_some_iff_getElem.2 ⟨beq_self_eq_true _, i, hlt, rfl, fun j hj => ?_⟩
  rw [Bool.not_eq_true', beq_eq_false_iff_ne]
  have hlength : i < s.names.length := by rwa [names, List.length_map]
  have hne := List.pairwise_iff_getElem.1 hnodup j i (Nat.lt_trans hj hlength) hlength hj
  simpa [names] using hne

theorem nodup_empty : empty.names.Nodup := List.nodup_nil

theorem names_push (column : ColumnInfo) :
    (s.push column).names = s.names ++ [column.name] :=
  List.map_append

theorem found_ne_nil_of_repeated {seen found rest : List String} (h : found ≠ []) :
    repeated seen found rest ≠ [] := by
  induction rest generalizing seen found with
  | nil => simpa [repeated] using h
  | cons name rest ih =>
      rw [repeated]
      split
      · refine ih ?_
        split
        · exact h
        · simp
      · exact ih h

theorem nodup_of_repeated {seen rest : List String} (h : repeated seen [] rest = []) :
    rest.Nodup ∧ ∀ name ∈ rest, name ∉ seen := by
  induction rest generalizing seen with
  | nil => exact ⟨List.nodup_nil, fun name hname => by cases hname⟩
  | cons name rest ih =>
      rw [repeated] at h
      split at h
      · exact absurd h (found_ne_nil_of_repeated (by simp))
      · next hseen =>
          obtain ⟨hnodup, hrest⟩ := ih h
          refine ⟨List.nodup_cons.2
            ⟨fun hmem => hrest name hmem List.mem_cons_self, hnodup⟩, ?_⟩
          intro other hother
          rcases List.mem_cons.1 hother with rfl | hother
          · simpa using hseen
          · exact fun hmem => hrest other hother (List.mem_cons_of_mem _ hmem)

theorem nodup_of_duplicateNames (h : s.duplicateNames.isEmpty = true) : s.names.Nodup :=
  (nodup_of_repeated (List.isEmpty_iff.1 h)).1

end Schema

namespace Rules

theorem nodup_push {s : Schema} {column : ColumnInfo} (hs : s.names.Nodup)
    (hnew : column.name ∉ s.names) : (s.push column).names.Nodup := by
  rw [Schema.names_push]
  refine List.nodup_append.2 ⟨hs, List.pairwise_singleton _ _, ?_⟩
  intro a ha b hb hab
  rw [List.mem_singleton.1 hb] at hab
  exact hnew (hab ▸ ha)

theorem pushUnique_eq_ok {owner field : String} {s out : Schema} {columns : List ColumnInfo}
    (hs : s.names.Nodup) (h : pushUnique owner field s columns = .ok out) :
    out.columns = s.columns ++ columns ∧ out.names.Nodup := by
  induction columns generalizing s with
  | nil =>
      cases h
      exact ⟨by simp, hs⟩
  | cons column rest ih =>
      rw [pushUnique] at h
      split at h
      · cases h
      · next hnew =>
          have hnew' : column.name ∉ s.names := by rwa [Schema.contains_iff] at hnew
          obtain ⟨hcolumns, hnodup⟩ := ih (nodup_push hs hnew') h
          exact ⟨by rw [hcolumns, Schema.push]; simp, hnodup⟩

theorem pushSelected_nodup {s out : Schema} {ms : List Node} (hs : s.names.Nodup)
    (h : pushSelected s ms = .ok out) : out.names.Nodup := by
  induction ms generalizing s with
  | nil => cases h; exact hs
  | cons m rest ih =>
      rw [pushSelected] at h
      simp only [] at h
      split at h
      · obtain ⟨next, hnext, h⟩ := bind_eq_ok.1 h
        exact ih (pushUnique_eq_ok hs hnext).2 h
      · obtain ⟨column, -, h⟩ := bind_eq_ok.1 h
        obtain ⟨next, hnext, h⟩ := bind_eq_ok.1 h
        exact ih (pushUnique_eq_ok hs hnext).2 h

theorem pushValues_nodup {field : String} {s out : Schema} {ms : List Node}
    (hs : s.names.Nodup) (h : pushValues field s ms = .ok out) : out.names.Nodup := by
  induction ms generalizing s with
  | nil => cases h; exact hs
  | cons m rest ih =>
      rw [pushValues] at h
      obtain ⟨column, -, h⟩ := bind_eq_ok.1 h
      obtain ⟨next, hnext, h⟩ := bind_eq_ok.1 h
      exact ih (pushUnique_eq_ok hs hnext).2 h

theorem pushRight_nodup {s out : Schema} {columns : List ColumnInfo} (hs : s.names.Nodup)
    (h : pushRight s columns = .ok out) : out.names.Nodup := by
  induction columns generalizing s with
  | nil => cases h; exact hs
  | cons column rest ih =>
      rw [pushRight] at h
      obtain ⟨next, hnext, h⟩ := bind_eq_ok.1 h
      exact ih (pushUnique_eq_ok hs hnext).2 h

theorem schemaIn_eq_ok {field : String} {bound : Fields} {s : Schema}
    (h : schemaIn field bound = .ok s) :
    ∃ m, Fields.node? bound field = some m ∧ m.schema? = some s := by
  unfold schemaIn at h
  split at h
  · next t ht =>
      cases h
      exact Option.bind_eq_some_iff.1 ht
  · cases h

end Rules

/-! ## The schemas of tables -/

/-- How a kind of table derives its schema. -/
def NodeKind.schemaRule : NodeKind → Fields → Except Error Schema
  | .databaseTable => Rules.declaredSchema .databaseTable
  | .inMemoryTable => Rules.declaredSchema .inMemoryTable
  | .selection => Rules.selectionSchema
  | .aggregation => Rules.aggregationSchema
  | .innerJoin | .leftJoin | .rightJoin | .outerJoin => Rules.joinSchema
  | .leftSemiJoin | .leftAntiJoin => Rules.schemaIn "left"
  | _ => Rules.schemaIn "table"

/-- The kinds of tables that there are nodes of. -/
def NodeKind.tables : List NodeKind :=
  [databaseTable, inMemoryTable, selection, aggregation, limit, distinct, dropNa,
    fillNa, innerJoin, leftJoin, rightJoin, outerJoin, leftSemiJoin, leftAntiJoin]

theorem NodeKind.mem_tables {k : NodeKind} (htable : k.isTable = true)
    (hconcrete : k.definition.isAbstract = false) : k ∈ tables := by
  have h : ∀ k ∈ all, k.isTable = true → k.definition.isAbstract = false → k ∈ tables := by
    set_option maxRecDepth 2000 in decide
  exact h k k.mem_all htable hconcrete

theorem NodeKind.attributes_of_isTable {k : NodeKind} (htable : k.isTable = true)
    (hconcrete : k.definition.isAbstract = false) :
    k.definition.attributes = [Catalogue.hasSchema k.schemaRule] := by
  have hk := mem_tables htable hconcrete
  simp only [tables, List.mem_cons, List.not_mem_nil, or_false] at hk
  rcases hk with rfl | rfl | rfl | rfl | rfl | rfl | rfl | rfl | rfl | rfl | rfl
    | rfl | rfl | rfl <;>
    rfl

namespace Node.Built

variable {n m : Node}

/-- A table has the schema that its kind derives from the fields, and nothing else. -/
theorem schemaRule_eq (h : n.Built) (htable : n.kind.isTable = true) :
    ∃ s, n.kind.schemaRule n.fields = .ok s ∧ n.schema? = some s := by
  have hderive := h.derive_eq
  rw [NodeKind.attributes_of_isTable htable h.not_abstract] at hderive
  simp only [Catalogue.hasSchema, Node.derive] at hderive
  cases hs : n.kind.schemaRule n.fields with
  | error e =>
      rw [hs] at hderive
      simp only [Except.map] at hderive
      split at hderive <;> cases hderive
  | ok s =>
      rw [hs] at hderive
      simp only [Except.map, Fields.insert, Except.ok.injEq] at hderive
      refine ⟨s, rfl, ?_⟩
      rw [Node.schema?, ← hderive]
      rfl

theorem outputSchema_eq (h : n.Built) (htable : n.kind.isTable = true) {s : Schema} :
    n.outputSchema = .ok s ↔ n.kind.schemaRule n.fields = .ok s := by
  obtain ⟨t, hrule, hschema⟩ := h.schemaRule_eq htable
  rw [Node.outputSchema, hschema, hrule]

theorem declared_nodup (h : n.Built)
    (hv : n.kind.validator? "schema" = some .schema) {s : Schema}
    (hs : (Fields.field? n.fields "schema").bind Arg.schema? = some s) : s.names.Nodup := by
  obtain ⟨raw, before, a, -, hvalid, -, hfield⟩ := h.field?_eq hv
  rw [hfield] at hs
  obtain ⟨rfl, t, ht, hempty⟩ := Validator.schema_eq_ok hvalid
  have heq : some t = some s := ht.symm.trans hs
  cases heq
  exact Schema.nodup_of_duplicateNames hempty

/-- The table in a field. -/
theorem mem_children_of_node? {name : String} (hm : Fields.node? n.fields name = some m) :
    m ∈ n.children := by
  obtain ⟨a, ha, hm⟩ := Option.bind_eq_some_iff.1 hm
  exact Node.mem_children_of_field? ha (Node.mem_nodes_of_node? hm)

theorem isTable_of_node? (h : n.Built) {name : String}
    (hv : n.kind.validator? name = some .table) (hm : Fields.node? n.fields name = some m) :
    m.kind.isTable = true := by
  obtain ⟨raw, before, a, -, hvalid, -, hfield⟩ := h.field?_eq hv
  obtain ⟨rfl, k, rfl, hk⟩ := Validator.ofKind_eq_ok hvalid
  rw [Fields.node?, hfield] at hm
  cases hm
  exact hk

/-- A field for a table holds one. -/
theorem child_eq (h : n.Built) {name : String} (hv : n.kind.validator? name = some .table) :
    ∃ m, n.child name = .ok m ∧ m.kind.isTable = true ∧ m ∈ n.children := by
  obtain ⟨raw, before, a, -, hvalid, -, hget⟩ := h.get?_eq hv
  obtain ⟨rfl, m, rfl, hm⟩ := Validator.ofKind_eq_ok hvalid
  have hchild : n.child name = .ok m := by
    rw [Node.child, Node.fieldAs, Node.field, hget]; rfl
  exact ⟨m, hchild, hm, h.mem_children_of_child hchild⟩

theorem isTable_of_child (h : n.Built) {name : String}
    (hv : n.kind.validator? name = some .table) (hm : n.child name = .ok m) :
    m.kind.isTable = true := by
  obtain ⟨m', hm', htable, -⟩ := h.child_eq hv
  cases hm.symm.trans hm'
  exact htable

/-- No schema of a table repeats a name. The tables that it is made of are less deep. -/
theorem schema_nodup (h : n.Built) (htable : n.kind.isTable = true) {s : Schema}
    (hs : n.schema? = some s) : s.names.Nodup := by
  induction hdepth : n.depth using Nat.strongRecOn generalizing n s with
  | ind depth ih =>
      obtain ⟨t, hrule, ht⟩ := h.schemaRule_eq htable
      rw [hs] at ht
      cases ht
      have hfrom : ∀ {field : String} {t : Schema}, n.kind.validator? field = some .table →
          Rules.schemaIn field n.fields = .ok t → t.names.Nodup := by
        intro field t hv ht
        obtain ⟨m, hm, ht⟩ := Rules.schemaIn_eq_ok ht
        have hmem := mem_children_of_node? hm
        have hless := Node.depth_of_mem_children hmem
        exact ih m.depth (by omega) (h.of_mem_children hmem)
          (h.isTable_of_node? hv hm) ht rfl
      have hdeclared : ∀ {kind : NodeKind}, n.kind.validator? "schema" = some .schema →
          Rules.declaredSchema kind n.fields = .ok s → s.names.Nodup := by
        intro kind hv hdecl
        unfold Rules.declaredSchema at hdecl
        split at hdecl
        · next t ht => cases hdecl; exact h.declared_nodup hv ht
        · cases hdecl
      have hjoin : n.kind.validator? "left" = some .table →
          Rules.joinSchema n.fields = .ok s → s.names.Nodup := by
        intro hv hjoined
        obtain ⟨l, hl, hjoined⟩ := bind_eq_ok.1 hjoined
        obtain ⟨r, -, hjoined⟩ := bind_eq_ok.1 hjoined
        exact Rules.pushRight_nodup (hfrom hv hl) hjoined
      have hk := NodeKind.mem_tables htable h.not_abstract
      simp only [NodeKind.tables, List.mem_cons, List.not_mem_nil, or_false] at hk
      rcases hk with hk | hk | hk | hk | hk | hk | hk | hk | hk | hk | hk | hk | hk | hk <;>
        rw [hk] at hrule
      · exact hdeclared (by rw [hk]; rfl) hrule
      · exact hdeclared (by rw [hk]; rfl) hrule
      · simp only [NodeKind.schemaRule, Rules.selectionSchema] at hrule
        split at hrule
        · exact hfrom (by rw [hk]; rfl) hrule
        · exact Rules.pushSelected_nodup Schema.nodup_empty hrule
      · obtain ⟨keys, hkeys, hrule⟩ := bind_eq_ok.1 hrule
        exact Rules.pushValues_nodup (Rules.pushValues_nodup Schema.nodup_empty hkeys) hrule
      · exact hfrom (by rw [hk]; rfl) hrule
      · exact hfrom (by rw [hk]; rfl) hrule
      · exact hfrom (by rw [hk]; rfl) hrule
      · exact hfrom (by rw [hk]; rfl) hrule
      · exact hjoin (by rw [hk]; rfl) hrule
      · exact hjoin (by rw [hk]; rfl) hrule
      · exact hjoin (by rw [hk]; rfl) hrule
      · exact hjoin (by rw [hk]; rfl) hrule
      · exact hfrom (by rw [hk]; rfl) hrule
      · exact hfrom (by rw [hk]; rfl) hrule

end Node.Built

/-! ## Tables in fields -/

theorem Node.child_of_node? {n m : Node} {name : String}
    (h : Fields.node? n.fields name = some m) :
    n.child name = .ok m := by
  obtain ⟨a, ha, hm⟩ := Option.bind_eq_some_iff.1 h
  rw [child, fieldAs, field, get?, ha]
  cases a <;> cases hm
  rfl

theorem Node.outputSchema_eq_ok {n : Node} {s : Schema} (h : n.schema? = some s) :
    n.outputSchema = .ok s := by
  rw [outputSchema, h]

theorem Node.schema?_of_outputSchema {n : Node} {s : Schema} (h : n.outputSchema = .ok s) :
    n.schema? = some s := by
  unfold outputSchema at h
  split at h
  · next t ht => cases h; exact ht
  · cases h

namespace Node.Built

variable {n m : Node}

theorem table_in (h : n.Built) {field : String}
    (hv : n.kind.validator? field = some .table) {s : Schema}
    (hs : Rules.schemaIn field n.fields = .ok s) :
    ∃ m, n.child field = .ok m ∧ m ∈ n.children ∧ m.kind.isTable = true
      ∧ m.outputSchema = .ok s := by
  obtain ⟨m, hm, hs⟩ := Rules.schemaIn_eq_ok hs
  exact ⟨m, child_of_node? hm, mem_children_of_node? hm, h.isTable_of_node? hv hm,
    outputSchema_eq_ok hs⟩

theorem nodesIn_eq (h : n.Built) {field : String} {v : Validator}
    (hv : n.kind.validator? field = some v) {ms : List Node}
    (hms : n.childList field = .ok ms) : Rules.nodesIn field n.fields = ms := by
  obtain ⟨raw, before, a, -, -, -, hfield⟩ := h.field?_eq hv
  have hget : n.get? field = some a := by rw [Node.get?, hfield]; rfl
  rw [Rules.nodesIn, hfield]
  rcases childList_eq_ok hms with ⟨hnone, rfl⟩ | hseq
  · rw [hget] at hnone
    cases hnone
    rfl
  · rw [hget] at hseq
    cases hseq
    exact Node.nodesOfItems_map_node ms

end Node.Built

/-! ## Stored rows -/

/-- Rows of plain values as a table stores them. -/
def Arg.ofRows (rows : List (List Value)) : Arg :=
  .seq (rows.map fun row => .seq (row.map .value))

namespace Validator

/-- The cells of a row that passes are plain values that fit their columns. -/
theorem checkCells_eq_ok {row : Nat} {columns : List ColumnInfo} {cells : List Arg}
    (hlength : cells.length = columns.length) (h : checkCells row columns cells = .ok ()) :
    ∃ values : List Value, cells = values.map .value
      ∧ List.Forall₂ (fun v column => fits v.dataType column.dataType = true)
        values columns := by
  induction columns generalizing cells with
  | nil => exact ⟨[], List.length_eq_zero_iff.1 hlength, .nil⟩
  | cons column rest ih =>
      cases cells with
      | nil => cases hlength
      | cons cell cells =>
          obtain ⟨_, hcell, h⟩ := bind_eq_ok.1 h
          obtain ⟨values, rfl, hfits⟩ := ih (Nat.succ.inj hlength) h
          unfold checkCell at hcell
          split at hcell
          · cases hcell
          · next v hv =>
              split at hcell
              · next hfit =>
                  cases cell <;> cases hv
                  exact ⟨v :: values, rfl, .cons hfit hfits⟩
              · cases hcell

theorem checkRows_eq_ok {columns : List ColumnInfo} {i : Nat} {items : List Arg}
    (h : checkRows columns i items = .ok ()) :
    ∃ rows, Arg.seq items = .ofRows rows
      ∧ ∀ row ∈ rows, List.Forall₂ (fun v column => fits v.dataType column.dataType = true)
        row columns := by
  induction items generalizing i with
  | nil => exact ⟨[], rfl, fun _ hrow => absurd hrow List.not_mem_nil⟩
  | cons item rest ih =>
      unfold checkRows at h
      split at h
      · cases h
      · next cells hcells =>
          split at h
          · next hlength =>
              obtain ⟨_, hrow, hrest⟩ := bind_eq_ok.1 h
              obtain ⟨row, rfl, hfits⟩ := checkCells_eq_ok hlength hrow
              obtain ⟨rows, hrows, hall⟩ := ih hrest
              cases item <;> cases hcells
              cases hrows
              exact ⟨row :: rows, rfl, List.forall_mem_cons.2 ⟨hfits, hall⟩⟩
          · cases h

end Validator

namespace Node.Built

variable {n : Node}

/-- A table of given rows holds plain values that fit the columns of its schema. -/
theorem stored_rows (h : n.Built) (hkind : n.kind = .inMemoryTable) :
    ∃ s rows, n.outputSchema = .ok s ∧ n.field "data" = .ok (.ofRows rows)
      ∧ ∀ row ∈ rows, List.Forall₂ (fun v column =>
        Validator.fits v.dataType column.dataType = true) row s.columns := by
  obtain ⟨raw, before, a, -, hvalid, hbefore, hget⟩ :=
    h.get?_eq (show n.kind.validator? "data" = some (.rowsOf "schema") by rw [hkind]; rfl)
  obtain ⟨rfl, columns, items, hcolumns, hitems, hcheck⟩ := Validator.rows_eq_ok hvalid
  obtain ⟨s, hrule, hs⟩ := h.schemaRule_eq (by rw [hkind]; rfl)
  rw [hkind, NodeKind.schemaRule, Rules.declaredSchema] at hrule
  obtain ⟨declared, hdeclared, hread⟩ := Option.bind_eq_some_iff.1 hcolumns
  rw [Fields.field?_of_prefix hbefore hdeclared, Option.bind_some, hread] at hrule
  cases hrule
  cases a <;> cases hitems
  obtain ⟨rows, hrows, hfits⟩ := Validator.checkRows_eq_ok hcheck
  exact ⟨_, rows, outputSchema_eq_ok hs, by rw [Node.field, hget, hrows], hfits⟩

/-- Every stored row has a cell for each column. -/
theorem length_of_row (h : n.Built) (hkind : n.kind = .inMemoryTable) {s : Schema}
    (hs : n.outputSchema = .ok s) {data : Arg} (hdata : n.field "data" = .ok data)
    {rows : List Arg} (hrows : data.seq? = some rows) :
    ∀ row ∈ rows, ∃ cells, row.seq? = some cells ∧ cells.length = s.columns.length := by
  obtain ⟨s', given, hs', hdata', hfits⟩ := h.stored_rows hkind
  cases hs.symm.trans hs'
  cases hdata.symm.trans hdata'
  cases hrows
  intro row hrow
  obtain ⟨values, hvalues, rfl⟩ := List.mem_map.1 hrow
  exact ⟨_, rfl, (List.length_map _).trans (hfits values hvalues).length_eq⟩

end Node.Built

end TypedQuery
