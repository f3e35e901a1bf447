import Mathlib.Data.List.Nodup
import TypedQuery.Proofs.Node.Calls
import TypedQuery.Proofs.Node.Held
import TypedQuery.Proofs.Node.Types

/-!
# Columns of tables

A column is a value that names a column of its table. The name is checked against the
schema of the table when the column is built, and no schema of a table repeats a name, so
that there is exactly one column to take the type from.
-/

namespace TypedQuery

/-- Without repeated names, nothing is repeated. -/
theorem Schema.repeated_of_nodup {seen rest : List String} (hnodup : rest.Nodup)
    (hnew : ∀ name ∈ rest, name ∉ seen) :
    repeated seen [] rest = [] := by
  induction rest generalizing seen with
  | nil => rfl
  | cons name rest ih =>
      obtain ⟨hname, hrest⟩ := List.nodup_cons.1 hnodup
      have hseen : seen.contains name = false := by simpa using hnew name List.mem_cons_self
      rw [repeated, if_neg (by rw [hseen]; decide)]
      refine ih hrest fun other hother hmem => ?_
      rcases List.mem_cons.1 hmem with rfl | hmem
      · exact hname hother
      · exact hnew other (List.mem_cons_of_mem _ hother) hmem

theorem Schema.duplicateNames_eq_nil {s : Schema} : s.duplicateNames = [] ↔ s.names.Nodup :=
  ⟨fun h => nodup_of_duplicateNames (List.isEmpty_iff.2 h),
    fun h => repeated_of_nodup h fun _ _ => List.not_mem_nil⟩

/-- Where no name is repeated, a column is the one of its name. -/
theorem Schema.eq_of_name_eq {s : Schema} (hnodup : s.names.Nodup)
    {column other : ColumnInfo} (hcolumn : column ∈ s.columns) (hother : other ∈ s.columns)
    (h : other.name = column.name) : other = column :=
  List.inj_on_of_nodup_map hnodup hother hcolumn h

namespace Node.Built

variable {n c table : Node}

/-- The table and the name that a column is built from, and the column that its
table has under the name. -/
theorem column_of_table (h : c.Built) (hkind : c.kind = .tableColumn)
    (htable : c.child "table" = .ok table) {s : Schema} (hs : table.schema? = some s) :
    ∃ column, s.column? column.name = some column ∧ c.stringField "name" = .ok column.name
      ∧ c.dataType? = some column.dataType := by
  have hname : c.kind.validator? "name" = some (.columnOf "table") := by rw [hkind]; rfl
  obtain ⟨raw, before, a, -, hvalid, hbefore, hfield⟩ := h.field?_eq hname
  obtain ⟨rfl, name, known, hraw, hknown, hcontains⟩ := Validator.columnName_eq_ok hvalid
  -- The table that the name was checked against is the one in the field.
  obtain ⟨m, hm, hknown⟩ := Option.bind_eq_some_iff.1 hknown
  have hnode : Fields.node? c.fields "table" = some m := by
    obtain ⟨b, hb, hm⟩ := Option.bind_eq_some_iff.1 hm
    rw [Fields.node?, Fields.field?_of_prefix hbefore hb]
    exact hm
  cases (child_of_node? hnode).symm.trans htable
  cases hs.symm.trans hknown
  obtain ⟨column, hcolumn, hcolumnName⟩ := List.any_eq_true.1 hcontains
  obtain ⟨found, hfound⟩ : ∃ found, s.column? name = some found := by
    cases hfind : s.column? name with
    | some found => exact ⟨found, rfl⟩
    | none => exact absurd hcolumnName (List.find?_eq_none.1 hfind column hcolumn)
  have hfoundName : found.name = name := by simpa using List.find?_some hfound
  subst hfoundName
  refine ⟨found, hfound, fieldAs_of_get? (by rw [get?, hfield]; rfl) hraw, ?_⟩
  · have hrule : c.kind.TypedBy fun bound => .ok (Rules.columnType bound) := by
      rw [hkind]; exact ⟨_, rfl⟩
    obtain ⟨shape, t, ht, hc⟩ := h.type_eq hrule
    cases ht
    rw [hc, Rules.columnType, Fields.field?_insert, if_neg (by decide), hfield,
      Fields.node?, Fields.field?_insert, if_neg (by decide), ← Fields.node?, hnode,
      Option.bind_some, Option.bind_some, hs, Option.bind_some, hraw, Option.getD_some,
      Schema.dataType?, hfound]
    rfl

end Node.Built

/-- A table that builds has a schema without repeated names, and every column over the
table has the type of the one column of its name. -/
theorem table_columns {n : Node} (h : n.Built) (htable : n.kind.isTable = true) :
    ∃ s, n.outputSchema = .ok s ∧ s.names.Nodup ∧ s.duplicateNames = []
      ∧ ∀ c : Node, c.Built → c.kind = .tableColumn → c.child "table" = .ok n →
        ∃ column ∈ s.columns, c.stringField "name" = .ok column.name
          ∧ c.outputType = .ok column.dataType
          ∧ ∀ other ∈ s.columns, other.name = column.name → other = column := by
  obtain ⟨s, -, hs⟩ := h.schemaRule_eq htable
  have hnodup := h.schema_nodup htable hs
  refine ⟨s, Node.outputSchema_eq_ok hs, hnodup, Schema.duplicateNames_eq_nil.2 hnodup,
    fun c hc hkind hchild => ?_⟩
  obtain ⟨column, hcolumn, hname, htype⟩ := hc.column_of_table hkind hchild hs
  have hmem : column ∈ s.columns := List.mem_of_find?_eq_some hcolumn
  refine ⟨column, hmem, hname, by rw [Node.outputType, htype], fun other hother heq => ?_⟩
  exact Schema.eq_of_name_eq hnodup hmem hother heq

/-- A join of two tables with a column of the same name, of which the right one is a text:
it has the marked name. -/
theorem table_columns_joined :
    ∃ left right n c : Node,
      Node.databaseTable "l" ⟨[⟨"k", .int64, true⟩, ⟨"a", .int64, true⟩]⟩ = .ok left
        ∧ Node.databaseTable "r" ⟨[⟨"j", .int64, true⟩, ⟨"a", .string, true⟩]⟩ = .ok right
        ∧ Node.joinOn .leftJoin left right "k" "j" = .ok n ∧ n.Built ∧ n.kind.isTable = true
        ∧ Node.column n "a_right" = .ok c ∧ c.Built ∧ c.kind = .tableColumn
        ∧ c.child "table" = .ok n
        ∧ ∃ s, n.outputSchema = .ok s ∧ s.names = ["k", "a", "j", "a_right"] ∧ s.names.Nodup
          ∧ ∃ column ∈ s.columns, column.name = "a_right"
            ∧ c.outputType = .ok column.dataType
            ∧ column.dataType = .string ∧ ∀ other ∈ s.columns, other.name = column.name →
              other = column := by
  obtain ⟨left, right, n, c, s, hleft, hright, hn, hc, htable, hkind, hchild, hs,
    hnames, hname, htype⟩ :
      ∃ (left right n c : Node) (s : Schema),
        Node.databaseTable "l" ⟨[⟨"k", .int64, true⟩, ⟨"a", .int64, true⟩]⟩ = .ok left
          ∧ Node.databaseTable "r" ⟨[⟨"j", .int64, true⟩, ⟨"a", .string, true⟩]⟩ = .ok right
          ∧ Node.joinOn .leftJoin left right "k" "j" = .ok n
          ∧ Node.column n "a_right" = .ok c
          ∧ n.kind.isTable = true ∧ c.kind = .tableColumn ∧ c.child "table" = .ok n
          ∧ n.outputSchema = .ok s
          ∧ s.names = ["k", "a", "j", "a_right"] ∧ c.stringField "name" = .ok "a_right"
          ∧ c.outputType = .ok .string :=
    ⟨_, _, _, _, _, rfl, rfl, rfl, rfl, rfl, rfl, rfl, rfl, rfl, rfl, rfl⟩
  have bn : n.Built :=
    Node.built_joinOn (Node.built_databaseTable hleft) (Node.built_databaseTable hright) hn
  have bc : c.Built := Node.built_column bn hc
  obtain ⟨s', hs', hnodup, -, hcolumns⟩ := table_columns bn htable
  cases hs.symm.trans hs'
  obtain ⟨column, hmem, hcolumn, hcolumnType, hunique⟩ := hcolumns c bc hkind hchild
  have heq : column.name = "a_right" := (Except.ok.inj (hname.symm.trans hcolumn)).symm
  exact ⟨left, right, n, c, hleft, hright, hn, bn, htable, hc, bc, hkind, hchild, s, hs,
    hnames, hnodup, column, hmem, heq, hcolumnType,
    Except.ok.inj (hcolumnType.symm.trans htype), hunique⟩

end TypedQuery
