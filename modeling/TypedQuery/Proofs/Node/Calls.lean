import TypedQuery.Node.Build
import TypedQuery.Proofs.Node.Built

/-!
# Calls that build nodes

What common calls make was built, provided that what goes into them was.
-/

namespace TypedQuery.Node

variable {n m left right : Node}

theorem built_databaseTable {name : String} {s : Schema}
    (h : databaseTable name s = .ok n) : n.Built :=
  .of_build h (by simp [Arg.nodesOfItems, Arg.nodes, Arg.text]) (by simp [Arg.nodesOfFields])

theorem built_inMemoryTable {name : String} {s : Schema} {rows : List (List Value)}
    (h : inMemoryTable name s rows = .ok n) : n.Built := by
  refine .of_build h (fun m hm => ?_) (by simp [Arg.nodesOfFields])
  obtain ⟨a, ha, hm⟩ := Arg.mem_nodesOfItems.1 hm
  simp only [List.mem_cons, List.not_mem_nil, or_false] at ha
  rcases ha with rfl | rfl | rfl
  · cases hm
  · cases hm
  · obtain ⟨row, hrow, hm⟩ := Arg.mem_nodesOfItems.1 hm
    obtain ⟨values, -, rfl⟩ := List.mem_map.1 hrow
    obtain ⟨cell, hcell, hm⟩ := Arg.mem_nodesOfItems.1 hm
    obtain ⟨v, -, rfl⟩ := List.mem_map.1 hcell
    cases hm

theorem built_column {name : String} (hm : m.Built) (h : column m name = .ok n) : n.Built :=
  .of_build h (by simpa [Arg.nodesOfItems, Arg.nodes, Arg.text] using hm)
    (by simp [Arg.nodesOfFields])

theorem built_rename {name : String} (hm : m.Built)
    (h : rename (.node m) name = .ok n) : n.Built :=
  .of_build h (by simpa [Arg.nodesOfItems, Arg.nodes, Arg.text] using hm)
    (by simp [Arg.nodesOfFields])

/-- A column holds its table and its name, and has the type which it has there. -/
theorem column_eq_ok {name : String} (h : column m name = .ok n) :
    n = .mk .tableColumn [("table", .node m), ("name", .text name)]
      [("shape", .shape .columnar),
        ("dtype", .type ((m.schema?.bind (·.dataType? name)).getD .null))] := by
  have hbuild : column m name = (Signature.bindSlots "TableColumn" []
      [(.required "table" .table, some (.node m)),
        (.required "name" (.columnOf "table"), some (.text name))]
    >>= fun fields =>
      derive .tableColumn fields [] NodeKind.tableColumn.definition.attributes
    >>= fun attributes => .ok (.mk .tableColumn fields attributes)) := rfl
  rw [hbuild] at h
  obtain ⟨fields, hfields, h⟩ := bind_eq_ok.1 h
  have htable : fields = [("table", .node m), ("name", .text name)] := by
    obtain ⟨_, _, hraw, hvalid, hfields⟩ := Signature.bindSlots_cons hfields
    cases hraw
    obtain ⟨rfl, -⟩ := Validator.ofKind_eq_ok hvalid
    obtain ⟨_, _, hraw, hvalid, hfields⟩ := Signature.bindSlots_cons hfields
    cases hraw
    obtain ⟨rfl, -⟩ := Validator.columnName_eq_ok hvalid
    cases hfields
    rfl
  subst htable
  obtain ⟨attributes, hattributes, h⟩ := bind_eq_ok.1 h
  cases h
  cases hattributes
  rfl

theorem name_of_column {name : String} (h : column m name = .ok n) :
    n.kind = .tableColumn ∧ n.name = .ok name := by
  rw [column_eq_ok h]
  exact ⟨rfl, rfl⟩

/-- A node of two others. -/
theorem built_of_two {kind : NodeKind} (hleft : left.Built) (hright : right.Built)
    (h : build kind [.node left, .node right] [] = .ok n) : n.Built := by
  refine .of_build h ?_ (by simp [Arg.nodesOfFields])
  simpa [Arg.nodesOfItems, Arg.nodes] using ⟨hleft, hright⟩

/-- A selection, or another node of a table, with nodes in one more field. -/
theorem built_of_table {kind : NodeKind} {field : String} {ms : List Node} (hm : m.Built)
    (hms : ∀ k ∈ ms, k.Built)
    (h : build kind [.node m] [(field, .seq (ms.map Arg.node))] = .ok n) : n.Built := by
  refine .of_build h (by simpa [Arg.nodesOfItems, Arg.nodes] using hm) ?_
  simpa [Arg.nodesOfFields, Arg.nodes, nodesOfItems_map_node] using hms

/-- A join of two tables in which two columns are equal. -/
def joinOn (kind : NodeKind) (left right : Node) (leftColumn rightColumn : String) :
    Except Error Node := do
  let a ← column left leftColumn
  let b ← column right rightColumn
  let same ← build .equals [.node a, .node b] []
  build kind [.node left, .node right] [("predicates", .node same)]

theorem built_joinOn {kind : NodeKind} {leftColumn rightColumn : String} (hleft : left.Built)
    (hright : right.Built) (h : joinOn kind left right leftColumn rightColumn = .ok n) :
    n.Built := by
  obtain ⟨a, ha, h⟩ := bind_eq_ok.1 h
  obtain ⟨b, hb, h⟩ := bind_eq_ok.1 h
  obtain ⟨same, hsame, h⟩ := bind_eq_ok.1 h
  have bsame := built_of_two (built_column hleft ha) (built_column hright hb) hsame
  refine .of_build h ?_ (by simpa [Arg.nodesOfFields, Arg.nodes] using bsame)
  simpa [Arg.nodesOfItems, Arg.nodes] using ⟨hleft, hright⟩

theorem rename_eq_ok {name : String} (h : rename (.node m) name = .ok n) :
    n.kind = .renamed ∧ n.child "arg" = .ok m ∧ n.stringField "name" = .ok name := by
  have hbuild : rename (.node m) name = (Signature.bindSlots "Alias" []
      [(.required "arg" .value, some (.node m)),
        (.required "name" .string, some (.text name))]
    >>= fun fields => derive .renamed fields [] NodeKind.renamed.definition.attributes
    >>= fun attributes => .ok (.mk .renamed fields attributes)) := rfl
  rw [hbuild] at h
  obtain ⟨fields, hfields, h⟩ := bind_eq_ok.1 h
  obtain ⟨attributes, -, h⟩ := bind_eq_ok.1 h
  cases h
  obtain ⟨_, _, hraw, hvalid, hfields⟩ := Signature.bindSlots_cons hfields
  cases hraw
  obtain ⟨k, rfl, -, hk⟩ := Validator.expression_eq_ok hvalid
  obtain ⟨_, _, hraw, hvalid, hfields⟩ := Signature.bindSlots_cons hfields
  cases hraw
  obtain ⟨rfl, -⟩ := Validator.ofView_eq_ok hvalid
  cases hfields
  rcases hk with hk | ⟨v, hk, -⟩
  · cases hk
    exact ⟨rfl, rfl, rfl⟩
  · cases hk

/-- The selection of a single value under a name. -/
def selectAs (table value : Node) (name : String) : Except Error Node := do
  let item ← rename (.node value) name
  build .selection [.node table] [("selections", .seq [.node item])]

/-- Such a selection chooses no rows and puts them in no order. -/
theorem selectAs_eq_ok {table value : Node} {name : String}
    (h : selectAs table value name = .ok n) :
    ∃ item, rename (.node value) name = .ok item ∧ n.kind = .selection
      ∧ n.child "table" = .ok table
      ∧ n.childList "selections" = .ok [item] ∧ n.childList "predicates" = .ok []
      ∧ n.childList "sort_keys" = .ok [] := by
  obtain ⟨item, hitem, h⟩ := bind_eq_ok.1 h
  have hbuild : build .selection [.node table] [("selections", .seq [.node item])]
      = (Signature.bindSlots "Selection" []
        [(.required "table" .table, some (.node table)),
          (Catalogue.many "selections" (.either .table .value), some (.seq [.node item])),
          (Catalogue.many "predicates" Catalogue.condition, none),
          (Catalogue.many "sort_keys" .sortKey, none)]
      >>= fun fields => derive .selection fields [] NodeKind.selection.definition.attributes
      >>= fun attributes => .ok (.mk .selection fields attributes)) := rfl
  rw [hbuild] at h
  obtain ⟨fields, hfields, h⟩ := bind_eq_ok.1 h
  obtain ⟨attributes, -, h⟩ := bind_eq_ok.1 h
  cases h
  obtain ⟨_, _, hraw, hvalid, hfields⟩ := Signature.bindSlots_cons hfields
  cases hraw
  obtain ⟨rfl, -⟩ := Validator.ofKind_eq_ok hvalid
  obtain ⟨_, _, hraw, hvalid, hfields⟩ := Signature.bindSlots_cons hfields
  cases hraw
  have hselections : ∀ {a : Arg} {before : Fields},
      (Validator.tupleOf (.either .table .value)).validate
      (.seq [.node item]) before = .ok a →
        a = .seq [.node item] := by
    intro a before hvalid
    obtain ⟨out, rfl, hout⟩ := Validator.tupleOf_eq_ok hvalid
    cases Validator.eachFrom_eq_ok hout with
    | cons hitem hnil =>
        cases hnil
        rcases Validator.either_eq_ok.1 hitem with hitem | ⟨-, hitem⟩
        · rw [(Validator.ofKind_eq_ok hitem).1]
        · obtain ⟨k, rfl, -, hk | ⟨v, hk, -⟩⟩ := Validator.expression_eq_ok hitem
          · rw [hk]
          · cases hk
  have hnothing : ∀ {v : Validator} {a : Arg} {before : Fields},
      (Validator.tupleOf v).validate (.seq []) before = .ok a → a = .seq [] := by
    intro v a before hvalid
    obtain ⟨out, rfl, hout⟩ := Validator.tupleOf_eq_ok hvalid
    cases hout
    rfl
  obtain rfl := hselections hvalid
  obtain ⟨_, _, hraw, hvalid, hfields⟩ := Signature.bindSlots_cons hfields
  cases hraw
  obtain rfl := hnothing hvalid
  obtain ⟨_, _, hraw, hvalid, hfields⟩ := Signature.bindSlots_cons hfields
  cases hraw
  obtain rfl := hnothing hvalid
  cases hfields
  exact ⟨item, hitem, rfl, rfl, rfl, rfl, rfl⟩

theorem built_selectAs {table value : Node} {name : String} (htable : table.Built)
    (hvalue : value.Built) (h : selectAs table value name = .ok n) : n.Built := by
  obtain ⟨item, hitem, h⟩ := bind_eq_ok.1 h
  have hitems : ∀ k ∈ [item], k.Built := by
    intro k hk
    rw [List.mem_singleton.1 hk]
    exact built_rename hvalue hitem
  exact built_of_table htable hitems h

end TypedQuery.Node
