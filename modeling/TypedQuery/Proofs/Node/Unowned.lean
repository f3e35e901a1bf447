import TypedQuery.Proofs.Node.Schema

/-!
# Columns without their tables

A column knows its table and its name. `Node.unowned` forgets the tables of all columns in
a value, and leaves everything else as it is. Types, shapes, schemas and names of nodes do
not depend on the tables, once the columns have the types that they have.
-/

namespace TypedQuery

mutual

/-- The node with the tables of the columns in it forgotten. Tables are left alone. -/
def Node.unowned : Node → Node
  | .mk kind fields attributes =>
    if kind.isTable then .mk kind fields attributes
    else if kind = .tableColumn then .mk kind (fields.filter (·.1 ≠ "table")) attributes
    else .mk kind (Arg.unownedFields fields) attributes

def Arg.unowned : Arg → Arg
  | .node n => .node n.unowned
  | .seq items => .seq (Arg.unownedItems items)
  | .map entries => .map (Arg.unownedFields entries)
  | a => a

def Arg.unownedItems : List Arg → List Arg
  | [] => []
  | a :: rest => a.unowned :: Arg.unownedItems rest

def Arg.unownedFields : List (String × Arg) → List (String × Arg)
  | [] => []
  | (name, a) :: rest => (name, a.unowned) :: Arg.unownedFields rest

end

/-- Columns in the fields of a node forget their tables; the node may be a table itself. -/
def Node.unownedParts (n : Node) : Node :=
  .mk n.kind (Arg.unownedFields n.fields) n.attributes

/-! ## What is left -/

namespace Node

variable (n : Node)

theorem kind_unowned : n.unowned.kind = n.kind := by
  obtain ⟨kind, fields, attributes⟩ := n
  show (if kind.isTable then _ else if kind = .tableColumn then _ else _ : Node).kind = kind
  split
  · rfl
  · split <;> rfl

theorem attributes_unowned : n.unowned.attributes = n.attributes := by
  obtain ⟨kind, fields, attributes⟩ := n
  rw [unowned]
  split
  · rfl
  · split <;> rfl

theorem dataType?_unowned : n.unowned.dataType? = n.dataType? := by
  rw [dataType?, attributes_unowned, dataType?]

theorem shape?_unowned : n.unowned.shape? = n.shape? := by
  rw [shape?, attributes_unowned, shape?]

theorem schema?_unowned : n.unowned.schema? = n.schema? := by
  rw [schema?, attributes_unowned, schema?]

theorem outputType_unowned : n.unowned.outputType = n.outputType := by
  rw [outputType, dataType?_unowned, kind_unowned, outputType]

theorem unowned_of_isTable {n : Node} (h : n.kind.isTable = true) : n.unowned = n := by
  obtain ⟨kind, fields, attributes⟩ := n
  exact if_pos h

theorem unowned_of_value {n : Node} (htable : n.kind.isTable = false)
    (hcolumn : n.kind ≠ .tableColumn) :
    n.unowned = n.unownedParts := by
  obtain ⟨kind, fields, attributes⟩ := n
  exact (if_neg (Bool.eq_false_iff.1 htable)).trans (if_neg hcolumn)

end Node

namespace Arg

theorem unownedItems_eq_map (items : List Arg) : unownedItems items = items.map unowned := by
  induction items with
  | nil => rfl
  | cons a rest ih => exact congrArg (a.unowned :: ·) ih

theorem node?_unowned (a : Arg) :
    a.unowned.node? = a.node?.map Node.unowned := by cases a <;> rfl

theorem value?_unowned (a : Arg) : a.unowned.value? = a.value? := by cases a <;> rfl

theorem string?_unowned (a : Arg) : a.unowned.string? = a.string? := by
  rw [string?, value?_unowned, string?]

theorem type?_unowned (a : Arg) : a.unowned.type? = a.type? := by cases a <;> rfl

theorem schema?_unowned (a : Arg) : a.unowned.schema? = a.schema? := by cases a <;> rfl

theorem isNone_unowned (a : Arg) : a.unowned.isNone = a.isNone := by cases a <;> rfl

theorem field?_unowned (fields : Fields) (name : String) :
    Fields.field? (unownedFields fields) name = (Fields.field? fields name).map unowned := by
  unfold Fields.field?
  induction fields with
  | nil => rfl
  | cons field rest ih =>
      obtain ⟨other, a⟩ := field
      rw [unownedFields, List.find?_cons, List.find?_cons]
      cases other == name
      · exact ih
      · rfl

end Arg

mutual

theorem Arg.nodes_unowned : ∀ a : Arg, a.unowned.nodes = a.nodes.map Node.unowned
  | .node n => by rw [Arg.unowned, Arg.nodes, Arg.nodes, List.map_singleton]
  | .seq items => by rw [Arg.unowned, Arg.nodes, Arg.nodes, Arg.nodesOfItems_unowned items]
  | .map entries =>
    by rw [Arg.unowned, Arg.nodes, Arg.nodes, Arg.nodesOfFields_unowned entries]
  | .none | .value _ | .type _ | .shape _ | .schema _ => rfl

theorem Arg.nodesOfItems_unowned : ∀ items : List Arg,
    Arg.nodesOfItems (Arg.unownedItems items) = (Arg.nodesOfItems items).map Node.unowned
  | [] => rfl
  | a :: rest => by
      rw [Arg.unownedItems, Arg.nodesOfItems, Arg.nodesOfItems, Arg.nodes_unowned a,
        Arg.nodesOfItems_unowned rest, List.map_append]

theorem Arg.nodesOfFields_unowned : ∀ fields : List (String × Arg),
    Arg.nodesOfFields (Arg.unownedFields fields)
      = (Arg.nodesOfFields fields).map Node.unowned
  | [] => rfl
  | (_, a) :: rest => by
      rw [Arg.unownedFields, Arg.nodesOfFields, Arg.nodesOfFields, Arg.nodes_unowned a,
        Arg.nodesOfFields_unowned rest, List.map_append]

end

/-! ## Fields by name -/

namespace Node

theorem fieldAs_unownedParts {α : Type} {read : Arg → Option α}
    (hread : ∀ a, read a.unowned = read a) (expected : String) (n : Node) (name : String) :
    fieldAs read expected n.unownedParts name = fieldAs read expected n name := by
  unfold fieldAs field get? unownedParts
  rw [fields, attributes, kind, Arg.field?_unowned]
  cases Fields.field? n.fields name with
  | none => rfl
  | some a =>
      simp only [Option.map_some, Option.some_or, bind, Except.bind, hread]

theorem stringField_unownedParts (n : Node) (name : String) :
    n.unownedParts.stringField name = n.stringField name :=
  fieldAs_unownedParts Arg.string?_unowned _ n name

/-- A column that forgets its table keeps its name. -/
theorem stringField_of_column (fields attributes : Fields) :
    (mk .tableColumn (fields.filter (·.1 ≠ "table")) attributes).stringField "name"
      = (mk .tableColumn fields attributes).stringField "name" := by
  have hfield : Fields.field? (fields.filter (·.1 ≠ "table")) "name"
      = Fields.field? fields "name" := by
    unfold Fields.field?
    rw [List.find?_filter]
    congr 2
    funext field
    by_cases hname : field.1 = "name" <;> simp [hname]
  simp only [stringField, fieldAs, field, get?, Node.fields, Node.attributes,
    Node.kind, hfield]

theorem literal?_unownedParts (n : Node) : n.unownedParts.literal? = n.literal? := by
  show (if _ then (Fields.field? (Arg.unownedFields n.fields) "value").bind
    Arg.value? else none) = _
  rw [Arg.field?_unowned, literal?, Option.bind_map]
  simp only [Function.comp_def, Arg.value?_unowned]
  rfl

theorem literal?_unowned (n : Node) : n.unowned.literal? = n.literal? := by
  by_cases htable : n.kind.isTable = true
  · rw [unowned_of_isTable htable]
  by_cases hcolumn : n.kind = .tableColumn
  · rw [literal?, isLiteral, kind_unowned, hcolumn, literal?, isLiteral, hcolumn]
    rfl
  · rw [unowned_of_value (Bool.not_eq_true _ ▸ htable) hcolumn, literal?_unownedParts]

end Node

/-! ## Names -/

mutual

theorem Node.name_unowned : ∀ n : Node, n.unowned.name = n.name
  | .mk kind fields attributes => by
      by_cases htable : (Node.mk kind fields attributes).kind.isTable = true
      · rw [Node.unowned_of_isTable htable]
      by_cases hcolumn : kind = .tableColumn
      · subst hcolumn
        exact Node.stringField_of_column fields attributes
      have hparts : (Node.mk kind fields attributes).unowned
          = (Node.mk kind fields attributes).unownedParts :=
        Node.unowned_of_value (by simpa using htable) hcolumn
      have hgiven := Node.stringField_unownedParts (.mk kind fields attributes) "name"
      have hliteral := Node.literal?_unowned (.mk kind fields attributes)
      rw [hparts] at hliteral ⊢
      change (Node.mk kind (Arg.unownedFields fields) attributes).name = _
      unfold Node.name
      split
      · exact hgiven
      · exact hgiven
      · exact hgiven
      · exact hgiven
      · exact congrArg
          (fun v? : Option Value => Except.ok ((v?.map Value.render).getD "")) hliteral
      · rw [Arg.valueNamesOfFields_unowned fields]

theorem Arg.valueNames_unowned : ∀ a : Arg, a.unowned.valueNames = a.valueNames
  | .node n => by
      rw [Arg.unowned, Arg.valueNames, Arg.valueNames, Node.kind_unowned,
        Node.name_unowned n]
  | .seq items =>
    by rw [Arg.unowned, Arg.valueNames, Arg.valueNames, Arg.valueNamesOfItems_unowned items]
  | .map entries => by
      rw [Arg.unowned, Arg.valueNames, Arg.valueNames,
        Arg.valueNamesOfFields_unowned entries]
  | .none | .value _ | .type _ | .shape _ | .schema _ => rfl

theorem Arg.valueNamesOfItems_unowned : ∀ items : List Arg,
    Arg.valueNamesOfItems (Arg.unownedItems items) = Arg.valueNamesOfItems items
  | [] => rfl
  | a :: rest => by
      rw [Arg.unownedItems, Arg.valueNamesOfItems, Arg.valueNamesOfItems,
        Arg.valueNames_unowned a, Arg.valueNamesOfItems_unowned rest]

theorem Arg.valueNamesOfFields_unowned : ∀ fields : List (String × Arg),
    Arg.valueNamesOfFields (Arg.unownedFields fields) = Arg.valueNamesOfFields fields
  | [] => rfl
  | (_, a) :: rest => by
      rw [Arg.unownedFields, Arg.valueNamesOfFields, Arg.valueNamesOfFields,
        Arg.valueNames_unowned a, Arg.valueNamesOfFields_unowned rest]

end

/-! ## Reading nodes that differ in the tables of columns -/

theorem Arg.describe_unowned (a : Arg) : a.unowned.describe = a.describe := by
  cases a with
  | node n => rw [unowned, describe, Node.kind_unowned, describe]
  | seq items => rw [unowned, unownedItems_eq_map, describe, List.length_map, describe]
  | map entries =>
      have hlength : ∀ fields : List (String × Arg),
          (unownedFields fields).length = fields.length := by
        intro fields
        induction fields with
        | nil => rfl
        | cons field rest ih => rw [unownedFields, List.length_cons, ih, List.length_cons]
      rw [unowned, describe, hlength, describe]
  | none | value _ | type _ | shape _ | schema _ => rfl

namespace Node

theorem kind_of_unowned {n m : Node} (h : n.unowned = m.unowned) : n.kind = m.kind := by
  rw [← n.kind_unowned, h, m.kind_unowned]

theorem outputSchema_of_unowned {n m : Node} (h : n.unowned = m.unowned) :
    n.outputSchema = m.outputSchema := by
  rw [outputSchema, ← n.schema?_unowned, h, m.schema?_unowned,
    kind_of_unowned h, outputSchema]

theorem mapM_of_items {read : Arg → Except Error Node}
    (hread : ∀ a b : Arg, a.unowned = b.unowned →
      (read a).map unowned = (read b).map unowned)
    {items others : List Arg} (h : Arg.unownedItems items = Arg.unownedItems others) :
    (items.mapM read).map (List.map unowned)
      = (others.mapM read).map (List.map unowned) := by
  induction items generalizing others with
  | nil =>
      cases others with
      | nil => rfl
      | cons b rest => cases h
  | cons a rest ih =>
      cases others with
      | nil => cases h
      | cons b others =>
          obtain ⟨hab, hrest⟩ := List.cons.inj h
          rw [List.mapM_cons, List.mapM_cons]
          rcases map_eq_map.1 (hread a b hab) with ⟨e, hn, hm⟩ | ⟨k, l, hn, hm, hkl⟩
          · rw [hn, hm]
            rfl
          · rcases map_eq_map.1 (ih hrest) with ⟨e, hns, hms⟩ | ⟨ns, ms, hns, hms, hnm⟩
            · rw [hn, hm, hns, hms]
              rfl
            · rw [hn, hm, hns, hms]
              show Except.ok (k.unowned :: ns.map unowned)
                = Except.ok (l.unowned :: ms.map unowned)
              rw [hkl, hnm]

section

variable {n m : Node} (h : n.unownedParts = m.unownedParts)

include h

theorem kind_of_parts : n.kind = m.kind := by
  have hkind := congrArg Node.kind h
  exact hkind

theorem attributes_of_parts : n.attributes = m.attributes := by
  have hattributes := congrArg Node.attributes h
  exact hattributes

theorem fields_of_parts : Arg.unownedFields n.fields = Arg.unownedFields m.fields := by
  have hfields := congrArg Node.fields h
  exact hfields

theorem get?_of_parts (name : String) :
    (n.get? name).map Arg.unowned = (m.get? name).map Arg.unowned := by
  have hfield := congrArg (Fields.field? · name) (fields_of_parts h)
  simp only [Arg.field?_unowned] at hfield
  rw [get?, get?, attributes_of_parts h]
  rcases option_map_eq_map.1 hfield with ⟨hn, hm⟩ | ⟨a, b, hn, hm, hab⟩
  · rw [hn, hm]
  · rw [hn, hm]
    exact congrArg some hab

theorem dataType?_of_parts : n.dataType? = m.dataType? := by
  rw [dataType?, attributes_of_parts h, dataType?]

theorem outputType_of_parts : n.outputType = m.outputType := by
  rw [outputType, dataType?_of_parts h, kind_of_parts h, outputType]

theorem field_of_parts (name : String) :
    (n.field name).map Arg.unowned = (m.field name).map Arg.unowned := by
  unfold field
  rw [kind_of_parts h]
  rcases option_map_eq_map.1 (get?_of_parts h name) with ⟨hn, hm⟩ | ⟨a, b, hn, hm, hab⟩
  · rw [hn, hm]
  · rw [hn, hm]
    exact congrArg Except.ok hab

/-- Fields are read as the same, up to what happens to the results as well. -/
theorem fieldAs_of_parts {α : Type} {read : Arg → Option α} {f : α → α}
    (hread : ∀ a, read a.unowned = (read a).map f) (expected name : String) :
    (fieldAs read expected n name).map f = (fieldAs read expected m name).map f := by
  unfold fieldAs
  rw [kind_of_parts h]
  rcases map_eq_map.1 (field_of_parts h name) with ⟨e, hn, hm⟩ | ⟨a, b, hn, hm, hab⟩
  · rw [hn, hm]
  · have hmap : (read a).map f = (read b).map f := by rw [← hread, hab, hread]
    rw [hn, hm]
    simp only [bind, Except.bind]
    rcases option_map_eq_map.1 hmap with ⟨ha, hb⟩ | ⟨x, y, ha, hb, hxy⟩
    · rw [ha, hb]
    · rw [ha, hb]
      exact congrArg Except.ok hxy

theorem child_of_parts (name : String) :
    (n.child name).map unowned = (m.child name).map unowned :=
  fieldAs_of_parts h Arg.node?_unowned _ name

theorem read_of_parts {α : Type} {read : Arg → Option α}
    (hread : ∀ a, read a.unowned = read a) (expected name : String) :
    fieldAs read expected n name = fieldAs read expected m name := by
  have hid : ∀ a, read a.unowned = (read a).map id :=
    fun a => by rw [hread, Option.map_id]; rfl
  have hsame := fieldAs_of_parts h hid expected name
  rwa [Except.map_id] at hsame

theorem stringField_of_parts (name : String) : n.stringField name = m.stringField name :=
  read_of_parts h Arg.string?_unowned _ name

theorem intField_of_parts (name : String) : n.intField name = m.intField name :=
  read_of_parts h (fun a => by rw [Arg.int?, Arg.value?_unowned, Arg.int?]) _ name

theorem boolField_of_parts (name : String) : n.boolField name = m.boolField name :=
  read_of_parts h (fun a => by rw [Arg.bool?, Arg.value?_unowned, Arg.bool?]) _ name

theorem child?_of_parts (name : String) :
    (n.child? name).map unowned = (m.child? name).map unowned := by
  unfold child?
  rcases option_map_eq_map.1 (get?_of_parts h name) with ⟨hn, hm⟩ | ⟨a, b, hn, hm, hab⟩
  · rw [hn, hm]
  · rw [hn, hm]
    show a.node?.map unowned = b.node?.map unowned
    rw [← Arg.node?_unowned, hab, Arg.node?_unowned]

/-- Whether a field was left out. -/
theorem isNone_of_parts (name : String) :
    ((n.get? name).getD .none).isNone = ((m.get? name).getD .none).isNone := by
  rcases option_map_eq_map.1 (get?_of_parts h name) with ⟨hn, hm⟩ | ⟨a, b, hn, hm, hab⟩
  · rw [hn, hm]
  · rw [hn, hm]
    show a.isNone = b.isNone
    rw [← Arg.isNone_unowned, hab, Arg.isNone_unowned]

theorem childList_of_parts (name : String) :
    (n.childList name).map (List.map unowned)
      = (m.childList name).map (List.map unowned) := by
  unfold childList
  rw [kind_of_parts h]
  rcases map_eq_map.1 (field_of_parts h name) with ⟨e, hn, hm⟩ | ⟨a, b, hn, hm, hab⟩
  · rw [hn, hm]
  · have hdescribe : a.describe = b.describe := by
      rw [← Arg.describe_unowned, hab, Arg.describe_unowned]
    rw [hn, hm]
    cases a with
    | seq items =>
        cases b with
        | seq others =>
            refine mapM_of_items (fun a b hab => ?_) (Arg.seq.inj hab)
            cases a <;> cases b <;> simp [Arg.unowned] at hab
            all_goals first | rfl | exact congrArg Except.ok hab
        | none | value _ | node _ | map _ | type _ | shape _ | schema _ =>
            simp [Arg.unowned] at hab
    | none =>
        cases b <;> simp [Arg.unowned] at hab
        rfl
    | value _ | node _ | map _ | type _ | shape _ | schema _ =>
        cases b <;> simp [Arg.unowned] at hab
        exact congrArg (fun text => Except.error (Error.internal (_ ++ text))) hdescribe

end

end Node

end TypedQuery
