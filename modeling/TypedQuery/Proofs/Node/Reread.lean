import TypedQuery.Proofs.Node.Equality
import TypedQuery.Proofs.Node.Unowned

/-!
# Columns read from another table

What a node derives from its fields does not depend on the tables of the columns in them, a
column itself apart: that has the type which its table gives it. So nodes that build with
the same fields, up to the tables of columns, have the same types, shapes and schemas.
-/

namespace TypedQuery

/-! ## Rules that see no tables of columns -/

/-- The attribute is derived in the same way when the columns forget their tables. -/
def Attribute.Blind (rule : Attribute) : Prop :=
  ∀ bound, rule (Arg.unownedFields bound) = rule bound

namespace Rules

variable (bound : Fields)

theorem node?_unowned (field : String) :
    Fields.node? (Arg.unownedFields bound) field
      = (Fields.node? bound field).map Node.unowned := by
  rw [Fields.node?, Arg.field?_unowned, Fields.node?]
  cases Fields.field? bound field with
  | none => rfl
  | some a => exact Arg.node?_unowned a

theorem nodesIn_unowned (field : String) :
    nodesIn field (Arg.unownedFields bound) = (nodesIn field bound).map Node.unowned := by
  rw [nodesIn, Arg.field?_unowned, nodesIn]
  cases Fields.field? bound field with
  | none => rfl
  | some a => exact Arg.nodes_unowned a

theorem bind_unowned {α : Type} {read : Arg → Option α}
    (hread : ∀ a, read a.unowned = read a) (field : String) :
    (Fields.field? (Arg.unownedFields bound) field).bind read
      = (Fields.field? bound field).bind read := by
  rw [Arg.field?_unowned]
  cases Fields.field? bound field with
  | none => rfl
  | some a => exact hread a

theorem filterMap_unowned {α : Type} {read : Node → Option α}
    (hread : ∀ n, read n.unowned = read n) (ms : List Node) :
    (ms.map Node.unowned).filterMap read = ms.filterMap read := by
  rw [List.filterMap_map]
  exact List.filterMap_congr fun m _ => hread m

theorem typeIn_unowned (field : String) :
    typeIn field (Arg.unownedFields bound) = typeIn field bound := by
  rw [typeIn, node?_unowned, Option.bind_map]
  simp only [Function.comp_def, Node.dataType?_unowned]
  rfl

theorem shapeIn_unowned (field : String) :
    shapeIn field (Arg.unownedFields bound) = shapeIn field bound := by
  rw [shapeIn, node?_unowned, Option.bind_map]
  simp only [Function.comp_def, Node.shape?_unowned]
  rfl

theorem schemaIn_unowned (field : String) :
    schemaIn field (Arg.unownedFields bound) = schemaIn field bound := by
  rw [schemaIn, node?_unowned, Option.bind_map]
  simp only [Function.comp_def, Node.schema?_unowned]
  rfl

theorem commonType_unowned (fields : List String) :
    commonType fields (Arg.unownedFields bound) = commonType fields bound := by
  have htypes :
      (fields.flatMap fun field => nodesIn field (Arg.unownedFields bound)).filterMap
      Node.dataType?
      = (fields.flatMap fun field => nodesIn field bound).filterMap Node.dataType? := by
    simp only [nodesIn_unowned, ← List.map_flatMap]
    exact filterMap_unowned Node.dataType?_unowned _
  simp only [commonType, htypes]

theorem widestShape_unowned : widestShape (Arg.unownedFields bound) = widestShape bound := by
  rw [widestShape, Fields.nodes, Arg.nodesOfFields_unowned, List.filter_map]
  simp only [Function.comp_def, Node.kind_unowned]
  rw [filterMap_unowned Node.shape?_unowned]
  rfl

theorem widerShape_unowned (left right : String) :
    widerShape left right (Arg.unownedFields bound) = widerShape left right bound := by
  simp only [widerShape, shapeIn_unowned]

theorem typeHeld_unowned (field : String) :
    typeHeld field (Arg.unownedFields bound) = typeHeld field bound := by
  rw [typeHeld, bind_unowned bound Arg.type?_unowned, typeHeld]

theorem arrayType_unowned : arrayType (Arg.unownedFields bound) = arrayType bound := by
  simp only [arrayType, nodesIn_unowned, List.isEmpty_map, commonType_unowned]

theorem sumType_unowned : sumType (Arg.unownedFields bound) = sumType bound := by
  simp only [sumType, typeIn_unowned]

theorem roundType_unowned : roundType (Arg.unownedFields bound) = roundType bound := by
  rw [roundType, node?_unowned, typeIn_unowned, roundType]
  cases Fields.node? bound "digits" <;> rfl

theorem unitText_unowned : unitText (Arg.unownedFields bound) = unitText bound := by
  rw [unitText, bind_unowned bound Arg.string?_unowned, unitText]

theorem unixTimestampType_unowned :
    unixTimestampType (Arg.unownedFields bound) = unixTimestampType bound := by
  simp only [unixTimestampType, unitText_unowned]

theorem intervalType_unowned :
    intervalType (Arg.unownedFields bound) = intervalType bound := by
  simp only [intervalType, unitText_unowned]

/-! ## Schemas -/

theorem declaredSchema_unowned (kind : NodeKind) :
    declaredSchema kind (Arg.unownedFields bound) = declaredSchema kind bound := by
  rw [declaredSchema, bind_unowned bound Arg.schema?_unowned, declaredSchema]

theorem joinSchema_unowned : joinSchema (Arg.unownedFields bound) = joinSchema bound := by
  simp only [joinSchema, schemaIn_unowned]

theorem valueColumn_unowned (n : Node) : valueColumn n.unowned = valueColumn n := by
  rw [valueColumn, Node.name_unowned, Node.outputType_unowned, valueColumn]

theorem pushSelected_unowned (s : Schema) (ms : List Node) :
    pushSelected s (ms.map Node.unowned) = pushSelected s ms := by
  induction ms generalizing s with
  | nil => rfl
  | cons m rest ih =>
      simp only [List.map_cons, pushSelected, Node.kind_unowned, Node.schema?_unowned,
        valueColumn_unowned, ih]

theorem pushValues_unowned (field : String) (s : Schema) (ms : List Node) :
    pushValues field s (ms.map Node.unowned) = pushValues field s ms := by
  induction ms generalizing s with
  | nil => rfl
  | cons m rest ih => simp only [List.map_cons, pushValues, valueColumn_unowned, ih]

theorem selectionSchema_unowned :
    selectionSchema (Arg.unownedFields bound) = selectionSchema bound := by
  rw [selectionSchema, nodesIn_unowned, schemaIn_unowned, selectionSchema]
  cases nodesIn "selections" bound with
  | nil => rfl
  | cons m rest => exact pushSelected_unowned .empty (m :: rest)

theorem aggregationSchema_unowned :
    aggregationSchema (Arg.unownedFields bound) = aggregationSchema bound := by
  simp only [aggregationSchema, nodesIn_unowned, pushValues_unowned]

end Rules

namespace Catalogue

open Rules

theorem blind_hasType {rule : Fields → Except Error DataType}
    (h : ∀ bound, rule (Arg.unownedFields bound) = rule bound) :
    Attribute.Blind (hasType rule).2 :=
  fun bound => congrArg (Except.map Arg.type) (h bound)

theorem blind_ofType (t : DataType) : Attribute.Blind (ofType t).2 :=
  blind_hasType fun _ => rfl

theorem blind_hasShape {rule : Fields → Except Error Shape}
    (h : ∀ bound, rule (Arg.unownedFields bound) = rule bound) :
    Attribute.Blind (hasShape rule).2 :=
  fun bound => congrArg (Except.map Arg.shape) (h bound)

theorem blind_hasSchema {rule : Fields → Except Error Schema}
    (h : ∀ bound, rule (Arg.unownedFields bound) = rule bound) :
    Attribute.Blind (hasSchema rule).2 :=
  fun bound => congrArg (Except.map Arg.schema) (h bound)

theorem declaration_attributes_blind {k : NodeKind} (hk : k ≠ .tableColumn) :
    ∀ x ∈ (declaration k).attributes, Attribute.Blind x.2 := by
  have hwidest : Attribute.Blind (hasShape fun bound => .ok (widestShape bound)).2 :=
    blind_hasShape fun bound => by rw [widestShape_unowned]
  have hheld :
      ∀ field, Attribute.Blind (hasType fun bound => .ok (typeHeld field bound)).2 :=
    fun field => blind_hasType fun bound => by rw [typeHeld_unowned]
  have hcollected :
      Attribute.Blind (hasType fun bound => (typeIn "arg" bound).map .array).2 :=
    blind_hasType fun bound => by rw [typeIn_unowned]
  have hscalar : Attribute.Blind (hasShape fun _ => .ok .scalar).2 :=
    blind_hasShape fun _ => rfl
  cases k <;>
    simp only [declaration, declare, declareAbstract, List.mem_cons, List.not_mem_nil,
      or_false, or_imp, forall_and, forall_eq, false_imp_iff, implies_true, blind_ofType,
      hwidest, hheld, hcollected, blind_hasType (typeIn_unowned · _),
      blind_hasType (commonType_unowned · _), blind_hasType arrayType_unowned,
      blind_hasType sumType_unowned, blind_hasType roundType_unowned,
      blind_hasType unixTimestampType_unowned, blind_hasType intervalType_unowned,
      blind_hasShape (shapeIn_unowned · _),
      blind_hasShape (widerShape_unowned · _ _), hscalar,
      blind_hasSchema (schemaIn_unowned · _), blind_hasSchema (declaredSchema_unowned · _),
      blind_hasSchema joinSchema_unowned, blind_hasSchema selectionSchema_unowned,
      blind_hasSchema aggregationSchema_unowned, and_self]
  exact absurd rfl hk

end Catalogue

theorem NodeKind.definition_blind {k : NodeKind} (hk : k ≠ .tableColumn) :
    ∀ x ∈ k.definition.attributes, Attribute.Blind x.2 := by
  have hlineage : ∀ k ∈ all, k ≠ .tableColumn → .tableColumn ∉ k.lineage := by
    set_option maxRecDepth 2000 in decide
  refine (Catalogue.forall_definition (P := fun _ => True) (fun _ _ => trivial) k
    fun a ha => ?_).2
  refine ⟨fun _ _ => trivial, Catalogue.declaration_attributes_blind ?_⟩
  rintro rfl
  exact hlineage k k.mem_all hk ha

/-! ## Attributes of nodes with the same fields -/

mutual

theorem Arg.unowned_of_nodes : ∀ {a : Arg}, a.nodes = [] → a.unowned = a
  | .node n, h => by simp [Arg.nodes] at h
  | .seq items, h => by rw [Arg.unowned, Arg.unownedItems_of_nodes h]
  | .map entries, h => by rw [Arg.unowned, Arg.unownedFields_of_nodes h]
  | .none, _ | .value _, _ | .type _, _ | .shape _, _ | .schema _, _ => rfl

theorem Arg.unownedItems_of_nodes : ∀ {items : List Arg},
    Arg.nodesOfItems items = [] → Arg.unownedItems items = items
  | [], _ => rfl
  | a :: rest, h => by
      obtain ⟨ha, hrest⟩ := List.append_eq_nil_iff.1 h
      rw [Arg.unownedItems, Arg.unowned_of_nodes ha, Arg.unownedItems_of_nodes hrest]

theorem Arg.unownedFields_of_nodes : ∀ {fields : List (String × Arg)},
    Arg.nodesOfFields fields = [] → Arg.unownedFields fields = fields
  | [], _ => rfl
  | (_, a) :: rest, h => by
      obtain ⟨ha, hrest⟩ := List.append_eq_nil_iff.1 h
      rw [Arg.unownedFields, Arg.unowned_of_nodes ha, Arg.unownedFields_of_nodes hrest]

end

theorem Arg.unownedFields_insert (fields : Fields) (name : String) {a : Arg}
    (h : a.unowned = a) :
    Arg.unownedFields (Fields.insert fields name a)
      = Fields.insert (Arg.unownedFields fields) name a := by
  induction fields with
  | nil => simp [Fields.insert, unownedFields, h]
  | cons field rest ih =>
      obtain ⟨other, b⟩ := field
      rw [unownedFields, Fields.insert, Fields.insert]
      split
      · rw [unownedFields, h]
      · rw [unownedFields, ih]

namespace Node

/-- Each attribute is derived in the same way, and holds no nodes itself. -/
theorem derive_unowned {kind : NodeKind} {rules : List (String × Attribute)}
    (hblind : ∀ x ∈ rules, Attribute.Blind x.2) (hplain : ∀ x ∈ rules, Attribute.Plain x.2)
    (context derived : Fields) :
    derive kind (Arg.unownedFields context) derived rules
      = derive kind context derived rules := by
  induction rules generalizing context derived with
  | nil => rfl
  | cons rule rest ih =>
      obtain ⟨name, rule⟩ := rule
      have hrule : rule (Arg.unownedFields context) = rule context :=
        hblind _ List.mem_cons_self context
      rw [derive, derive, hrule]
      split
      · next a ha =>
          have hnodes : a.nodes = [] := hplain _ List.mem_cons_self context a ha
          rw [← Arg.unownedFields_insert context name (Arg.unowned_of_nodes hnodes)]
          exact ih (fun x hx => hblind x (List.mem_cons_of_mem _ hx))
            (fun x hx => hplain x (List.mem_cons_of_mem _ hx)) _ _
      · rfl

/-- Up to the tables of columns, kind and fields determine a node that builds. -/
theorem Built.unownedParts_eq {n m : Node} (hn : n.Built) (hm : m.Built)
    (hkind : n.kind = m.kind) (hcolumn : n.kind ≠ .tableColumn)
    (hfields : Arg.unownedFields n.fields = Arg.unownedFields m.fields) :
    n.unownedParts = m.unownedParts := by
  have hblind := NodeKind.definition_blind hcolumn
  have hplain := n.kind.definition_plain.2
  have hattributes : n.attributes = m.attributes := by
    have hderive := hn.derive_eq
    rw [← derive_unowned hblind hplain, hfields, derive_unowned hblind hplain, hkind,
      hm.derive_eq] at hderive
    exact (Except.ok.inj hderive).symm
  rw [unownedParts, hkind, hfields, hattributes, unownedParts]

end Node

/-! ## Reading a column from another table -/

mutual

/-- The node with `new` in place of `old`. Tables, and other columns, are left alone. -/
def Node.reread (old new : Node) : Node → Node
  | .mk kind fields attributes =>
    if Node.mk kind fields attributes == old then new
    else if kind.isTable ∨ kind = .tableColumn then .mk kind fields attributes
    else .mk kind (Arg.rereadFields old new fields) attributes

def Arg.reread (old new : Node) : Arg → Arg
  | .node n => .node (Node.reread old new n)
  | .seq items => .seq (Arg.rereadItems old new items)
  | .map entries => .map (Arg.rereadFields old new entries)
  | a => a

def Arg.rereadItems (old new : Node) : List Arg → List Arg
  | [] => []
  | a :: rest => Arg.reread old new a :: Arg.rereadItems old new rest

def Arg.rereadFields (old new : Node) : List (String × Arg) → List (String × Arg)
  | [] => []
  | (name, a) :: rest => (name, Arg.reread old new a) :: Arg.rereadFields old new rest

end

/-- The node with `new` in place of `old` in its fields; the node may be a table itself. -/
def Node.rereadParts (old new n : Node) : Node :=
  .mk n.kind (Arg.rereadFields old new n.fields) n.attributes

section

variable {old new : Node} {P Q : Node → Prop}

mutual

theorem Arg.unowned_of_reread
    (hPQ : ∀ n m, P n → Q m → n.beq (Node.reread old new m) = true → n.unowned = m.unowned) :
    ∀ {a b : Arg}, a.AllNodes P → b.AllNodes Q → a.beq (Arg.reread old new b) = true →
      a.unowned = b.unowned
  | a, .node m, ha, hb, h => by
      cases a with
      | node n =>
          rw [Arg.reread, Arg.beq] at h
          rw [Arg.unowned, Arg.unowned,
            hPQ n m (Arg.allNodes_node.1 ha) (Arg.allNodes_node.1 hb) h]
      | none | value _ | seq _ | map _ | type _ | shape _ | schema _ =>
          simp [Arg.reread, Arg.beq] at h
  | a, .seq ys, ha, hb, h => by
      cases a with
      | seq xs =>
          rw [Arg.reread, Arg.beq] at h
          rw [Arg.unowned, Arg.unowned,
            Arg.unownedItems_of_reread hPQ (Arg.allNodes_seq.1 ha) (Arg.allNodes_seq.1 hb) h]
      | none | value _ | node _ | map _ | type _ | shape _ | schema _ =>
          simp [Arg.reread, Arg.beq] at h
  | a, .map gs, ha, hb, h => by
      cases a with
      | map fs =>
          rw [Arg.reread, Arg.beq] at h
          rw [Arg.unowned, Arg.unowned,
            Arg.unownedFields_of_reread hPQ (Arg.allNodes_map.1 ha)
            (Arg.allNodes_map.1 hb) h]
      | none | value _ | node _ | seq _ | type _ | shape _ | schema _ =>
          simp [Arg.reread, Arg.beq] at h
  | a, .none, _, _, h | a, .value _, _, _, h | a, .type _, _, _, h | a, .shape _, _, _, h
  | a, .schema _, _, _, h => by
      rw [Arg.reread] at h
      · cases a <;> simp [Arg.beq] at h
        all_goals simp [h]
      all_goals nofun

theorem Arg.unownedItems_of_reread
    (hPQ : ∀ n m, P n → Q m → n.beq (Node.reread old new m) = true → n.unowned = m.unowned) :
    ∀ {xs ys : List Arg}, (∀ a ∈ xs, a.AllNodes P) → (∀ a ∈ ys, a.AllNodes Q) →
      Arg.beqItems xs (Arg.rereadItems old new ys) = true →
        Arg.unownedItems xs = Arg.unownedItems ys
  | xs, [], _, _, h => by
      cases xs with
      | nil => rfl
      | cons x xs => simp [Arg.rereadItems, Arg.beqItems] at h
  | xs, y :: ys, hxs, hys, h => by
      cases xs with
      | nil => simp [Arg.rereadItems, Arg.beqItems] at h
      | cons x xs =>
          simp only [Arg.rereadItems, Arg.beqItems, Bool.and_eq_true] at h
          rw [Arg.unownedItems, Arg.unownedItems,
            Arg.unowned_of_reread hPQ (hxs x List.mem_cons_self)
            (hys y List.mem_cons_self) h.1, Arg.unownedItems_of_reread hPQ
              (fun a ha => hxs a (List.mem_cons_of_mem _ ha))
              (fun a ha => hys a (List.mem_cons_of_mem _ ha)) h.2]

theorem Arg.unownedFields_of_reread
    (hPQ : ∀ n m, P n → Q m → n.beq (Node.reread old new m) = true → n.unowned = m.unowned) :
    ∀ {fs gs : List (String × Arg)}, (∀ f ∈ fs, f.2.AllNodes P) →
      (∀ g ∈ gs, g.2.AllNodes Q) →
      Arg.beqFields fs (Arg.rereadFields old new gs) = true →
        Arg.unownedFields fs = Arg.unownedFields gs
  | fs, [], _, _, h => by
      cases fs with
      | nil => rfl
      | cons f fs => simp [Arg.rereadFields, Arg.beqFields] at h
  | fs, (name, y) :: gs, hfs, hgs, h => by
      cases fs with
      | nil => simp [Arg.rereadFields, Arg.beqFields] at h
      | cons f fs =>
          obtain ⟨other, x⟩ := f
          simp only [Arg.rereadFields, Arg.beqFields, Bool.and_eq_true,
            decide_eq_true_eq] at h
          obtain ⟨⟨rfl, hxy⟩, hrest⟩ := h
          rw [Arg.unownedFields, Arg.unownedFields,
            Arg.unowned_of_reread hPQ (hfs _ List.mem_cons_self)
            (hgs _ List.mem_cons_self) hxy, Arg.unownedFields_of_reread hPQ
              (fun f hf => hfs f (List.mem_cons_of_mem _ hf))
              (fun g hg => hgs g (List.mem_cons_of_mem _ hg)) hrest]

end

end

namespace Node

variable {old new : Node}

/-- The nodes in the fields are less deep, so the induction is on the depth. -/
theorem Built.unowned_of_reread (hold : old.Built) (hnew : new.Built)
    (hsame : old.unowned = new.unowned) :
    ∀ (depth : Nat) (n m : Node), m.depth ≤ depth → n.Built → m.Built →
      n.beq (reread old new m) = true → n.unowned = m.unowned := by
  intro depth
  induction depth with
  | zero =>
      intro n m hdepth
      obtain ⟨kind, fields, attributes⟩ := m
      simp [Node.depth] at hdepth
  | succ depth ih =>
      intro n m hdepth hn hm h
      have hfields : ∀ {k : NodeKind} {as : Fields},
          n.beq (.mk k (Arg.rereadFields old new m.fields) as) = true →
          n.kind = k ∧ Arg.unownedFields n.fields = Arg.unownedFields m.fields := by
        intro k as h
        obtain ⟨l, fs, bs⟩ := n
        rw [Node.beq, Bool.and_eq_true, decide_eq_true_eq] at h
        refine ⟨h.1, Arg.unownedFields_of_reread (P := Built)
          (Q := fun k => k.depth ≤ depth ∧ k.Built)
          (fun a b ha hb hab => ih a b hb.1 ha hb.2 hab) ?_ ?_ h.2⟩
        · intro f hf a ha
          exact hn.of_mem_children (Arg.mem_nodesOfFields.2 ⟨f, hf, ha⟩)
        · intro g hg b hb
          have hmem : b ∈ m.children := Arg.mem_nodesOfFields.2 ⟨g, hg, hb⟩
          exact ⟨by have := Node.depth_of_mem_children hmem; omega, hm.of_mem_children hmem⟩
      obtain ⟨kind, fields, attributes⟩ := m
      rw [reread] at h
      split at h
      · next hold' =>
          rw [hn.eq_of_beq hnew h, hm.eq_of_beq hold hold', hsame]
      · split at h
        · rw [hn.eq_of_beq hm h]
        · next hvalue =>
            rw [not_or, Bool.not_eq_true] at hvalue
            obtain ⟨hkind, hfields⟩ := hfields h
            have hparts := hn.unownedParts_eq hm hkind (hkind ▸ hvalue.2) hfields
            rw [unowned_of_value (hkind ▸ hvalue.1) (hkind ▸ hvalue.2), hparts,
              unowned_of_value (n := .mk kind fields attributes) hvalue.1 hvalue.2]

/-- Two nodes, of which the first reads columns from another table than the second. -/
theorem Built.unownedParts_of_reread {n m : Node} (hn : n.Built) (hm : m.Built)
    (hold : old.Built) (hnew : new.Built) (hsame : old.unowned = new.unowned)
    (hcolumn : m.kind ≠ .tableColumn) (h : (n == rereadParts old new m) = true) :
    n.unownedParts = m.unownedParts := by
  obtain ⟨kind, fields, attributes⟩ := n
  change Node.beq _ _ = true at h
  rw [rereadParts, Node.beq, Bool.and_eq_true, decide_eq_true_eq] at h
  refine hn.unownedParts_eq hm h.1 (h.1 ▸ hcolumn)
    (Arg.unownedFields_of_reread (P := Built) (Q := Built)
    (fun a b ha hb hab => hold.unowned_of_reread hnew hsame b.depth a b
      (Nat.le_refl _) ha hb hab) ?_ ?_ h.2)
  · intro f hf a ha
    exact hn.of_mem_children (Arg.mem_nodesOfFields.2 ⟨f, hf, ha⟩)
  · intro g hg b hb
    exact hm.of_mem_children (Arg.mem_nodesOfFields.2 ⟨g, hg, hb⟩)

end Node

end TypedQuery
