import TypedQuery.Proofs.Emission.Run

/-!
# What fields hold

A field of a node that builds holds what its validator lets through, so it can be read as
that: as a node, as a sequence of nodes, as a text, a number or a truth value.
`NodeKind.hasNode` and its siblings say which fields of a kind can be read in which way,
and the lemmas about `Node.Built` that reading them in this way succeeds.
-/

namespace TypedQuery

/-! ## Validators by what they let through -/

namespace Validator

/-- Whether everything that the validator lets through is a node. -/
def givesNode : Validator → Bool
  | instanceOf _ | value | valueOf _ | scalarValue | literal | comparableWith _
  | sortKey => true
  | either first second => first.givesNode && second.givesNode
  | _ => false

/-- Whether everything that the validator lets through is a sequence of nodes, or nothing. -/
def givesNodes : Validator → Bool
  | tupleOf inner => inner.givesNode
  | sameLengthAs _ => true
  | optional inner => inner.givesNodes
  | _ => false

def givesText : Validator → Bool
  | string | oneOf _ | columnOf _ => true
  | _ => false

variable {v : Validator} {raw a : Arg} {before : Fields}

theorem node_of_givesNode (hv : v.givesNode = true) (h : v.validate raw before = .ok a) :
    ∃ m, a = .node m := by
  induction v generalizing a with
  | instanceOf kind =>
      obtain ⟨rfl, m, hm, -⟩ := ofKind_eq_ok h
      exact ⟨m, hm⟩
  | value =>
      obtain ⟨m, hm, -⟩ := expression_eq_ok h
      exact ⟨m, hm⟩
  | valueOf family =>
      obtain ⟨m, hm, -⟩ := expression_eq_ok (ofFamily_eq_ok h).1
      exact ⟨m, hm⟩
  | scalarValue =>
      obtain ⟨m, hm, -⟩ := expression_eq_ok (scalarValue_eq_ok h).1
      exact ⟨m, hm⟩
  | literal =>
      obtain ⟨m, hm, -⟩ := expression_eq_ok (literal_eq_ok h).1
      exact ⟨m, hm⟩
  | comparableWith field =>
      obtain ⟨m, hm, -⟩ := expression_eq_ok (comparable_eq_ok h)
      exact ⟨m, hm⟩
  | sortKey =>
      rcases sortKey_eq_ok h with ⟨rfl, m, hm, -⟩ | ⟨m, ha, -⟩
      · exact ⟨m, hm⟩
      · exact ⟨_, ha⟩
  | either first second ihFirst ihSecond =>
      rw [givesNode, Bool.and_eq_true] at hv
      rcases either_eq_ok.1 h with h | ⟨-, h⟩
      · exact ihFirst hv.1 h
      · exact ihSecond hv.2 h
  | any | literalPayload | string | integer | boolean | dataType | schema | optional _
  | tupleOf _ | mapOf _ | oneOf _ | columnOf _ | sameLengthAs _ | rowsOf _ => cases hv

theorem nodes_of_items {check : Arg → Except String Arg} {items out : List Arg}
    (hcheck : ∀ x y, check x = .ok y → ∃ m, y = .node m)
    (h : List.Forall₂ (fun x y => check x = .ok y) items out) :
    ∃ ms : List Node, out = ms.map Arg.node := by
  induction h with
  | nil => exact ⟨[], rfl⟩
  | cons hxy _ ih =>
      obtain ⟨m, rfl⟩ := hcheck _ _ hxy
      obtain ⟨ms, rfl⟩ := ih
      exact ⟨m :: ms, rfl⟩

theorem nodes_of_givesNodes (hv : v.givesNodes = true) (h : v.validate raw before = .ok a) :
    a = .none ∨ ∃ ms : List Node, a = .seq (ms.map Arg.node) := by
  induction v generalizing a with
  | tupleOf inner =>
      obtain ⟨out, rfl, hout⟩ := tupleOf_eq_ok h
      obtain ⟨items, -, hitems⟩ := sequence_eq_ok hout
      obtain ⟨ms, rfl⟩ := nodes_of_items (fun _ _ => node_of_givesNode hv) hitems
      exact Or.inr ⟨ms, rfl⟩
  | sameLengthAs field =>
      obtain ⟨out, -, rfl, hout, -⟩ := sameLength_eq_ok h
      obtain ⟨items, -, hitems⟩ := sequence_eq_ok hout
      have hvalue : ∀ x y, expression x = .ok y → ∃ m, y = .node m := fun x y hy => by
        obtain ⟨m, hm, -⟩ := expression_eq_ok hy
        exact ⟨m, hm⟩
      obtain ⟨ms, rfl⟩ := nodes_of_items hvalue hitems
      exact Or.inr ⟨ms, rfl⟩
  | optional inner ih =>
      rcases optional_eq_ok h with ⟨-, rfl⟩ | ⟨-, h⟩
      · exact Or.inl rfl
      · exact ih hv h
  | any | literalPayload | string | integer | boolean | dataType | schema | mapOf _
  | oneOf _ | columnOf _ | rowsOf _ | instanceOf _ | value | valueOf _ | scalarValue
  | literal | comparableWith _ | sortKey | either _ _ =>
      cases hv

theorem text_of_givesText (hv : v.givesText = true) (h : v.validate raw before = .ok a) :
    ∃ s, a.string? = some s := by
  cases v with
  | string => obtain ⟨rfl, hs⟩ := ofView_eq_ok h; exact hs
  | oneOf options => obtain ⟨rfl, s, hs, -⟩ := oneOf_eq_ok h; exact ⟨s, hs⟩
  | columnOf field => obtain ⟨rfl, s, -, hs, -⟩ := columnName_eq_ok h; exact ⟨s, hs⟩
  | _ => cases hv

end Validator

/-! ## Fields by how they can be read -/

namespace NodeKind

variable (k : NodeKind) (name : String)

def hasNode : Bool := (k.validator? name).any Validator.givesNode

/-- Whether a field holds a value. -/
def hasValue : Bool := (k.validator? name).any fun v => v.givesNode && v.onlyValues

def hasNodes : Bool := (k.validator? name).any Validator.givesNodes

/-- Whether a field holds a sequence of values, or nothing. -/
def hasValues : Bool := (k.validator? name).any fun v => v.givesNodes && v.onlyValues

def hasText : Bool := (k.validator? name).any Validator.givesText

end NodeKind

namespace Node

variable {n : Node} {name : String}

theorem field_of_get? {a : Arg} (h : n.get? name = some a) :
    n.field name = .ok a := by rw [field, h]

theorem fieldAs_of_get? {α : Type} {read : Arg → Option α} {expected : String}
    {a : Arg} {x : α} (h : n.get? name = some a) (ha : read a = some x) :
    fieldAs read expected n name = .ok x := by
  rw [fieldAs, field_of_get? h]
  simp [bind, Except.bind, ha]

theorem childList_of_get? {ms : List Node}
    (h : n.get? name = some (.seq (ms.map Arg.node))) :
    n.childList name = .ok ms := by
  rw [childList, field_of_get? h]
  refine mapM_eq_ok.2 ?_
  clear h
  induction ms with
  | nil => exact .nil
  | cons m rest ih => exact .cons rfl ih

namespace Built

variable (h : n.Built) (name)

include h

theorem exists_child (hk : n.kind.hasNode name = true) :
    ∃ m, n.child name = .ok m ∧ m ∈ n.children := by
  obtain ⟨v, hv, hnode⟩ := (Option.any_eq_true _ _).1 hk
  obtain ⟨raw, before, a, -, hvalid, -, hget⟩ := h.get?_eq hv
  obtain ⟨m, rfl⟩ := Validator.node_of_givesNode hnode hvalid
  have hchild : n.child name = .ok m := fieldAs_of_get? hget rfl
  exact ⟨m, hchild, h.mem_children_of_child hchild⟩

theorem exists_value (hk : n.kind.hasValue name = true) :
    ∃ m, n.child name = .ok m ∧ m ∈ n.children ∧ m.kind.isValue = true := by
  obtain ⟨v, hv, hvalue⟩ := (Option.any_eq_true _ _).1 hk
  rw [Bool.and_eq_true] at hvalue
  obtain ⟨m, hm, hmem⟩ := h.exists_child name ((Option.any_eq_true _ _).2 ⟨v, hv, hvalue.1⟩)
  obtain ⟨a, ha, hread⟩ := fieldAs_eq_ok hm
  exact ⟨m, hm, hmem, h.isValue_of_get? hv hvalue.2 ha m (mem_nodes_of_node? hread)⟩

theorem exists_childList (hk : n.kind.hasNodes name = true) :
    ∃ ms, n.childList name = .ok ms ∧ ∀ m ∈ ms, m ∈ n.children := by
  obtain ⟨v, hv, hnodes⟩ := (Option.any_eq_true _ _).1 hk
  obtain ⟨raw, before, a, -, hvalid, -, hget⟩ := h.get?_eq hv
  rcases Validator.nodes_of_givesNodes hnodes hvalid with rfl | ⟨ms, rfl⟩
  · exact ⟨[], by rw [childList, field_of_get? hget]; rfl,
      fun _ hm => absurd hm List.not_mem_nil⟩
  · exact ⟨ms, childList_of_get? hget,
      fun m hm => h.mem_children_of_childList (childList_of_get? hget) hm⟩

theorem exists_values (hk : n.kind.hasValues name = true) :
    ∃ ms, n.childList name = .ok ms ∧ ∀ m ∈ ms, m ∈ n.children ∧ m.kind.isValue = true := by
  obtain ⟨v, hv, hvalues⟩ := (Option.any_eq_true _ _).1 hk
  rw [Bool.and_eq_true] at hvalues
  obtain ⟨ms, hms, hmem⟩ :=
    h.exists_childList name ((Option.any_eq_true _ _).2 ⟨v, hv, hvalues.1⟩)
  exact ⟨ms, hms, fun m hm => ⟨hmem m hm, h.isValue_of_mem_childList hv hvalues.2 hms hm⟩⟩

theorem exists_text (hk : n.kind.hasText name = true) : ∃ s, n.stringField name = .ok s := by
  obtain ⟨v, hv, htext⟩ := (Option.any_eq_true _ _).1 hk
  obtain ⟨raw, before, a, -, hvalid, -, hget⟩ := h.get?_eq hv
  obtain ⟨s, hs⟩ := Validator.text_of_givesText htext hvalid
  exact ⟨s, fieldAs_of_get? hget hs⟩

theorem exists_int (hv : n.kind.validator? name = some .integer) :
    ∃ k, n.intField name = .ok k := by
  obtain ⟨raw, before, a, -, hvalid, -, hget⟩ := h.get?_eq hv
  obtain ⟨rfl, k, hk⟩ := Validator.ofView_eq_ok hvalid
  exact ⟨k, fieldAs_of_get? hget hk⟩

theorem exists_bool (hv : n.kind.validator? name = some .boolean) :
    ∃ b, n.boolField name = .ok b := by
  obtain ⟨raw, before, a, -, hvalid, -, hget⟩ := h.get?_eq hv
  obtain ⟨rfl, b, hb⟩ := Validator.ofView_eq_ok hvalid
  exact ⟨b, fieldAs_of_get? hget hb⟩

theorem exists_typeHeld (hv : n.kind.validator? name = some .dataType) :
    ∃ a t, n.field name = .ok a ∧ a.type? = some t := by
  obtain ⟨raw, before, a, -, hvalid, -, hget⟩ := h.get?_eq hv
  obtain ⟨rfl, t, ht⟩ := Validator.ofView_eq_ok hvalid
  exact ⟨a, t, field_of_get? hget, ht⟩

theorem exists_literal (hk : n.kind = .literal) : ∃ v, n.literal? = some v := by
  obtain ⟨raw, before, a, -, hvalid, -, hfield⟩ :=
    h.field?_eq (show n.kind.validator? "value" = some .literalPayload by rw [hk]; rfl)
  obtain ⟨v, rfl⟩ := Validator.payload_eq_ok hvalid
  exact ⟨v, by rw [literal?, isLiteral, hk, hfield]; rfl⟩

end Built

/-! ## Names -/

theorem proper_givenName {kind : NodeKind} {fields attributes : Fields}
    (h : (mk kind fields attributes).Built) (hk : kind.hasText "name" = true) :
    Proper (fun _ => True) (mk kind fields attributes).givenName := by
  obtain ⟨s, hs⟩ := h.exists_text _ hk
  rw [givenName, hs]
  trivial

end Node

mutual

/-- Asking a node for its name never fails internally: only nodes without names have none. -/
theorem Node.proper_name : ∀ {n : Node}, n.Built → Proper (fun _ => True) n.name
  | .mk kind fields attributes, h => by
      have hfields := Arg.proper_namesOfFields fields fun m hm => h.of_mem_children hm
      unfold Node.name
      split
      · exact Node.proper_givenName h (by decide)
      · exact Node.proper_givenName h (by decide)
      · exact Node.proper_givenName h (by decide)
      · exact Node.proper_givenName h (by decide)
      · trivial
      · split
        · exact hfields.bind fun _ _ _ => trivial
        · rfl

theorem Arg.proper_names :
    ∀ a : Arg, a.AllNodes Node.Built → Proper (fun _ => True) a.valueNames
  | .node n, h => by
      have hname := Node.proper_name (Arg.allNodes_node.1 h)
      unfold Arg.valueNames
      split
      · exact hname.bind fun _ _ _ => trivial
      · trivial
  | .seq items, h => by
      unfold Arg.valueNames
      exact Arg.proper_namesOfItems items h
  | .map entries, h => by
      unfold Arg.valueNames
      exact Arg.proper_namesOfFields entries h
  | .none, _ | .value _, _ | .type _, _ | .shape _, _ | .schema _, _ => trivial

theorem Arg.proper_namesOfItems :
    ∀ items : List Arg, (∀ m ∈ Arg.nodesOfItems items, m.Built) →
    Proper (fun _ => True) (Arg.valueNamesOfItems items)
  | [], _ => trivial
  | a :: rest, h => by
      rw [Arg.nodesOfItems] at h
      obtain ⟨ha, hrest⟩ := List.forall_mem_append.1 h
      unfold Arg.valueNamesOfItems
      exact (Arg.proper_names a ha).bind fun _ _ _ =>
        (Arg.proper_namesOfItems rest hrest).bind fun _ _ _ => trivial

theorem Arg.proper_namesOfFields :
    ∀ fields : List (String × Arg), (∀ m ∈ Arg.nodesOfFields fields, m.Built) →
    Proper (fun _ => True) (Arg.valueNamesOfFields fields)
  | [], _ => trivial
  | (_, a) :: rest, h => by
      rw [Arg.nodesOfFields] at h
      obtain ⟨ha, hrest⟩ := List.forall_mem_append.1 h
      unfold Arg.valueNamesOfFields
      exact (Arg.proper_names a ha).bind fun _ _ _ =>
        (Arg.proper_namesOfFields rest hrest).bind fun _ _ _ => trivial

end

/-! ## Faces -/

theorem Node.proper_outputType (n : Node) :
    Proper (fun t => n.dataType? = some t) n.outputType := by
  unfold outputType
  split
  · next t ht => exact ht
  · rfl

theorem Node.proper_outputSchema (n : Node) :
    Proper (fun s => n.schema? = some s) n.outputSchema := by
  unfold outputSchema
  split
  · next s hs => exact hs
  · rfl

end TypedQuery
