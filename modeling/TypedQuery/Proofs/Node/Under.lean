import TypedQuery.Proofs.Node.Built

/-!
# Nodes inside nodes

`Node.Under m n` says that `m` stands somewhere below `n`, and `Node.holds` whether a kind
occurs in a node at any depth.
-/

namespace TypedQuery

namespace Node

/-- A node that stands strictly below another. -/
inductive Under : Node → Node → Prop
  | child {m n : Node} (h : m ∈ n.children) : Under m n
  | deeper {m k n : Node} (h : m ∈ k.children) (hk : Under k n) : Under m n

namespace Under

variable {m n : Node}

theorem depth_lt (h : m.Under n) : m.depth < n.depth := by
  induction h with
  | child h => exact depth_of_mem_children h
  | deeper h _ ih => exact Nat.lt_trans (depth_of_mem_children h) ih

theorem built (h : m.Under n) (hn : n.Built) : m.Built := by
  induction h with
  | child h => exact hn.of_mem_children h
  | deeper h _ ih => exact (ih hn).of_mem_children h

end Under

/-- The node itself, or one below it. -/
def Within (m n : Node) : Prop := m = n ∨ m.Under n

namespace Within

variable {m k n : Node}

theorem refl (n : Node) : n.Within n := Or.inl rfl

theorem built (h : m.Within n) (hn : n.Built) : m.Built := by
  rcases h with rfl | h
  · exact hn
  · exact h.built hn

/-- A list that holds a node, and the children of everything in it, holds all
nodes inside that one. -/
theorem mem {ms : List Node} (h : m.Within n) (hn : n ∈ ms)
    (hms : ∀ k ∈ ms, ∀ child ∈ k.children, child ∈ ms) :
    m ∈ ms := by
  rcases h with rfl | h
  · exact hn
  · induction h with
    | child h => exact hms _ hn _ h
    | deeper h _ ih => exact hms _ (ih hn) _ h

end Within

theorem Under.trans {m k n : Node} (h : m.Under k) (hk : k.Under n) : m.Under n := by
  induction h with
  | child h => exact .deeper h hk
  | deeper h _ ih => exact .deeper h (ih hk)

theorem Within.under {m k n : Node} (h : m.Within k) (hk : k ∈ n.children) : m.Under n := by
  rcases h with rfl | h
  · exact .child hk
  · exact h.trans (.child hk)

end Node

/-! ## Kinds in nodes -/

mutual

/-- Whether the node, or one below it, is of the kind. -/
def Node.holds (kind : NodeKind) : Node → Bool
  | .mk k fields _ => decide (k = kind) || Arg.holdsInFields kind fields

def Arg.holds (kind : NodeKind) : Arg → Bool
  | .node n => n.holds kind
  | .seq items => Arg.holdsInItems kind items
  | .map entries => Arg.holdsInFields kind entries
  | _ => false

def Arg.holdsInItems (kind : NodeKind) : List Arg → Bool
  | [] => false
  | a :: rest => a.holds kind || Arg.holdsInItems kind rest

def Arg.holdsInFields (kind : NodeKind) : List (String × Arg) → Bool
  | [] => false
  | (_, a) :: rest => a.holds kind || Arg.holdsInFields kind rest

end

mutual

theorem Arg.holds_of_mem {kind : NodeKind} : ∀ {a : Arg} {m : Node}, m ∈ a.nodes →
    m.holds kind = true → a.holds kind = true
  | .node n, m, hm, h => by
      rw [Arg.nodes, List.mem_singleton] at hm
      rw [Arg.holds, ← hm, h]
  | .seq items, m, hm, h => by
      rw [Arg.nodes] at hm
      rw [Arg.holds]
      exact Arg.holds_of_mem_items hm h
  | .map entries, m, hm, h => by
      rw [Arg.nodes] at hm
      rw [Arg.holds]
      exact Arg.holds_of_mem_fields hm h
  | .none, m, hm, _ | .value _, m, hm, _ | .type _, m, hm, _ | .shape _, m, hm, _
  | .schema _, m, hm, _ => by simp [Arg.nodes] at hm

theorem Arg.holds_of_mem_items {kind : NodeKind} : ∀ {items : List Arg} {m : Node},
    m ∈ Arg.nodesOfItems items → m.holds kind = true → Arg.holdsInItems kind items = true
  | [], m, hm, _ => by simp [Arg.nodesOfItems] at hm
  | a :: rest, m, hm, h => by
      rw [Arg.nodesOfItems, List.mem_append] at hm
      rw [Arg.holdsInItems, Bool.or_eq_true]
      rcases hm with hm | hm
      · exact Or.inl (Arg.holds_of_mem hm h)
      · exact Or.inr (Arg.holds_of_mem_items hm h)

theorem Arg.holds_of_mem_fields {kind : NodeKind} :
    ∀ {fields : List (String × Arg)} {m : Node}, m ∈ Arg.nodesOfFields fields →
      m.holds kind = true → Arg.holdsInFields kind fields = true
  | [], m, hm, _ => by simp [Arg.nodesOfFields] at hm
  | (_, a) :: rest, m, hm, h => by
      rw [Arg.nodesOfFields, List.mem_append] at hm
      rw [Arg.holdsInFields, Bool.or_eq_true]
      rcases hm with hm | hm
      · exact Or.inl (Arg.holds_of_mem hm h)
      · exact Or.inr (Arg.holds_of_mem_fields hm h)

end

namespace Node

variable {kind : NodeKind} {m n : Node}

theorem kind_ne_of_holds (h : n.holds kind = false) : n.kind ≠ kind := by
  obtain ⟨k, fields, attributes⟩ := n
  rw [holds, Bool.or_eq_false_iff, decide_eq_false_iff_not] at h
  exact h.1

theorem holds_of_mem_children (hm : m ∈ n.children) (h : n.holds kind = false) :
    m.holds kind = false := by
  obtain ⟨k, fields, attributes⟩ := n
  rw [holds, Bool.or_eq_false_iff] at h
  cases hm' : m.holds kind with
  | false => rfl
  | true =>
      have hfields : Arg.holdsInFields kind fields = true := Arg.holds_of_mem_fields hm hm'
      rw [h.2] at hfields
      cases hfields

theorem Under.holds (hm : m.Under n) (h : n.holds kind = false) : m.holds kind = false := by
  induction hm with
  | child hm => exact holds_of_mem_children hm h
  | deeper hm _ ih => exact holds_of_mem_children hm (ih h)

end Node

end TypedQuery
