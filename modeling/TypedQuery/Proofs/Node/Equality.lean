import TypedQuery.Proofs.Node.Built

/-!
# Equal nodes that build are one node

Equality looks at kinds and fields only. The attributes of a node that builds follow from
its fields, and so do those of the nodes in its fields, so for such nodes equality leaves
nothing out. An output that is kept for a node is therefore kept for no other node.
-/

namespace TypedQuery

/-! ## Arguments

`P` and `Q` are what is known of the nodes on either side.
-/

section

variable {P Q : Node → Prop}

mutual

theorem Arg.eq_of_beq (hPQ : ∀ n m, P n → Q m → n.beq m = true → n = m) :
    ∀ {a b : Arg}, a.AllNodes P → b.AllNodes Q → a.beq b = true → a = b
  | .node n, b, ha, hb, h => by
      cases b with
      | node m =>
          rw [Arg.beq] at h
          rw [hPQ n m (Arg.allNodes_node.1 ha) (Arg.allNodes_node.1 hb) h]
      | none | value _ | seq _ | map _ | type _ | shape _ | schema _ => simp [Arg.beq] at h
  | .seq xs, b, ha, hb, h => by
      cases b with
      | seq ys =>
          rw [Arg.beq] at h
          rw [Arg.eq_of_beqItems hPQ (Arg.allNodes_seq.1 ha) (Arg.allNodes_seq.1 hb) h]
      | none | value _ | node _ | map _ | type _ | shape _ | schema _ => simp [Arg.beq] at h
  | .map fs, b, ha, hb, h => by
      cases b with
      | map gs =>
          rw [Arg.beq] at h
          rw [Arg.eq_of_beqFields hPQ (Arg.allNodes_map.1 ha) (Arg.allNodes_map.1 hb) h]
      | none | value _ | node _ | seq _ | type _ | shape _ | schema _ => simp [Arg.beq] at h
  | .none, b, _, _, h | .value _, b, _, _, h | .type _, b, _, _, h | .shape _, b, _, _, h
  | .schema _, b, _, _, h => by
      cases b <;> simp [Arg.beq] at h
      all_goals simp [h]

theorem Arg.eq_of_beqItems (hPQ : ∀ n m, P n → Q m → n.beq m = true → n = m) :
    ∀ {xs ys : List Arg}, (∀ a ∈ xs, a.AllNodes P) → (∀ a ∈ ys, a.AllNodes Q) →
      Arg.beqItems xs ys = true → xs = ys
  | [], ys, _, _, h => by
      cases ys with
      | nil => rfl
      | cons y ys => simp [Arg.beqItems] at h
  | x :: xs, ys, hxs, hys, h => by
      cases ys with
      | nil => simp [Arg.beqItems] at h
      | cons y ys =>
          simp only [Arg.beqItems, Bool.and_eq_true] at h
          rw [Arg.eq_of_beq hPQ (hxs x List.mem_cons_self) (hys y List.mem_cons_self) h.1,
            Arg.eq_of_beqItems hPQ (fun a ha => hxs a (List.mem_cons_of_mem _ ha))
              (fun a ha => hys a (List.mem_cons_of_mem _ ha)) h.2]

theorem Arg.eq_of_beqFields (hPQ : ∀ n m, P n → Q m → n.beq m = true → n = m) :
    ∀ {fs gs : List (String × Arg)}, (∀ f ∈ fs, f.2.AllNodes P) →
      (∀ g ∈ gs, g.2.AllNodes Q) →
      Arg.beqFields fs gs = true → fs = gs
  | [], gs, _, _, h => by
      cases gs with
      | nil => rfl
      | cons g gs => simp [Arg.beqFields] at h
  | (name, x) :: fs, gs, hfs, hgs, h => by
      cases gs with
      | nil => simp [Arg.beqFields] at h
      | cons g gs =>
          obtain ⟨other, y⟩ := g
          simp only [Arg.beqFields, Bool.and_eq_true, decide_eq_true_eq] at h
          obtain ⟨⟨rfl, hxy⟩, hrest⟩ := h
          have heq : x = y :=
            Arg.eq_of_beq hPQ (hfs _ List.mem_cons_self) (hgs _ List.mem_cons_self) hxy
          rw [heq, Arg.eq_of_beqFields hPQ (fun f hf => hfs f (List.mem_cons_of_mem _ hf))
              (fun g hg => hgs g (List.mem_cons_of_mem _ hg)) hrest]

end

end

/-! ## Nodes -/

mutual

theorem Node.beq_self : ∀ n : Node, n.beq n = true
  | .mk kind fields attributes => by simp [Node.beq, Arg.beqFields_self fields]

theorem Arg.beq_self : ∀ a : Arg, a.beq a = true
  | .node n => by rw [Arg.beq, n.beq_self]
  | .seq items => by rw [Arg.beq, Arg.beqItems_self items]
  | .map entries => by rw [Arg.beq, Arg.beqFields_self entries]
  | .none | .value _ | .type _ | .shape _ | .schema _ => by simp [Arg.beq]

theorem Arg.beqItems_self : ∀ items : List Arg, Arg.beqItems items items = true
  | [] => by rw [Arg.beqItems]
  | a :: rest => by rw [Arg.beqItems, a.beq_self, Arg.beqItems_self rest]; rfl

theorem Arg.beqFields_self :
    ∀ fields : List (String × Arg), Arg.beqFields fields fields = true
  | [] => by rw [Arg.beqFields]
  | (_, a) :: rest => by simp [Arg.beqFields, a.beq_self, Arg.beqFields_self rest]

end

mutual

/-- Equal nodes are equal to the same nodes. -/
theorem Node.beq_congr : ∀ {n m : Node}, n.beq m = true → ∀ k : Node, n.beq k = m.beq k
  | .mk kind fields _, .mk _ _ _, h, .mk _ others _ => by
      simp only [Node.beq, Bool.and_eq_true, decide_eq_true_eq] at h ⊢
      obtain ⟨rfl, hfields⟩ := h
      rw [Arg.beqFields_congr hfields others]

theorem Arg.beq_congr : ∀ {a b : Arg}, a.beq b = true → ∀ c : Arg, a.beq c = b.beq c
  | .node n, b, h, c => by
      cases b with
      | node m =>
          cases c with
          | node k => rw [Arg.beq, Arg.beq, Node.beq_congr (by rwa [Arg.beq] at h) k]
          | none | value _ | seq _ | map _ | type _ | shape _ | schema _ => simp [Arg.beq]
      | none | value _ | seq _ | map _ | type _ | shape _ | schema _ => simp [Arg.beq] at h
  | .seq xs, b, h, c => by
      cases b with
      | seq ys =>
          cases c with
          | seq zs => rw [Arg.beq, Arg.beq, Arg.beqItems_congr (by rwa [Arg.beq] at h) zs]
          | none | value _ | node _ | map _ | type _ | shape _ | schema _ => simp [Arg.beq]
      | none | value _ | node _ | map _ | type _ | shape _ | schema _ => simp [Arg.beq] at h
  | .map fs, b, h, c => by
      cases b with
      | map gs =>
          cases c with
          | map hs => rw [Arg.beq, Arg.beq, Arg.beqFields_congr (by rwa [Arg.beq] at h) hs]
          | none | value _ | node _ | seq _ | type _ | shape _ | schema _ => simp [Arg.beq]
      | none | value _ | node _ | seq _ | type _ | shape _ | schema _ => simp [Arg.beq] at h
  | .none, b, h, _ | .value _, b, h, _ | .type _, b, h, _ | .shape _, b, h, _
  | .schema _, b, h, _ => by
      cases b <;> simp [Arg.beq] at h
      all_goals simp [h]

theorem Arg.beqItems_congr : ∀ {xs ys : List Arg}, Arg.beqItems xs ys = true →
    ∀ zs : List Arg, Arg.beqItems xs zs = Arg.beqItems ys zs
  | [], [], _, _ => rfl
  | [], _ :: _, h, _ => by simp [Arg.beqItems] at h
  | _ :: _, [], h, _ => by simp [Arg.beqItems] at h
  | x :: xs, y :: ys, h, zs => by
      simp only [Arg.beqItems, Bool.and_eq_true] at h
      cases zs with
      | nil => simp [Arg.beqItems]
      | cons z zs =>
          rw [Arg.beqItems, Arg.beqItems, Arg.beq_congr h.1 z, Arg.beqItems_congr h.2 zs]

theorem Arg.beqFields_congr : ∀ {fs gs : List (String × Arg)}, Arg.beqFields fs gs = true →
    ∀ hs : List (String × Arg), Arg.beqFields fs hs = Arg.beqFields gs hs
  | [], [], _, _ => rfl
  | [], _ :: _, h, _ => by simp [Arg.beqFields] at h
  | _ :: _, [], h, _ => by simp [Arg.beqFields] at h
  | (_, x) :: fs, (_, y) :: gs, h, hs => by
      simp only [Arg.beqFields, Bool.and_eq_true, decide_eq_true_eq] at h
      obtain ⟨⟨rfl, hxy⟩, hrest⟩ := h
      cases hs with
      | nil => simp [Arg.beqFields]
      | cons g hs =>
          obtain ⟨_, z⟩ := g
          rw [Arg.beqFields, Arg.beqFields, Arg.beq_congr hxy z,
            Arg.beqFields_congr hrest hs]

end

instance : EquivBEq Node where
  rfl := Node.beq_self _
  symm h := (Node.beq_congr h _).symm.trans (Node.beq_self _)
  trans h h' := (Node.beq_congr h _).trans h'

namespace Node

/-- Kind and fields determine a node that builds. -/
theorem Built.ext {n m : Node} (hn : n.Built) (hm : m.Built) (hkind : n.kind = m.kind)
    (hfields : n.fields = m.fields) : n = m := by
  have hattributes : n.attributes = m.attributes := by
    have h := hn.derive_eq
    rw [hkind, hfields, hm.derive_eq] at h
    exact (Except.ok.inj h).symm
  obtain ⟨k, fs, as⟩ := n
  obtain ⟨l, gs, bs⟩ := m
  simp only [kind, fields, attributes] at hkind hfields hattributes
  rw [hkind, hfields, hattributes]

/-- The nodes in the fields are less deep, so the induction is on the depth. -/
theorem Built.eq_of_beq {n m : Node} (hn : n.Built) (hm : m.Built) (h : (n == m) = true) :
    n = m := by
  have hwithin : ∀ (depth : Nat) (n m : Node), n.depth ≤ depth → n.Built → m.Built →
      n.beq m = true → n = m := by
    intro depth
    induction depth with
    | zero =>
        intro n m hdepth
        obtain ⟨k, fs, as⟩ := n
        simp [Node.depth] at hdepth
    | succ depth ih =>
        intro n m hdepth hn hm h
        have hfields : n.kind = m.kind ∧ Arg.beqFields n.fields m.fields = true := by
          obtain ⟨k, fs, as⟩ := n
          obtain ⟨l, gs, bs⟩ := m
          simpa [Node.beq, kind, fields] using h
        refine hn.ext hm hfields.1 (Arg.eq_of_beqFields
          (P := fun k => k.depth ≤ depth ∧ k.Built) (Q := Built) ?_ ?_ ?_ hfields.2)
        · intro a b ha hb hab
          exact ih a b ha.1 ha.2 hb hab
        · intro f hf a ha
          have hmem : a ∈ n.children := Arg.mem_nodesOfFields.2 ⟨f, hf, ha⟩
          exact ⟨by have := Node.depth_of_mem_children hmem; omega, hn.of_mem_children hmem⟩
        · intro g hg b hb
          exact hm.of_mem_children (Arg.mem_nodesOfFields.2 ⟨g, hg, hb⟩)
  exact hwithin n.depth n m (Nat.le_refl _) hn hm h

theorem Built.beq_iff {n m : Node} (hn : n.Built) (hm : m.Built) : (n == m) = true ↔ n = m :=
  ⟨hn.eq_of_beq hm, fun h => h ▸ BEq.rfl⟩

theorem Built.beq_eq_false {n m : Node} (hn : n.Built) (hm : m.Built) (h : n ≠ m) :
    (n == m) = false := by
  rw [← Bool.not_eq_true, hn.beq_iff hm]
  exact h

end Node

end TypedQuery
