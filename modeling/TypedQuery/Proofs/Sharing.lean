import TypedQuery.Binary64.Double
import TypedQuery.Node.Access
import TypedQuery.Node.Hash
import TypedQuery.Proofs.Emission.Run
import TypedQuery.Proofs.Node.Equality
import TypedQuery.Sql.Rule

/-!
# Equality of nodes in memory

Comparing nodes by address and by hash before anything else, and leaving their attributes
out, finds equal exactly the nodes that are equal all the way down. What carries the proof
is that everything a node in memory has beside its kind and its fields follows from these:
its hash, whatever function computes hashes, because it was computed from the hashes of
older nodes, and its attributes because the node was built. Which nodes share the nodes in
their fields doesn't matter, and every expression that was built can be in memory.
-/

namespace TypedQuery

/-! ## Fields in memory -/

namespace StoredArg

section

variable {read other : Nat → Node}

mutual

theorem arg_congr : ∀ {a : StoredArg}, (∀ x ∈ a.addresses, read x = other x) →
    a.arg read = a.arg other
  | node x, h => by rw [arg, arg, h x (List.mem_singleton_self x)]
  | seq items, h => by rw [arg, arg, argsOf_congr h]
  | map entries, h => by rw [arg, arg, fieldsOf_congr h]
  | none, _ | value _, _ | type _, _ | shape _, _ | schema _, _ => by simp only [arg]

theorem argsOf_congr :
    ∀ {items : List StoredArg}, (∀ x ∈ addressesOfItems items, read x = other x) →
    argsOf read items = argsOf other items
  | [], _ => rfl
  | a :: rest, h => by
      rw [argsOf, argsOf, arg_congr fun x hx => h x (List.mem_append_left _ hx),
        argsOf_congr fun x hx => h x (List.mem_append_right _ hx)]

theorem fieldsOf_congr :
    ∀ {fields : StoredFields}, (∀ x ∈ addressesOfFields fields, read x = other x) →
    fieldsOf read fields = fieldsOf other fields
  | [], _ => rfl
  | (_, a) :: rest, h => by
      rw [fieldsOf, fieldsOf, arg_congr fun x hx => h x (List.mem_append_left _ hx),
        fieldsOf_congr fun x hx => h x (List.mem_append_right _ hx)]

end

mutual

theorem nodes_arg : ∀ a : StoredArg, (a.arg read).nodes = a.addresses.map read
  | node _ => rfl
  | seq items => by rw [arg, Arg.nodes, nodes_argsOf items]; rfl
  | map entries => by rw [arg, Arg.nodes, nodes_fieldsOf entries]; rfl
  | none | value _ | type _ | shape _ | schema _ => rfl

theorem nodes_argsOf : ∀ items : List StoredArg,
    Arg.nodesOfItems (argsOf read items) = (addressesOfItems items).map read
  | [] => rfl
  | a :: rest => by
      rw [argsOf, Arg.nodesOfItems, nodes_arg a, nodes_argsOf rest, addressesOfItems,
        List.map_append]

theorem nodes_fieldsOf : ∀ fields : StoredFields,
    Arg.nodesOfFields (fieldsOf read fields) = (addressesOfFields fields).map read
  | [] => rfl
  | (_, a) :: rest => by
      rw [fieldsOf, Arg.nodesOfFields, nodes_arg a, nodes_fieldsOf rest, addressesOfFields,
        List.map_append]

end

/-! ### Comparing -/

variable {sameNode : Nat → Nat → Bool}

mutual

theorem same_iff : ∀ {a b : StoredArg},
    (∀ x ∈ a.addresses, ∀ y ∈ b.addresses, sameNode x y = true ↔ read x = read y) →
    (a.same sameNode b = true ↔ a.arg read = b.arg read)
  | node x, b, h => by
      cases b with
      | node y =>
          simpa [same, arg] using h x (List.mem_singleton_self x) y
            (List.mem_singleton_self y)
      | none | value _ | seq _ | map _ | type _ | shape _ | schema _ => simp [same, arg]
  | seq xs, b, h => by
      cases b with
      | seq ys => simpa [same, arg] using sameItems_iff h
      | none | value _ | node _ | map _ | type _ | shape _ | schema _ => simp [same, arg]
  | map fs, b, h => by
      cases b with
      | map gs => simpa [same, arg] using sameFields_iff h
      | none | value _ | node _ | seq _ | type _ | shape _ | schema _ => simp [same, arg]
  | none, b, _ | value _, b, _ | type _, b, _ | shape _, b, _ | schema _, b, _ => by
      cases b <;> simp [same, arg]

theorem sameItems_iff : ∀ {xs ys : List StoredArg},
    (∀ x ∈ addressesOfItems xs, ∀ y ∈ addressesOfItems ys,
      sameNode x y = true ↔ read x = read y) →
    (sameItems sameNode xs ys = true ↔ argsOf read xs = argsOf read ys)
  | [], ys, _ => by cases ys <;> simp [sameItems, argsOf]
  | x :: xs, ys, h => by
      cases ys with
      | nil => simp [sameItems, argsOf]
      | cons y ys =>
          rw [sameItems, argsOf, argsOf, Bool.and_eq_true, List.cons.injEq]
          refine and_congr (same_iff fun s hs t ht => ?_) (sameItems_iff fun s hs t ht => ?_)
          · exact h s (List.mem_append_left _ hs) t (List.mem_append_left _ ht)
          · exact h s (List.mem_append_right _ hs) t (List.mem_append_right _ ht)

theorem sameFields_iff : ∀ {fs gs : StoredFields},
    (∀ x ∈ addressesOfFields fs, ∀ y ∈ addressesOfFields gs,
      sameNode x y = true ↔ read x = read y) →
    (sameFields sameNode fs gs = true ↔ fieldsOf read fs = fieldsOf read gs)
  | [], gs, _ => by cases gs <;> simp [sameFields, fieldsOf]
  | (name, a) :: fs, gs, h => by
      cases gs with
      | nil => simp [sameFields, fieldsOf]
      | cons g gs =>
          obtain ⟨name', b⟩ := g
          rw [sameFields, fieldsOf, fieldsOf, Bool.and_eq_true, Bool.and_eq_true,
            decide_eq_true_eq, List.cons.injEq, Prod.mk.injEq]
          refine and_congr (and_congr_right fun _ => same_iff fun s hs t ht => ?_)
            (sameFields_iff fun s hs t ht => ?_)
          · exact h s (List.mem_append_left _ hs) t (List.mem_append_left _ ht)
          · exact h s (List.mem_append_right _ hs) t (List.mem_append_right _ ht)

end

/-! ### Hashing -/

variable {hash : List Piece → UInt64} {hashAt : Nat → UInt64}

theorem length_argsOf : ∀ items : List StoredArg, (argsOf read items).length = items.length
  | [] => rfl
  | _ :: rest => by rw [argsOf, List.length_cons, List.length_cons, length_argsOf rest]

theorem length_fieldsOf :
    ∀ fields : StoredFields, (fieldsOf read fields).length = fields.length
  | [] => rfl
  | _ :: rest => by rw [fieldsOf, List.length_cons, List.length_cons, length_fieldsOf rest]

mutual

theorem pieces_arg :
    ∀ {a : StoredArg}, (∀ x ∈ a.addresses, hashAt x = (read x).hashBy hash) →
    a.pieces hashAt = (a.arg read).pieces hash
  | node x, h => by
      rw [pieces, arg, Arg.pieces, h x (List.mem_singleton_self x)]
      rfl
  | seq items, h => by
      rw [pieces, arg, Arg.pieces, length_argsOf, piecesOfItems_argsOf h]
      rfl
  | map entries, h => by
      rw [pieces, arg, Arg.pieces, length_fieldsOf, piecesOfFields_fieldsOf h]
      rfl
  | none, _ | value _, _ | type _, _ | shape _, _
  | schema _, _ => by rw [pieces, arg, Arg.pieces]; rfl

theorem piecesOfItems_argsOf : ∀ {items : List StoredArg},
    (∀ x ∈ addressesOfItems items, hashAt x = (read x).hashBy hash) →
    piecesOfItems hashAt items = Arg.piecesOfItems hash (argsOf read items)
  | [], _ => rfl
  | a :: rest, h => by
      rw [piecesOfItems, argsOf, Arg.piecesOfItems,
        pieces_arg fun x hx => h x (List.mem_append_left _ hx),
        piecesOfItems_argsOf fun x hx => h x (List.mem_append_right _ hx)]

theorem piecesOfFields_fieldsOf : ∀ {fields : StoredFields},
    (∀ x ∈ addressesOfFields fields, hashAt x = (read x).hashBy hash) →
    piecesOfFields hashAt fields = Arg.piecesOfFields hash (fieldsOf read fields)
  | [], _ => rfl
  | (_, a) :: rest, h => by
      rw [piecesOfFields, fieldsOf, Arg.piecesOfFields,
        pieces_arg fun x hx => h x (List.mem_append_left _ hx),
        piecesOfFields_fieldsOf fun x hx => h x (List.mem_append_right _ hx)]

end

end

end StoredArg

/-! ## Filling memory -/

namespace Memory

open StoredArg

/-- A memory with nodes that were built one after the other, from nodes that were there.
Which of several equal nodes stands in a field is left open. -/
inductive Filled (hash : List Piece → UInt64) : Memory → Prop
  | empty : Filled hash []
  | push {m : Memory} {kind : NodeKind} {args : List StoredArg}
      {kwargs fields : StoredFields} {attributes : Fields}
      (filled : Filled hash m)
      (args_there : ∀ x ∈ addressesOfItems args, x < m.length)
      (kwargs_there : ∀ x ∈ addressesOfFields kwargs, x < m.length)
      (fields_there : ∀ x ∈ addressesOfFields fields, x < m.length)
      (built : Node.build kind (argsOf m.node args) (fieldsOf m.node kwargs)
        = .ok (.mk kind (fieldsOf m.node fields) attributes)) :
      Filled hash (m.push hash kind fields attributes)

variable {hash : List Piece → UInt64} {m : Memory} {a b : Nat} {s : StoredNode}
    {kind : NodeKind} {fields : StoredFields}
  {attributes : Fields}

theorem stored?_cons_of_lt (h : a < m.length) : stored? (s :: m) a = m.stored? a := by
  rw [stored?, if_neg (Nat.ne_of_lt h)]

theorem node_cons_of_lt (h : a < m.length) : node (s :: m) a = m.node a := by
  rw [node, if_neg (Nat.ne_of_lt h)]

theorem stored?_push : (m.push hash kind fields attributes).stored? m.length = some
    ⟨kind, fields, attributes,
      hash (.form kind.ctorIdx :: .length fields.length
        :: piecesOfFields m.hashAt fields)⟩ := by
  rw [push, stored?, if_pos rfl]

theorem node_push : (m.push hash kind fields attributes).node m.length
    = .mk kind (fieldsOf m.node fields) attributes := by
  rw [push, node, if_pos rfl]

/-- What is known of a node that is stored. -/
structure Holds (hash : List Piece → UInt64) (m : Memory) (a : Nat)
    (s : StoredNode) : Prop where
  stored : m.stored? a = some s
  older : ∀ x ∈ addressesOfFields s.fields, x < a
  node_eq : m.node a = .mk s.kind (fieldsOf m.node s.fields) s.attributes
  hash_eq : s.hash = (m.node a).hashBy hash
  built : (m.node a).Built

/-- New nodes change nothing about the others. -/
theorem Holds.cons {new : StoredNode} (h : Holds hash m a s) (ha : a < m.length) :
    Holds hash (new :: m) a s where
  stored := by rw [stored?_cons_of_lt ha, h.stored]
  older := h.older
  node_eq := by
    rw [node_cons_of_lt ha, h.node_eq]
    exact congrArg (Node.mk s.kind · s.attributes)
      (fieldsOf_congr fun x hx => (node_cons_of_lt (Nat.lt_trans (h.older x hx) ha)).symm)
  hash_eq := by rw [node_cons_of_lt ha, h.hash_eq]
  built := by rw [node_cons_of_lt ha]; exact h.built

theorem Holds.hashAt_eq (h : Holds hash m a s) : m.hashAt a = (m.node a).hashBy hash := by
  rw [hashAt, h.stored]
  exact h.hash_eq

theorem Filled.holds (h : m.Filled hash) (ha : a < m.length) : ∃ s, Holds hash m a s := by
  induction h generalizing a with
  | empty => cases ha
  | @push m kind args kwargs fields attributes filled args_there kwargs_there
    fields_there built ih =>
      rcases Nat.lt_succ_iff_lt_or_eq.1 ha with hlt | rfl
      · obtain ⟨s, hs⟩ := ih hlt
        exact ⟨s, hs.cons hlt⟩
      · have hbuilt : (Node.mk kind (fieldsOf m.node fields) attributes).Built := by
          refine .of_build built (fun n hn => ?_) (fun n hn => ?_)
          · rw [nodes_argsOf] at hn
            obtain ⟨x, hx, rfl⟩ := List.mem_map.1 hn
            obtain ⟨s, hs⟩ := ih (args_there x hx)
            exact hs.built
          · rw [nodes_fieldsOf] at hn
            obtain ⟨x, hx, rfl⟩ := List.mem_map.1 hn
            obtain ⟨s, hs⟩ := ih (kwargs_there x hx)
            exact hs.built
        have hhash : ∀ x ∈ addressesOfFields fields,
            m.hashAt x = (m.node x).hashBy hash := by
          intro x hx
          obtain ⟨s, hs⟩ := ih (fields_there x hx)
          exact hs.hashAt_eq
        refine ⟨_, stored?_push, fields_there, ?_, ?_, ?_⟩
        · rw [node_push]
          exact congrArg (Node.mk kind · attributes)
            (fieldsOf_congr fun x hx => (node_cons_of_lt (fields_there x hx)).symm)
        · rw [node_push, Node.hashBy, length_fieldsOf, piecesOfFields_fieldsOf hhash]
        · rw [node_push]
          exact hbuilt

/-! ## Comparing nodes -/

/-- Two nodes are found equal if they are the same expression. The nodes in their fields
were found equal before the younger of them was made. -/
theorem Filled.same_iff (h : m.Filled hash) (ha : a < m.length) (hb : b < m.length) :
    m.same a b = true ↔ m.node a = m.node b := by
  induction h generalizing a b with
  | empty => cases ha
  | @push m kind args kwargs fields attributes filled args_there kwargs_there
    fields_there built ih =>
      have hfilled := Filled.push filled args_there kwargs_there fields_there built
      obtain ⟨s, hs⟩ := hfilled.holds ha
      obtain ⟨t, ht⟩ := hfilled.holds hb
      have hsame : (m.push hash kind fields attributes).same a b
          = (a == b || (s.hash == t.hash && decide (s.kind = t.kind)
            && sameFields m.same s.fields t.fields)) := by
        have hsstored := hs.stored
        have htstored := ht.stored
        rw [Memory.push] at hsstored htstored ⊢
        rw [same, hsstored, htstored]
      have hfields : sameFields m.same s.fields t.fields = true
          ↔ fieldsOf (m.push hash kind fields attributes).node s.fields
            = fieldsOf (m.push hash kind fields attributes).node t.fields := by
        refine sameFields_iff fun x hx y hy => ?_
        have hxm : x < m.length := Nat.lt_of_lt_of_le (hs.older x hx) (Nat.le_of_lt_succ ha)
        have hym : y < m.length := Nat.lt_of_lt_of_le (ht.older y hy) (Nat.le_of_lt_succ hb)
        rw [Memory.push, node_cons_of_lt hxm, node_cons_of_lt hym]
        exact ih hxm hym
      rw [hsame, Bool.or_eq_true, beq_iff_eq]
      constructor
      · rintro (rfl | h)
        · rfl
        · simp only [Bool.and_eq_true, beq_iff_eq, decide_eq_true_eq] at h
          obtain ⟨⟨-, hkind⟩, hsameFields⟩ := h
          refine hs.built.ext ht.built ?_ ?_
          · rw [hs.node_eq, ht.node_eq]
            exact hkind
          · rw [hs.node_eq, ht.node_eq]
            exact hfields.1 hsameFields
      · intro heq
        have hparts := hs.node_eq.symm.trans (heq.trans ht.node_eq)
        injection hparts with hkind heqFields
        refine .inr ?_
        rw [hfields.2 heqFields, hs.hash_eq, ht.hash_eq, heq, hkind]
        simp

theorem Filled.built (h : m.Filled hash) (ha : a < m.length) : (m.node a).Built := by
  obtain ⟨s, hs⟩ := h.holds ha
  exact hs.built

theorem Filled.hashAt_eq (h : m.Filled hash) (ha : a < m.length) :
    m.hashAt a = (m.node a).hashBy hash := by
  obtain ⟨s, hs⟩ := h.holds ha
  exact hs.hashAt_eq

/-- A table with expressions for its keys, in place of the nodes in memory that they are. -/
def keyed {α : Type} (m : Memory) (table : List (Nat × α)) : List (Node × α) :=
  table.map fun entry => (m.node entry.1, entry.2)

/-- The hash leaves out no key that is equal. -/
theorem Filled.lookup_eq {α : Type} (h : m.Filled hash) (ha : a < m.length)
    {table : List (Nat × α)} (htable : ∀ entry ∈ table, entry.1 < m.length) :
    m.lookup table a = ((m.keyed table).find? (·.1 == m.node a)).map (·.2) := by
  have hkey : ∀ x < m.length, (m.hashAt x == m.hashAt a && m.same x a)
      = (m.node x == m.node a) := by
    intro x hx
    rw [Bool.eq_iff_iff, Bool.and_eq_true, beq_iff_eq, h.same_iff hx ha,
      (h.built hx).beq_iff (h.built ha)]
    exact ⟨And.right, fun heq => ⟨by rw [h.hashAt_eq hx, h.hashAt_eq ha, heq], heq⟩⟩
  rw [lookup]
  induction table with
  | nil => rfl
  | cons entry rest ih =>
      obtain ⟨hentry, hrest⟩ := List.forall_mem_cons.1 htable
      rw [List.find?_cons, keyed, List.map_cons, List.find?_cons, hkey _ hentry]
      cases m.node entry.1 == m.node a with
      | true => rfl
      | false => exact ih hrest

/-! ## Storing nodes -/

/-- Whatever is in memory, the node can be stored besides. -/
def Storable (hash : List Piece → UInt64) (n : Node) : Prop :=
  ∀ m : Memory, m.Filled hash → ∃ more : Memory,
    (more ++ m).Filled hash ∧ ∃ a < (more ++ m).length, (more ++ m).node a = n

theorem node_append_of_lt {more : Memory} (h : a < m.length) :
    (more ++ m).node a = m.node a := by
  induction more with
  | nil => rfl
  | cons s rest ih =>
      rw [List.cons_append, node_cons_of_lt, ih]
      exact Nat.lt_of_lt_of_le h (by rw [List.length_append]; exact Nat.le_add_left _ _)

/-- The nodes are in memory. -/
def Has (m : Memory) (ns : List Node) : Prop := ∀ n ∈ ns, ∃ a < m.length, m.node a = n

theorem Has.append {ns : List Node} (h : m.Has ns) (more : Memory) : (more ++ m).Has ns := by
  intro n hn
  obtain ⟨a, ha, rfl⟩ := h n hn
  exact ⟨a, by rw [List.length_append]; omega, node_append_of_lt ha⟩

theorem exists_has {ns : List Node} (h : ∀ n ∈ ns, Storable hash n) (hm : m.Filled hash) :
    ∃ more : Memory, (more ++ m).Filled hash ∧ (more ++ m).Has ns := by
  induction ns with
  | nil => exact ⟨[], hm, fun n hn => absurd hn List.not_mem_nil⟩
  | cons n rest ih =>
      obtain ⟨hn, hrest⟩ := List.forall_mem_cons.1 h
      obtain ⟨more, hfilled, hhas⟩ := ih hrest
      obtain ⟨new, hfilled, hnew⟩ := hn _ hfilled
      refine ⟨new ++ more, by rwa [List.append_assoc], ?_⟩
      rw [List.append_assoc]
      exact List.forall_mem_cons.2 ⟨hnew, hhas.append new⟩

mutual

theorem exists_arg : ∀ a : Arg, m.Has a.nodes →
    ∃ s : StoredArg, s.arg m.node = a ∧ ∀ x ∈ s.addresses, x < m.length
  | .node n, h => by
      obtain ⟨x, hx, rfl⟩ := h n (by rw [Arg.nodes]; exact List.mem_singleton_self n)
      exact ⟨.node x, by rw [arg], fun y hy => by rw [List.mem_singleton.1 hy]; exact hx⟩
  | .seq items, h => by
      obtain ⟨ss, rfl, hss⟩ := exists_argsOf items (by rwa [Arg.nodes] at h)
      exact ⟨.seq ss, by rw [arg], hss⟩
  | .map entries, h => by
      obtain ⟨ss, rfl, hss⟩ := exists_fieldsOf entries (by rwa [Arg.nodes] at h)
      exact ⟨.map ss, by rw [arg], hss⟩
  | .none, _ => ⟨.none, by rw [arg], nofun⟩
  | .value v, _ => ⟨.value v, by rw [arg], nofun⟩
  | .type t, _ => ⟨.type t, by rw [arg], nofun⟩
  | .shape s, _ => ⟨.shape s, by rw [arg], nofun⟩
  | .schema s, _ => ⟨.schema s, by rw [arg], nofun⟩

theorem exists_argsOf : ∀ items : List Arg, m.Has (Arg.nodesOfItems items) →
    ∃ ss : List StoredArg, argsOf m.node ss = items ∧ ∀ x ∈ addressesOfItems ss, x < m.length
  | [], _ => ⟨[], by rw [argsOf], nofun⟩
  | a :: rest, h => by
      rw [Arg.nodesOfItems] at h
      obtain ⟨s, rfl, hs⟩ := exists_arg a fun n hn => h n (List.mem_append_left _ hn)
      obtain ⟨ss, rfl, hss⟩ :=
        exists_argsOf rest fun n hn => h n (List.mem_append_right _ hn)
      refine ⟨s :: ss, by rw [argsOf], fun x hx => ?_⟩
      rcases List.mem_append.1 hx with hx | hx
      · exact hs x hx
      · exact hss x hx

theorem exists_fieldsOf : ∀ fields : Fields, m.Has (Arg.nodesOfFields fields) →
    ∃ ss : StoredFields, fieldsOf m.node ss = fields
      ∧ ∀ x ∈ addressesOfFields ss, x < m.length
  | [], _ => ⟨[], by rw [fieldsOf], nofun⟩
  | (name, a) :: rest, h => by
      rw [Arg.nodesOfFields] at h
      obtain ⟨s, rfl, hs⟩ := exists_arg a fun n hn => h n (List.mem_append_left _ hn)
      obtain ⟨ss, rfl, hss⟩ :=
        exists_fieldsOf rest fun n hn => h n (List.mem_append_right _ hn)
      refine ⟨(name, s) :: ss, by rw [fieldsOf], fun x hx => ?_⟩
      rcases List.mem_append.1 hx with hx | hx
      · exact hs x hx
      · exact hss x hx

end

/-- A node can be stored if what it is built from and what it holds can. -/
theorem storable_of_build {args : List Arg} {kwargs : Fields} {n : Node}
    (h : Node.build kind args kwargs = .ok n)
    (hargs : ∀ x ∈ args, x.AllNodes (Storable hash))
    (hkwargs : ∀ kw ∈ kwargs, kw.2.AllNodes (Storable hash))
    (hchildren : ∀ k ∈ n.children, Storable hash k) : Storable hash n := by
  intro m hm
  have hall : ∀ k ∈ Arg.nodesOfItems args ++ (Arg.nodesOfFields kwargs ++ n.children),
      Storable hash k := by
    intro k hk
    rcases List.mem_append.1 hk with hk | hk
    · obtain ⟨x, hx, hk⟩ := Arg.mem_nodesOfItems.1 hk
      exact hargs x hx k hk
    · rcases List.mem_append.1 hk with hk | hk
      · obtain ⟨kw, hkw, hk⟩ := Arg.mem_nodesOfFields.1 hk
        exact hkwargs kw hkw k hk
      · exact hchildren k hk
  obtain ⟨more, hfilled, hhas⟩ := exists_has hall hm
  obtain ⟨ss, rfl, hss⟩ := exists_argsOf args fun k hk => hhas k (List.mem_append_left _ hk)
  obtain ⟨ts, rfl, hts⟩ := exists_fieldsOf kwargs fun k hk =>
    hhas k (List.mem_append_right _ (List.mem_append_left _ hk))
  obtain ⟨us, hus, husThere⟩ := exists_fieldsOf n.fields fun k hk =>
    hhas k (List.mem_append_right _ (List.mem_append_right _ hk))
  have hn : n = .mk kind (fieldsOf (more ++ m).node us) n.attributes := by
    rw [hus, ← Node.kind_of_build h]
    cases n
    rfl
  rw [hn] at h
  exact ⟨_ :: more, Filled.push hfilled hss hts husThere h, (more ++ m).length,
      Nat.lt_succ_self _, by
    rw [hn]
    exact node_push⟩

theorem storable_literal (v : Value) : Storable hash (.literal v) := by
  refine storable_of_build (Node.build_literal_value v) ?_ nofun nofun
  simp [Arg.AllNodes, Arg.nodes]

theorem storable_sortKey {k : Node} (hvalue : k.kind.isValue = true) (hk : Storable hash k) :
    Storable hash (.sortKey (.node k) true) := by
  refine storable_of_build (Node.build_sortKey_ascending hvalue) ?_ nofun ?_
  · simpa [Arg.AllNodes, Arg.nodes, Arg.bool] using hk
  · simpa [Node.children, Node.fields, Node.sortKey, Fields.nodes, Arg.nodesOfFields,
      Arg.nodes, Arg.bool] using hk

/-- Building makes no nodes of its own but constants and keys to sort by. -/
theorem storable_of_built {n : Node} (h : n.Built) : Storable hash n := by
  induction h with
  | build args_built kwargs_built built ih_args ih_kwargs =>
      exact storable_of_build built ih_args ih_kwargs
        (Node.forall_children_of_build storable_literal
        (fun _ hvalue hk => storable_sortKey hvalue hk) ih_args ih_kwargs built)

/-- Any two nodes can be in one memory. -/
theorem exists_filled {n n' : Node} (hn : n.Built) (hn' : n'.Built) :
    ∃ m : Memory, m.Filled hash ∧ ∃ a < m.length, ∃ b < m.length,
      m.node a = n ∧ m.node b = n' := by
  have hboth : ∀ k ∈ [n, n'], Storable hash k := by
    simpa using ⟨storable_of_built hn, storable_of_built hn'⟩
  obtain ⟨more, hfilled, hhas⟩ := exists_has hboth .empty
  obtain ⟨a, ha, hna⟩ := hhas n (by simp)
  obtain ⟨b, hb, hnb⟩ := hhas n' (by simp)
  exact ⟨_, hfilled, a, ha, b, hb, hna, hnb⟩

end Memory

/-! ## Deep equality -/

mutual

/-- The same value. Numbers with a fraction are the same if they have the same bits. -/
inductive Value.DeepEq : Value → Value → Prop
  | null : DeepEq .null .null
  | bool (b : Bool) : DeepEq (.bool b) (.bool b)
  | int64 (n : Int64) : DeepEq (.int64 n) (.int64 n)
  | float64 {x y : Double} (bits : x.bits = y.bits) : DeepEq (.float64 x) (.float64 y)
  | string (s : String) : DeepEq (.string s) (.string s)
  | binary (bytes : List UInt8) : DeepEq (.binary bytes) (.binary bytes)
  | date (days : Int32) : DeepEq (.date days) (.date days)
  | timestamp (ticks : Int64) (unit : TimeUnit) :
    DeepEq (.timestamp ticks unit) (.timestamp ticks unit)
  | interval (steps : Int64) (unit : IntervalUnit) :
    DeepEq (.interval steps unit) (.interval steps unit)
  | array {vs ws : List Value} (items : Value.DeepEqItems vs ws) :
    DeepEq (.array vs) (.array ws)

inductive Value.DeepEqItems : List Value → List Value → Prop
  | nil : DeepEqItems [] []
  | cons {v w : Value} {vs ws : List Value} (head : v.DeepEq w)
    (tail : Value.DeepEqItems vs ws) :
      DeepEqItems (v :: vs) (w :: ws)

end

mutual

/-- The same kind, and fields of the same names in the same order that hold the same,
however deep. The attributes may differ. -/
inductive Node.DeepEq : Node → Node → Prop
  | mk {kind : NodeKind} {fs gs as bs : Fields} (fields : Arg.DeepEqFields fs gs) :
      Node.DeepEq (.mk kind fs as) (.mk kind gs bs)

inductive Arg.DeepEq : Arg → Arg → Prop
  | none : Arg.DeepEq .none .none
  | value {v w : Value} (value : v.DeepEq w) : Arg.DeepEq (.value v) (.value w)
  | node {n m : Node} (node : n.DeepEq m) : Arg.DeepEq (.node n) (.node m)
  | seq {xs ys : List Arg} (items : Arg.DeepEqItems xs ys) : Arg.DeepEq (.seq xs) (.seq ys)
  | map {fs gs : Fields} (entries : Arg.DeepEqFields fs gs) : Arg.DeepEq (.map fs) (.map gs)
  | type (t : DataType) : Arg.DeepEq (.type t) (.type t)
  | shape (s : Shape) : Arg.DeepEq (.shape s) (.shape s)
  | schema (s : Schema) : Arg.DeepEq (.schema s) (.schema s)

inductive Arg.DeepEqItems : List Arg → List Arg → Prop
  | nil : Arg.DeepEqItems [] []
  | cons {x y : Arg} {xs ys : List Arg} (head : x.DeepEq y) (tail : Arg.DeepEqItems xs ys) :
      Arg.DeepEqItems (x :: xs) (y :: ys)

inductive Arg.DeepEqFields : Fields → Fields → Prop
  | nil : Arg.DeepEqFields [] []
  | cons {name : String} {x y : Arg} {fs gs : Fields} (head : x.DeepEq y)
    (tail : Arg.DeepEqFields fs gs) :
      Arg.DeepEqFields ((name, x) :: fs) ((name, y) :: gs)

end

/-! ### Values -/

namespace Value

mutual

theorem DeepEq.eq : ∀ {v w : Value}, v.DeepEq w → v = w
  | _, _, .null | _, _, .bool _ | _, _, .int64 _ | _, _, .string _ | _, _, .binary _
  | _, _, .date _ | _, _, .timestamp _ _ | _, _, .interval _ _ => rfl
  | _, _, @DeepEq.float64 ⟨_⟩ ⟨_⟩ rfl => rfl
  | _, _, .array items => by rw [DeepEqItems.eq items]

theorem DeepEqItems.eq : ∀ {vs ws : List Value}, DeepEqItems vs ws → vs = ws
  | _, _, .nil => rfl
  | _, _, .cons head tail => by rw [DeepEq.eq head, DeepEqItems.eq tail]

end

mutual

theorem deepEq_self : ∀ v : Value, v.DeepEq v
  | null => .null
  | bool b => .bool b
  | int64 n => .int64 n
  | float64 _ => .float64 rfl
  | string s => .string s
  | binary bytes => .binary bytes
  | date days => .date days
  | timestamp ticks unit => .timestamp ticks unit
  | interval steps unit => .interval steps unit
  | array items => .array (deepEqItems_self items)

theorem deepEqItems_self : ∀ vs : List Value, DeepEqItems vs vs
  | [] => .nil
  | v :: rest => .cons (deepEq_self v) (deepEqItems_self rest)

end

/-- Two that are no number differ if their bits do. -/
example : ¬ (float64 ⟨0x7ff8000000000000⟩).DeepEq (.float64 ⟨0xfff8000000000000⟩) :=
  fun h => absurd h.eq (by decide)

end Value

/-! ### Nodes -/

mutual

theorem Node.DeepEq.beq : ∀ {n m : Node}, n.DeepEq m → n.beq m = true
  | _, _, .mk fields => by
      rw [Node.beq, Arg.DeepEqFields.beq fields]
      simp

theorem Arg.DeepEq.beq : ∀ {a b : Arg}, a.DeepEq b → a.beq b = true
  | _, _, .none => by rw [Arg.beq]
  | _, _, .value value => by
      rw [Arg.beq, value.eq]
      simp
  | _, _, .node node => by rw [Arg.beq, Node.DeepEq.beq node]
  | _, _, .seq items => by rw [Arg.beq, Arg.DeepEqItems.beq items]
  | _, _, .map entries => by rw [Arg.beq, Arg.DeepEqFields.beq entries]
  | _, _, .type _ | _, _, .shape _ | _, _, .schema _ => by simp [Arg.beq]

theorem Arg.DeepEqItems.beq : ∀ {xs ys : List Arg}, Arg.DeepEqItems xs ys →
    Arg.beqItems xs ys = true
  | _, _, .nil => by rw [Arg.beqItems]
  | _, _, .cons head tail => by
      rw [Arg.beqItems, Arg.DeepEq.beq head, Arg.DeepEqItems.beq tail]
      rfl

theorem Arg.DeepEqFields.beq : ∀ {fs gs : Fields}, Arg.DeepEqFields fs gs →
    Arg.beqFields fs gs = true
  | _, _, .nil => by rw [Arg.beqFields]
  | _, _, .cons head tail => by
      rw [Arg.beqFields, Arg.DeepEq.beq head, Arg.DeepEqFields.beq tail]
      simp

end

mutual

theorem Node.deepEq_self : ∀ n : Node, n.DeepEq n
  | .mk _ fields _ => .mk (Arg.deepEqFields_self fields)

theorem Arg.deepEq_self : ∀ a : Arg, a.DeepEq a
  | .none => .none
  | .value v => .value v.deepEq_self
  | .node n => .node n.deepEq_self
  | .seq items => .seq (Arg.deepEqItems_self items)
  | .map entries => .map (Arg.deepEqFields_self entries)
  | .type t => .type t
  | .shape s => .shape s
  | .schema s => .schema s

theorem Arg.deepEqItems_self : ∀ items : List Arg, Arg.DeepEqItems items items
  | [] => .nil
  | a :: rest => .cons a.deepEq_self (Arg.deepEqItems_self rest)

theorem Arg.deepEqFields_self :
    ∀ fields : List (String × Arg), Arg.DeepEqFields fields fields
  | [] => .nil
  | (_, a) :: rest => .cons a.deepEq_self (Arg.deepEqFields_self rest)

end

/-- Nodes that were built and are equal all the way down are the same expression. -/
theorem Node.Built.deepEq_iff {n m : Node} (hn : n.Built) (hm : m.Built) :
    n.DeepEq m ↔ n = m :=
  ⟨fun h => hn.eq_of_beq hm h.beq, fun h => h ▸ n.deepEq_self⟩

/-! ## Equal nodes -/

namespace Memory

variable {hash : List Piece → UInt64} {m : Memory} {a b : Nat}

/-- Nothing tells one node from the other, and tables keyed by nodes give the same for
both, and with either as a key. -/
structure Interchangeable (m : Memory) (a b : Nat) : Prop where
  hash_eq : m.hashAt a = m.hashAt b
  attributes_eq : (m.node a).attributes = (m.node b).attributes
  name_eq : (m.node a).name = (m.node b).name
  lookup_eq {α : Type} (table : List (Nat × α))
    (keys : ∀ entry ∈ table, entry.1 < m.length) :
    m.lookup table a = m.lookup table b
  key_eq {α : Type} (table : List (Nat × α)) (kept : α) {x : Nat} (there : x < m.length) :
    m.lookup ((a, kept) :: table) x = m.lookup ((b, kept) :: table) x

theorem Filled.interchangeable (h : m.Filled hash) (ha : a < m.length) (hb : b < m.length)
    (hsame : m.same a b = true) :
    m.Interchangeable a b := by
  have heq := (h.same_iff ha hb).1 hsame
  have hhash : m.hashAt a = m.hashAt b := by rw [h.hashAt_eq ha, h.hashAt_eq hb, heq]
  refine ⟨hhash, by rw [heq], by rw [heq], fun table htable => ?_, fun table kept x hx => ?_⟩
  · rw [h.lookup_eq ha htable, h.lookup_eq hb htable, heq]
  · have hkey : m.same a x = m.same b x := by
      rw [Bool.eq_iff_iff, h.same_iff ha hx, h.same_iff hb hx, heq]
    simp only [lookup, List.find?_cons, hhash, hkey]
    split <;> rfl

end Memory

/-- Whatever computes the hashes, comparing nodes in memory finds equal those that
are equal all the way down, shared or not, and nothing tells these apart. What is
kept for a node, be it the output of a walk or how a table is reached, is found by
every node that is equal to it. -/
theorem Memory.comparison_is_deep (hash : List Piece → UInt64) :
    (∀ n n' : Node, n.Built → n'.Built →
      ∃ m : Memory, m.Filled hash ∧ ∃ a < m.length, ∃ b < m.length,
        m.node a = n ∧ m.node b = n')
    ∧ ∀ m : Memory, m.Filled hash → ∀ a < m.length, ∀ b < m.length,
      (m.same a b = true ↔ (m.node a).DeepEq (m.node b))
      ∧ m.same a b = (m.node a == m.node b)
      ∧ m.hashAt a = (m.node a).hashBy hash
      ∧ (m.same a b = true → m.Interchangeable a b)
      ∧ (∀ {σ ω : Type} (target : σ) (memo : List (Nat × ω)),
        (∀ entry ∈ memo, entry.1 < m.length) →
        (Emission.known? (m.node a)).run ⟨target, some (m.keyed memo)⟩
          = (.ok (m.lookup memo a), ⟨target, some (m.keyed memo)⟩))
      ∧ ∀ scope : List (Nat × Sql.Reach), (∀ entry ∈ scope, entry.1 < m.length) →
        Sql.Scope.reach? (m.keyed scope) (m.node a) = m.lookup scope a := by
  refine ⟨fun n n' hn hn' => exists_filled hn hn', fun m h a ha b hb =>
    ⟨?_, ?_, h.hashAt_eq ha, h.interchangeable ha hb, fun target memo hmemo => ?_,
      fun scope hscope => ?_⟩⟩
  · rw [h.same_iff ha hb, (h.built ha).deepEq_iff (h.built hb)]
  · rw [Bool.eq_iff_iff, h.same_iff ha hb, (h.built ha).beq_iff (h.built hb)]
  · rw [Emission.run_known?, h.lookup_eq ha hmemo]
    rfl
  · rw [h.lookup_eq ha hscope]
    rfl

/-- Twice a `1`, and the opposite of each. All hashes collide. -/
def Memory.opposites : Memory :=
  let attributes : Fields := [("shape", .shape .scalar), ("dtype", .type .int64)]
  let one (m : Memory) :=
    m.push (fun _ => 0) .literal
      [("value", .value (.int64 1)), ("dtype", .type .int64)] attributes
  let opposite (m : Memory) (of : Nat) :=
    m.push (fun _ => 0) .negate [("arg", .node of)] attributes
  opposite (opposite (one (one [])) 0) 1

theorem Memory.opposites_filled : opposites.Filled fun _ => 0 := by
  have hone {m : Memory} (h : m.Filled fun _ => 0) :=
    @Filled.push _ m .literal [.value (.int64 1)] []
      [("value", .value (.int64 1)), ("dtype", .type .int64)]
      (Node.literal (.int64 1)).attributes h nofun nofun nofun (Node.build_literal_value _)
  have hopposite {m : Memory} {a : Nat} (h : m.Filled fun _ => 0) (ha : a < m.length)
      (hone : m.node a = .literal (.int64 1)) :
        (m.push (fun _ => 0) .negate [("arg", .node a)]
        [("shape", .shape .scalar), ("dtype", .type .int64)]).Filled fun _ => 0 := by
    refine @Filled.push _ m .negate [.node a] [] [("arg", .node a)] _ h ?_ nofun ?_ ?_
    · simpa [StoredArg.addressesOfItems, StoredArg.addresses] using ha
    · simpa [StoredArg.addressesOfFields, StoredArg.addresses] using ha
    · simp only [StoredArg.argsOf, StoredArg.arg, StoredArg.fieldsOf, hone]
      rfl
  exact hopposite (hopposite (hone (hone .empty)) (by decide) rfl) (by decide) rfl

theorem Memory.comparison_is_deep_opposites :
    (opposites.same 2 3 = true ∧ (opposites.node 2).DeepEq (opposites.node 3)
      ∧ opposites.Interchangeable 2 3)
    ∧ (opposites.same 0 2 = false ∧ ¬ (opposites.node 0).DeepEq (opposites.node 2))
    ∧ ∃ m : Memory, m.Filled (fun _ => 0) ∧ ∃ a < m.length, ∃ b < m.length,
      m.node a = .literal (.int64 1) ∧ m.node b = .literal (.string "1") := by
  obtain ⟨hboth, h⟩ := comparison_is_deep fun _ => 0
  obtain ⟨hequal, -, -, hsame, -⟩ := h _ opposites_filled 2 (by decide) 3 (by decide)
  obtain ⟨hother, -⟩ := h _ opposites_filled 0 (by decide) 2 (by decide)
  have htrue : opposites.same 2 3 = true := by decide
  have hfalse : opposites.same 0 2 = false := by decide
  refine ⟨⟨htrue, hequal.1 htrue, hsame htrue⟩, ⟨hfalse, fun hdeep => ?_⟩,
    hboth _ _ (.literal _) (.literal _)⟩
  rw [hother.2 hdeep] at hfalse
  cases hfalse

end TypedQuery
