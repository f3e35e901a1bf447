import TypedQuery.Proofs.Sql.Written

/-!
# Tables within reach

A lookup in the scope of a query finds a table exactly if the table stands in the
`FROM` clause, or in that of a subquery there and not behind an aggregation.
`Query.reachAs` says what is found through an item, and the scope of a query puts
together what is found through its items.
-/

namespace TypedQuery

/-! ## Tables in FROM clauses -/

/-- The fields with the tables of the `FROM` clause. -/
def NodeKind.sources : NodeKind → List String
  | .selection | .aggregation | .limit | .distinct | .dropNa | .fillNa => ["table"]
  | .innerJoin | .leftJoin | .rightJoin | .outerJoin | .leftSemiJoin | .leftAntiJoin =>
    ["left", "right"]
  | _ => []

/-- The table stands in the `FROM` clause, or is reached in that of a table there which
is not an aggregation. -/
inductive Node.Reaches : Node → Node → Prop where
  | item {n table : Node} {field : String} (hfield : field ∈ n.kind.sources)
    (htable : n.child field = .ok table) :
    Reaches n table
  | within {n m table : Node} {field : String} (hfield : field ∈ n.kind.sources)
    (hm : n.child field = .ok m)
    (hkind : m.kind ≠ .aggregation) (htable : m.Reaches table) : Reaches n table

theorem Node.not_reaches {n table : Node} (hkind : n.kind.sources = []) :
    ¬ n.Reaches table := by
  rintro (⟨hfield, -⟩ | ⟨hfield, -⟩) <;> rw [hkind] at hfield <;> cases hfield

namespace Node.Reaches

variable {n m table left right : Node}

/-- In the `FROM` clause a table is reached as an item or within. -/
theorem iff : n.Reaches table ↔ ∃ field ∈ n.kind.sources, ∃ m,
    n.child field = .ok m ∧ (table = m ∨ m.kind ≠ .aggregation ∧ m.Reaches table) := by
  constructor
  · rintro (⟨hfield, htable⟩ | ⟨hfield, hm, hkind, htable⟩)
    · exact ⟨_, hfield, _, htable, Or.inl rfl⟩
    · exact ⟨_, hfield, _, hm, Or.inr ⟨hkind, htable⟩⟩
  · rintro ⟨field, hfield, m, hm, rfl | ⟨hkind, htable⟩⟩
    · exact .item hfield hm
    · exact .within hfield hm hkind htable

theorem iff_of_one (hkind : n.kind.sources = ["table"]) (hm : n.child "table" = .ok m) :
    n.Reaches table ↔ table = m ∨ m.kind ≠ .aggregation ∧ m.Reaches table := by
  rw [Node.Reaches.iff]
  simp [hkind, hm]

theorem iff_of_two (hkind : n.kind.sources = ["left", "right"])
    (hleft : n.child "left" = .ok left) (hright : n.child "right" = .ok right) :
    n.Reaches table ↔ (table = left ∨ left.kind ≠ .aggregation ∧ left.Reaches table)
      ∨ (table = right ∨ right.kind ≠ .aggregation ∧ right.Reaches table) := by
  rw [Node.Reaches.iff]
  simp [hkind, hleft, hright]

/-- What is reached builds and is less deep. -/
theorem built_of (h : n.Reaches table) (hn : n.Built) :
    table.Built ∧ table.depth < n.depth := by
  induction h with
  | item _ htable =>
      have hmem := hn.mem_children_of_child htable
      exact ⟨hn.of_mem_children hmem, Node.depth_of_mem_children hmem⟩
  | within _ hm _ _ ih =>
      have hmem := hn.mem_children_of_child hm
      obtain ⟨hbuilt, hless⟩ := ih (hn.of_mem_children hmem)
      exact ⟨hbuilt, Nat.lt_trans hless (Node.depth_of_mem_children hmem)⟩

theorem ne (h : n.Reaches table) (hn : n.Built) : table ≠ n := by
  rintro rfl
  exact Nat.lt_irrefl _ (h.built_of hn).2

end Node.Reaches

namespace Sql

/-! ## Scopes of queries -/

namespace Query

variable {q source left right : Query} {table n : Node}
    {label leftLabel rightLabel keyword : String}
  {clauses : Clauses} {predicates : List Fragment} {changes : Renames} {renames : Bool}

/-- What is found of a table through the query, as an item with the label. -/
def reachAs (q : Query) (label : String) (table : Node) : Option Reach :=
  if q.table == table then some (.through label true [])
    else (q.inside.reach? table).map (Reach.exported label)

/-- An item next to others. -/
theorem reach?_withItem (scope : Scope) (q : Query) (label : String) (table : Node) :
    (scope.withItem label q.table q.inside).reach? table
      = if q.table == table then some (.through label true [])
        else match q.inside.reach? table with
          | none => scope.reach? table
          | some reach => some (Reach.beside label (scope.reach? table) reach) :=
  Scope.reach?_withItem scope label q.table (distinct_inside q.distinct_scope) table

/-- Of a table that was not in scope before, an item makes what it has. -/
theorem reach?_withItem_of_none {scope : Scope} (h : scope.reach? table = none) :
    (scope.withItem label q.table q.inside).reach? table = q.reachAs label table := by
  rw [reach?_withItem, reachAs, h]
  cases q.inside.reach? table <;> rfl

theorem reach?_only_item : Scope.reach? (Scope.withItem [] label q.table q.inside) table
    = q.reachAs label table :=
  reach?_withItem_of_none rfl

theorem reach?_single :
    (single n clauses label source renames).scope.reach? table
      = (source.reachAs label table).map fun reach => if renames then reach.forgetRenames
        else reach := by
  rw [← reach?_only_item]
  cases renames
  · exact Option.map_id'.symm
  · exact Scope.reach?_map _ Reach.forgetRenames table

theorem reach?_joined :
    (joined n clauses keyword predicates leftLabel left rightLabel
      right changes).scope.reach? table
      = (if right.table == table then some (.through rightLabel true [])
        else match right.inside.reach? table with
          | none => left.reachAs leftLabel table
          | some reach =>
            some (Reach.beside rightLabel (left.reachAs leftLabel table) reach)).map
        (Reach.rename rightLabel changes) := by
  rw [← reach?_only_item, ← reach?_withItem]
  exact Scope.reach?_map _ (Reach.rename rightLabel changes) table

theorem reachAs_ne_none_iff (hq : q.table.Built) (htable : table.Built) :
    q.reachAs label table ≠ none ↔ table = q.table ∨ q.inside.reach? table ≠ none := by
  unfold reachAs
  split
  · next heq => simp [hq.eq_of_beq htable heq]
  · next hne =>
      have hne : table ≠ q.table := fun h => hne (h ▸ BEq.rfl)
      simp [hne]

theorem reach?_of_inside {reach : Reach} (h : q.inside.reach? table = some reach) :
    q.scope.reach? table = some reach := by
  unfold inside exported at h
  split at h
  · cases h
  · exact h

theorem reach?_of_reachAs (h : q.reachAs label table = some .ambiguous) :
    q.scope.reach? table = some .ambiguous := by
  unfold reachAs at h
  split at h
  · cases h
  · obtain ⟨reach, hreach, hexported⟩ := Option.map_eq_some_iff.1 h
    cases reach <;> cases hexported
    exact reach?_of_inside hreach

theorem inside_ne_none_iff (h : q.scope.reach? table ≠ none ↔ q.table.Reaches table) :
    q.inside.reach? table ≠ none ↔ q.table.kind ≠ .aggregation ∧ q.table.Reaches table := by
  unfold inside exported
  split
  · next hkind => simp [hkind, Scope.reach?]
  · next hkind => simp [hkind, h]

theorem reach?_single_ne_none_iff (hn : n.Built) (hkind : n.kind.sources = ["table"])
    (hchild : n.child "table" = .ok source.table) (htable : table.Built)
    (hsource : source.scope.reach? table ≠ none ↔ source.table.Reaches table) :
    (single n clauses label source renames).scope.reach? table ≠ none ↔ n.Reaches table := by
  rw [reach?_single, ne_eq, Option.map_eq_none_iff, ← ne_eq,
    reachAs_ne_none_iff (hn.of_child hchild) htable, inside_ne_none_iff hsource,
    Node.Reaches.iff_of_one hkind hchild]

theorem reach?_joined_ne_none_iff (hn : n.Built) (hkind : n.kind.sources = ["left", "right"])
    (hleft : n.child "left" = .ok left.table) (hright : n.child "right" = .ok right.table)
    (htable : table.Built)
    (hleftReach : left.scope.reach? table ≠ none ↔ left.table.Reaches table)
    (hrightReach : right.scope.reach? table ≠ none ↔ right.table.Reaches table) :
    (joined n clauses keyword predicates leftLabel left rightLabel
      right changes).scope.reach? table ≠ none
      ↔ n.Reaches table := by
  have htr := hn.of_child hright
  have hitem : left.reachAs leftLabel table ≠ none ↔ _ :=
    reachAs_ne_none_iff (hn.of_child hleft) htable
  rw [reach?_joined, ne_eq, Option.map_eq_none_iff,
    Node.Reaches.iff_of_two hkind hleft hright, ← inside_ne_none_iff hleftReach,
    ← inside_ne_none_iff hrightReach, ← hitem]
  split
  · next heq => simp [htr.eq_of_beq htable heq]
  · next hne =>
      have hne : table ≠ right.table := fun h => hne (h ▸ BEq.rfl)
      cases right.inside.reach? table <;> simp [hne]

/-- Of all tables, those are found that the `FROM` clause reaches. -/
theorem Written.reach?_ne_none_iff (h : q.Written) (hq : q.table.Built)
    (htable : table.Built) :
    q.scope.reach? table ≠ none ↔ q.table.Reaches table := by
  induction h with
  | stored hkind =>
      exact iff_of_false (fun h => h rfl)
        (Node.not_reaches (congrArg NodeKind.sources hkind))
  | rows hkind =>
      exact iff_of_false (fun h => h rfl)
        (Node.not_reaches (congrArg NodeKind.sources hkind))
  | whole hkind hchild _ _ _ ih =>
      have hsources : ∀ kind ∈ [NodeKind.selection, .limit, .distinct, .dropNa],
        kind.sources = ["table"] := by decide
      exact reach?_single_ne_none_iff hq (hsources _ hkind) hchild htable
        (ih (hq.of_child hchild))
  | filled hkind hchild _ _ _ _ ih =>
      exact reach?_single_ne_none_iff hq (by rw [hkind]; rfl) hchild htable
        (ih (hq.of_child hchild))
  | named hkind hchild _ _ ih =>
      refine reach?_single_ne_none_iff hq ?_ hchild htable (ih (hq.of_child hchild))
      rcases hkind with ⟨hk, -⟩ | ⟨hk, -⟩ <;> rw [hk] <;> rfl
  | joined hkind _ hleft hright _ _ _ _ _ _ _ _ ihLeft ihRight =>
      refine reach?_joined_ne_none_iff hq ?_ hleft hright htable (ihLeft (hq.of_child hleft))
        (ihRight (hq.of_child hright))
      rcases NodeKind.mem_wideJoins.1 hkind with hk | hk | hk | hk <;> rw [hk] <;> rfl
  | semi hkind _ hleft hright _ _ _ _ _ ihLeft ihRight =>
      refine reach?_joined_ne_none_iff hq ?_ hleft hright htable (ihLeft (hq.of_child hleft))
        (ihRight (hq.of_child hright))
      rcases hkind with hk | hk <;> rw [hk] <;> rfl

end Query

/-- A table that was not in scope before is found as it is found through the item. -/
theorem Brings.reach?_of_none {s t : Statement} {n table : Node}
    {item : String × String} {q : Query} (h : Brings s n item t q)
    (hnew : s.scope.reach? table = none) :
    t.scope.reach? table = q.reachAs item.2 table := by
  rw [h.after, ← h.table]
  exact Query.reach?_withItem_of_none hnew

end Sql

end TypedQuery
