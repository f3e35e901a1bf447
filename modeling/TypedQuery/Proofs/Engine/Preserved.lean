import TypedQuery.Proofs.Engine.Names
import TypedQuery.Proofs.Plan.Preserved

/-!
# What executed tables have in common

The only rows that a plan brings along are those that an in-memory table was given. So what
given rows have and every step of a plan preserves, executed tables have, given that the
tables of the catalog have it: that they are typed, for one.
-/

namespace TypedQuery.Engine

variable {n : Node} {config : Config} {clock : Clock} {catalog : Catalog} {p : Plan}
    {P : Batch → Prop}

theorem brings_filtered {input : Plan} (h : input.Brings P) (predicates : List Expr) :
    (filtered input predicates).Brings P := by
  unfold filtered
  split <;> exact h

theorem brings_sortedBy {input : Plan} (h : input.Brings P) (predicates : List Expr)
    (keys : List (Expr × Bool)) :
    (sortedBy (filtered input predicates) keys).Brings P := by
  unfold sortedBy
  split <;> exact brings_filtered h predicates

theorem brings_filledBy {input : Plan} (h : input.Brings P)
    (filled : List (ColumnInfo × Value)) :
    (filledBy input filled).Brings P := by
  unfold filledBy
  split <;> exact h

/-- A plan brings along the rows of the table itself, if it was given any, and
those of the tables below. -/
theorem Planned.brings (h : Planned clock n p)
    (hP : ∀ s rows, Yields P (Batch.ofRows s rows))
    (hbelow : ∀ field q, PlanIn clock n field q → q.Brings P) : p.Brings P := by
  cases h with
  | stored => trivial
  | given _ _ _ hbatch _ => exact hP _ _ _ hbatch
  | whole _ hinput | selection _ hinput => exact brings_sortedBy (hbelow _ _ hinput) _ _
  | aggregation _ hinput => exact brings_filtered (hbelow _ _ hinput) _
  | limit _ _ _ hinput | distinct _ hinput | dropNulls _ _ hinput | undropped _ _ hinput =>
      exact (hbelow _ _ hinput :)
  | fillNulls hk hm _ _ _ hinput =>
      exact brings_filledBy (hbelow "table" _ ⟨by rw [hk]; rfl, _, hm, hinput⟩) _
  | join _ hl hr _ => exact ⟨hbelow _ _ hl, hbelow _ _ hr⟩
  | rightJoin hk hleft _ hright _ hl hr _ =>
      exact ⟨hbelow "right" _ ⟨by rw [hk]; rfl, _, hright, hr⟩,
        hbelow "left" _ ⟨by rw [hk]; rfl, _, hleft, hl⟩⟩

/-- Whatever a table is made of, its plan brings along given rows only. -/
theorem brings_planOf (hP : ∀ s rows, Yields P (Batch.ofRows s rows)) (h : n.Built)
    (htable : n.kind.isTable = true) (hp : planOf clock n = .ok p) : p.Brings P := by
  induction hdepth : n.depth using Nat.strongRecOn generalizing n p with
  | ind depth ih =>
      subst hdepth
      refine (planned h hp htable).brings hP fun field q hq => ?_
      obtain ⟨hv, m, hm, hq⟩ := hq
      have hmem := h.mem_children_of_child hm
      exact ih m.depth (Node.depth_of_mem_children hmem) (h.of_mem_children hmem)
        (h.isTable_of_child hv hm) hq rfl

theorem preserved_execute (hP : Batch.Preserved P) (h : n.Built)
    (htable : n.kind.isTable = true) (hcatalog : ∀ t ∈ catalog.tables, P t.2) :
    Yields P (execute config clock n catalog) := by
  intro b hb
  obtain ⟨p, hp, hb⟩ := (execute_eq_ok h).1 hb
  exact p.yields_execute hP hcatalog (brings_planOf hP.ofRows h htable hp) b hb

theorem typed_execute (h : n.Built) (htable : n.kind.isTable = true)
    (hcatalog : catalog.Typed) {b : Batch}
    (hb : execute config clock n catalog = .ok b) : b.Typed :=
  preserved_execute Batch.preserved_typed h htable hcatalog b hb

end TypedQuery.Engine
