import TypedQuery.Proofs.Engine.Rowless
import TypedQuery.Proofs.Engine.TableTypes
import TypedQuery.Proofs.Node.Calls

/-!
# Declared and executed types

A selection or an aggregation is executed to the columns of its schema. They have the types
of the schema as well if and only if the items agree with the table that they are computed
from (`Node.itemAgrees`), as long as everything agrees that the items and the table are
made of. Values of most kinds always agree. Operators on bits do only if they are declared
with 64 bits, and replacements of nulls only if the first operand has the type of all.
-/

namespace TypedQuery

namespace Node

variable {s : Schema} {m n : Node} {t u v : DataType}

/-! ## Which values agree -/

/-- Values of most kinds agree. -/
theorem agrees_of_kind (hk : n.kind ∉ NodeKind.retyped) : n.agrees s = true := by
  simp only [NodeKind.retyped, List.mem_cons, List.not_mem_nil, or_false, not_or] at hk
  refine decide_eq_true ?_
  unfold executedType
  split <;> simp_all

/-- Columns of the table itself agree. -/
theorem agrees_column {name : String} (hn : column m name = .ok n)
    (hs : m.outputSchema = .ok s) (ht : s.dataType? name = some t) : n.agrees s = true := by
  have hdeclared : n.dataType? = some t := by
    rw [column_eq_ok hn, schema?_of_outputSchema hs, Option.bind_some, ht]
    rfl
  have hread : n.executedType s = (s.dataType? name).map .ofLogical := by
    rw [column_eq_ok hn]
    rfl
  rw [agrees, hread, hdeclared, ht, decide_eq_true_iff]

/-- Whole numbers and null have no other common type. -/
theorem commonSupertype_integer (ht : t.isInteger = true ∨ t = .null)
    (hu : u.isInteger = true ∨ u = .null) (hv : t.commonSupertype u = some v) :
    v.isInteger = true ∨ v = .null := by
  rcases ht with ht | rfl
  · rcases hu with hu | rfl
    · cases t <;> cases ht <;> (cases u <;> cases hu <;> (cases hv; exact .inl rfl))
    · rw [DataType.commonSupertype_null] at hv
      exact .inl (Option.some.inj hv ▸ ht)
  · rw [DataType.null_commonSupertype] at hv
    exact Option.some.inj hv ▸ hu

/-- Operators on bits are declared with whole numbers or null, and nothing else. -/
theorem type_of_bits (h : n.Built) (hk : n.kind ∈ NodeKind.bitwise)
    (ht : n.dataType? = some t) :
    t.isInteger = true ∨ t = .null := by
  have hoperand {name : String} (hv : n.kind.validator? name = some Catalogue.integral) :
      ∃ m u, n.child name = .ok m ∧ m.dataType? = some u
          ∧ (u.isInteger = true ∨ u = .null) := by
    obtain ⟨_, _, a, -, hvalid, -, hget⟩ := h.get?_eq hv
    obtain ⟨hexpression, u, hu, -⟩ := Validator.ofFamily_eq_ok hvalid
    obtain ⟨m, rfl, -⟩ := Validator.expression_eq_ok hexpression
    have hm : n.child name = .ok m := by rw [child, fieldAs, field, hget]; rfl
    exact ⟨m, u, hm, hu, h.type_of_family hv hm hu⟩
  have hbinary (hrule : n.kind.TypedBy (Rules.commonType ["left", "right"]))
      (hvl : n.kind.validator? "left" = some Catalogue.integral)
      (hvr : n.kind.validator? "right" = some Catalogue.integral) : t.isInteger = true
          ∨ t = .null := by
    obtain ⟨l, tl, hl, htl, hlcases⟩ := hoperand hvl
    obtain ⟨r, tr, hr, htr, hrcases⟩ := hoperand hvr
    exact commonSupertype_integer hlcases hrcases
      (h.type_pair hrule (by decide) hvl hvr hl hr htl htr ht)
  simp only [NodeKind.bitwise, List.mem_cons, List.not_mem_nil, or_false] at hk
  rcases hk with hk | hk | hk | hk | hk | hk
  case inr.inr.inr.inr.inr =>
    have hv : n.kind.validator? "arg" = some Catalogue.integral := by rw [hk]; rfl
    have hrule : n.kind.TypedBy (Rules.typeIn "arg") := by rw [hk]; exact ⟨_, rfl⟩
    obtain ⟨m, u, hm, hu, hcases⟩ := hoperand hv
    have hsame := h.type_in hrule (by decide) hm
    cases (ht.symm.trans hsame).trans hu
    exact hcases
  all_goals exact hbinary (by rw [hk]; exact ⟨_, rfl⟩) (by rw [hk]; rfl) (by rw [hk]; rfl)

/-- Operators on bits agree if they are declared with 64 bits, and not otherwise. -/
theorem agrees_bits_iff (h : n.Built) (hk : n.kind ∈ NodeKind.bitwise)
    (ht : n.dataType? = some t) :
    n.agrees s = true ↔ t = .int64 := by
  have htype : n.executedType s = some .int64 := by
    simp only [NodeKind.bitwise, List.mem_cons, List.not_mem_nil, or_false] at hk
    rcases hk with hk | hk | hk | hk | hk | hk <;> rw [executedType, hk]
  rw [agrees, htype, ht, decide_eq_true_iff, Option.map_some, Option.some.injEq]
  rcases type_of_bits h hk ht with hinteger | rfl
  · cases t <;> cases hinteger <;> simp [Physical.ofLogical]
  · simp [Physical.ofLogical]

end Node

/-! ## Executing -/

/-- What a selection or an aggregation is executed to has the names of its schema. It has
the types as well exactly if all items agree, provided that the parts of the items and
everything inside the table do. Only values of few kinds can disagree with what they are
declared with, and operators on bits do unless they are declared with 64 bits. -/
theorem declared_types {n source : Node} (h : n.Built)
    (hkind : n.kind = .selection ∨ n.kind = .aggregation)
    (hsource : n.child "table" = .ok source) {s out : Schema}
    (hs : source.outputSchema = .ok s) (hout : n.outputSchema = .ok out) {catalog : Catalog}
    (hcatalog : catalog.Matches n) (hfree : n.ClashFree) (hagree : source.Agreeing)
    (hparts : ∀ item ∈ n.items, item.itemPartsAgree s = true) {config : Config}
    {clock : Engine.Clock} {b : Batch} (hb : Engine.execute config clock n catalog = .ok b) :
    b.names = out.names ∧ (b.types = out.types ↔ ∀ item ∈ n.items, item.itemAgrees s = true)
      ∧ ∀ m : Node, m.Within n → (m.kind ∉ NodeKind.retyped → m.agrees s = true)
        ∧ (m.kind ∈ NodeKind.bitwise → ∀ t, m.dataType? = some t →
          (m.agrees s = true ↔ t = .int64)) := by
  have htable : n.kind.isTable = true := by rcases hkind with hk | hk <;> (rw [hk]; rfl)
  have hv : n.kind.validator? "table" = some .table := by
    rcases hkind with hk | hk <;> (rw [hk]; rfl)
  have hnames := Engine.names_execute h htable hcatalog.fits hfree hout hb
  refine ⟨hnames, ?_, fun m hm =>
    ⟨Node.agrees_of_kind, fun hk t ht => Node.agrees_bits_iff (hm.built h) hk ht⟩⟩
  have hmem := h.mem_children_of_child hsource
  have hbuilt := h.of_mem_children hmem
  have hkept : ∀ kept, Engine.KeptFrom clock catalog n "table" kept → kept.Matches s := by
    rintro kept ⟨m, input, before, hm, hinput, hbefore, hheader⟩
    cases hsource.symm.trans hm
    have hexecute : Engine.execute config clock source catalog = .ok before :=
      (Engine.execute_eq_ok hbuilt).2 ⟨input, hinput, hbefore⟩
    exact (Engine.matches_execute hbuilt (h.isTable_of_child hv hsource)
      (hcatalog.child hmem) (hfree.child hmem) hagree
      hs hexecute).of_header hheader
  obtain ⟨p, hp, hb⟩ := (Engine.execute_eq_ok h).1 hb
  have hrule := (h.outputSchema_eq htable).1 hout
  cases Engine.executed h htable hp hb with
  | selection hk hms hsorted hcases =>
      rw [hk] at hrule
      exact Engine.types_selection h hparts hkept hk (h.schemaIn_of_child hv hsource hs)
        hrule hms hsorted hcases
  | aggregation hk hks hkeys hms hmetrics hgrouped haggregate =>
      rw [hk] at hrule
      exact Engine.types_aggregation h hparts hkept hk hrule hks hkeys hms hmetrics
        hgrouped haggregate
  | stored hk | given hk | kept hk | filled hk | joined hk =>
      exact absurd hk
        (by rcases hkind with hkind | hkind <;> simp [hkind, NodeKind.keeping,
          NodeKind.wideJoins])

/-- Whole numbers that are added are brought to one type, which is the declared one. -/
theorem declared_types_widened :
    ∃ (source a c sum n : Node) (b : Batch),
      Node.databaseTable "t" ⟨[⟨"a", .int32, true⟩, ⟨"c", .int64, true⟩]⟩ = .ok source
        ∧ Node.column source "a" = .ok a ∧ Node.column source "c" = .ok c
        ∧ Node.build .add [.node a, .node c] [] = .ok sum
        ∧ Node.selectAs source sum "x" = .ok n ∧ n.Built
        ∧ n.outputSchema = .ok ⟨[⟨"x", .int64, true⟩]⟩
        ∧ Engine.execute {} ⟨0⟩ n
          ⟨[("t", ⟨1, [("a", ⟨.int32, [.int 1]⟩), ("c", ⟨.int64, [.int 2]⟩)]⟩)], {}⟩ = .ok b
        ∧ b.names = ["x"] ∧ b.types = [.int64] := by
  obtain ⟨s, hs⟩ : ∃ s : Schema, s = ⟨[⟨"a", .int32, true⟩, ⟨"c", .int64, true⟩]⟩ := ⟨_, rfl⟩
  obtain ⟨stored, hstored⟩ : ∃ stored : Batch,
      stored = ⟨1, [("a", ⟨.int32, [.int 1]⟩), ("c", ⟨.int64, [.int 2]⟩)]⟩ := ⟨_, rfl⟩
  obtain ⟨source, a, c, sum, item, n, ⟨hsource, ha, hc, hsum, hn⟩, hkinds, hchildren,
    ⟨htable, hname, hschema⟩, hout,
      hparts, hagree, hb⟩ :
      ∃ source a c sum item n : Node,
        (Node.databaseTable "t" s = .ok source ∧ Node.column source "a" = .ok a
          ∧ Node.column source "c" = .ok c
          ∧ Node.build .add [.node a, .node c] [] = .ok sum
          ∧ Node.selectAs source sum "x" = .ok n)
          ∧ (n.kind = .selection ∧ item.kind = .renamed ∧ sum.kind = .add
            ∧ a.kind = .tableColumn
            ∧ c.kind = .tableColumn ∧ source.kind = .databaseTable)
          ∧ (n.children = [source, item] ∧ item.children = [sum] ∧ sum.children = [a, c]
            ∧ a.children = [source]
            ∧ c.children = [source] ∧ source.children = [])
          ∧ (n.child "table" = .ok source ∧ source.stringField "name" = .ok "t"
            ∧ source.outputSchema = .ok s)
          ∧ n.outputSchema = .ok ⟨[⟨"x", .int64, true⟩]⟩
          ∧ (∀ item ∈ n.items, item.itemPartsAgree s = true)
          ∧ (∀ item ∈ n.items, item.itemAgrees s = true)
          ∧ (Engine.execute {} ⟨0⟩ n ⟨[("t", stored)], {}⟩).map Batch.rows = .ok 1 := by
    subst hs hstored
    refine ⟨_, _, _, _, _, _, ⟨rfl, rfl, rfl, rfl, rfl⟩, ⟨rfl, rfl, rfl, rfl, rfl, rfl⟩,
      ⟨rfl, rfl, rfl, rfl, rfl, rfl⟩, ⟨rfl, rfl, rfl⟩, rfl, ?_, ?_, ?_⟩
      <;> with_unfolding_all decide
  obtain ⟨hselection, hitem, hadd, hleft, hright, hdatabase⟩ := hkinds
  obtain ⟨hn₁, hn₂, hn₃, hn₄, hn₅, hn₆⟩ := hchildren
  obtain ⟨b, hb, -⟩ := map_eq_ok.1 hb
  have bsource := Node.built_databaseTable hsource
  have bsum :=
    Node.built_of_two (Node.built_column bsource ha) (Node.built_column bsource hc) hsum
  have bn := Node.built_selectAs bsource bsum hn
  have hwithin : ∀ m : Node, m.Within n → m ∈ [n, item, sum, a, c, source] := fun m hm =>
    hm.mem (by simp) (by simp [hn₁, hn₂, hn₃, hn₄, hn₅, hn₆])
  have hkinds : ∀ m : Node, m.Within n →
      m.kind ∉ NodeKind.wideJoins ∧ (m.kind = .databaseTable → m = source) := by
    intro m hm
    have hcases := hwithin m hm
    simp only [List.mem_cons, List.not_mem_nil, or_false] at hcases
    rcases hcases with rfl | rfl | rfl | rfl | rfl | rfl <;> simp_all [NodeKind.wideJoins]
  have hcatalog : Catalog.Matches ⟨[("t", stored)], {}⟩ n := by
    rintro m hm hkind name s' stored' hname' hs' hget
    obtain rfl := (hkinds m hm).2 hkind
    cases hname.symm.trans hname'
    cases hschema.symm.trans hs'
    cases hget
    subst hs hstored
    decide
  have hsourceAgree : source.Agreeing := by
    intro m hm _ _ _ _ item hitem
    obtain rfl :=
      List.mem_singleton.1 (hm.mem (List.mem_singleton_self source) (by simp [hn₆]))
    rw [Node.items, hdatabase] at hitem
    cases hitem
  obtain ⟨hnames, htypes, -⟩ :=
    declared_types bn (.inl hselection) htable hschema hout hcatalog
    (fun m hm _ _ _ _ _ hj => absurd hj.kind (hkinds m hm).1) hsourceAgree hparts hb
  subst hs hstored
  exact ⟨source, a, c, sum, n, b, hsource, ha, hc, hsum, hn, bn, hout, hb, hnames,
    htypes.2 hagree⟩

/-- Operators on bits of 32 and a replacement of nulls by a wider type: each has the type
that the other is declared with. -/
theorem declared_types_swapped :
    ∃ source a b c bits first x y n : Node,
      Node.databaseTable "t"
        ⟨[⟨"a", .int32, true⟩, ⟨"b", .int32, true⟩, ⟨"c", .int64, true⟩]⟩ = .ok source
        ∧ Node.column source "a" = .ok a ∧ Node.column source "b" = .ok b
        ∧ Node.column source "c" = .ok c
        ∧ Node.build .bitwiseAnd [.node a, .node b] [] = .ok bits
        ∧ Node.rename (.node bits) "x" = .ok x
        ∧ Node.build .ifNull [.node a, .node c] [] = .ok first
        ∧ Node.rename (.node first) "y" = .ok y
        ∧ Node.build .selection [.node source]
          [("selections", .seq [.node x, .node y])] = .ok n
        ∧ n.outputSchema = .ok ⟨[⟨"x", .int32, true⟩, ⟨"y", .int64, true⟩]⟩
        ∧ Engine.execute {} ⟨0⟩ n
          ⟨[("t", ⟨1, [("a", ⟨.int32, [.int 6]⟩), ("b", ⟨.int32, [.int 3]⟩),
            ("c", ⟨.int64, [.int 9]⟩)]⟩)], {}⟩
          = .ok ⟨1, [("x", ⟨.int64, [.int 2]⟩), ("y", ⟨.int32, [.int 6]⟩)]⟩ := by
  refine ⟨_, _, _, _, _, _, _, _, _, rfl, rfl, rfl, rfl, rfl, rfl, rfl, rfl, rfl, rfl, ?_⟩
  with_unfolding_all decide

end TypedQuery

/-!
# Scalar values are the same in every row

The shape of a value is derived when it is built; whether its rows differ shows only
when it is computed. Here both meet: a value is scalar exactly when no column occurs
in it outside a reduction, and then whatever is computed for it is one cell
repeated. An aggregation keeps the first row of each metric, and metrics have to be
scalar, so nothing is lost.
-/

namespace TypedQuery

/-- A value is scalar if and only if no column occurs in it outside what a
reduction takes. What is computed for a scalar value is the row that an aggregation
keeps of it, over and over. -/
theorem scalar_iff_independent_of_rows {n : Node} (h : n.Built)
    (hvalue : n.kind.isValue = true) :
    (n.shape? = some .scalar ↔ ∀ m : Node, m.Exposed n → m.kind ≠ .tableColumn)
      ∧ (n.shape? = some .scalar →
        ∀ config clock e, Engine.compile config clock n = .ok (.expr e) →
          ∀ (b : Batch) (c : Column), e.evaluate b = .ok c →
            ∃ cell, b.reduceGroup e = .ok (.constant c.type cell 1)
              ∧ c = .constant c.type cell c.length) := by
  obtain ⟨s, -, hs⟩ := h.shape_eq hvalue
  have hcolumnar := h.columnar_iff hvalue
  constructor
  · constructor
    · intro hscalar m hm hk
      cases hscalar.symm.trans (hcolumnar.2 ⟨m, hm, hk⟩)
    · intro hnone
      have hne : s ≠ .columnar := by
        rintro rfl
        obtain ⟨m, hm, hk⟩ := hcolumnar.1 hs
        exact hnone m hm hk
      rw [hs, Shape.ne_columnar.1 hne]
  · intro hscalar config clock e he b c hc
    rw [Engine.compile_eq_answer h] at he
    have huniform :=
      Expr.uniform_evaluate b e (Engine.rowless_of_scalar h hvalue hscalar he) c hc
    refine ⟨c.cells.head?.getD .null, ?_, ?_⟩
    · rw [Batch.reduceGroup, hc]
      rfl
    · obtain ⟨t, cells⟩ := c
      exact congrArg (Column.mk t) (huniform.eq_replicate .null)

/-- One more than the sum of a column, over two rows. -/
theorem scalar_total :
    ∃ table x sum n : Node, Node.databaseTable "t" ⟨[⟨"x", .int64, true⟩]⟩ = .ok table
      ∧ Node.column table "x" = .ok x
      ∧ Node.build .sum [.node x] [] = .ok sum
      ∧ Node.build .add [.node sum, .node (.literal (.int64 1))] [] = .ok n
      ∧ n.Built ∧ n.kind.isValue = true ∧ n.shape? = some .scalar
      ∧ (∀ m : Node, m.Exposed n → m.kind ≠ .tableColumn)
      ∧ ∃ e, Engine.compile {} ⟨0⟩ n = .ok (.expr e)
        ∧ e.evaluate ⟨2, [("x", ⟨.int64, [.int 2, .int 3]⟩)]⟩
          = .ok ⟨.int64, [.int 6, .int 6]⟩
        ∧ ∃ cell, Batch.reduceGroup ⟨2, [("x", ⟨.int64, [.int 2, .int 3]⟩)]⟩ e
          = .ok ⟨.int64, [cell]⟩
          ∧ [Cell.int 6, .int 6] = [cell, cell] := by
  obtain ⟨table, x, sum, n, htable, hx, hsum, hn, hvalue, hscalar, hrun⟩ :
      ∃ table x sum n : Node, Node.databaseTable "t" ⟨[⟨"x", .int64, true⟩]⟩ = .ok table
        ∧ Node.column table "x" = .ok x
        ∧ Node.build .sum [.node x] [] = .ok sum
        ∧ Node.build .add [.node sum, .node (.literal (.int64 1))] [] = .ok n
        ∧ n.kind.isValue = true ∧ n.shape? = some .scalar
        ∧ (Engine.compile {} ⟨0⟩ n >>= fun l => l.toExpr >>= fun e =>
          e.evaluate ⟨2, [("x", ⟨.int64, [.int 2, .int 3]⟩)]⟩)
          = .ok ⟨.int64, [.int 6, .int 6]⟩ :=
    ⟨_, _, _, _, rfl, rfl, rfl, rfl, rfl, rfl, by with_unfolding_all decide⟩
  obtain ⟨l, he, hrun⟩ := bind_eq_ok.1 hrun
  obtain ⟨e, hl, hc⟩ := bind_eq_ok.1 hrun
  cases l <;> cases hl
  have bx := Node.built_column (Node.built_databaseTable htable) hx
  have bsum : sum.Built := .of_build hsum (by simpa [Arg.nodesOfItems, Arg.nodes] using bx)
    (by simp [Arg.nodesOfFields])
  have bn := Node.built_of_two bsum (.literal _) hn
  obtain ⟨hiff, hsame⟩ := scalar_iff_independent_of_rows bn hvalue
  obtain ⟨cell, hkept, hcells⟩ := hsame hscalar {} ⟨0⟩ e he _ _ hc
  refine ⟨table, x, sum, n, htable, hx, hsum, hn, bn, hvalue, hscalar, hiff.1 hscalar, e,
    he, hc, cell, hkept, ?_⟩
  exact (Column.mk.inj hcells).2

end TypedQuery
