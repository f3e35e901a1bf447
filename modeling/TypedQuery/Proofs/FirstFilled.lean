import Mathlib.Data.List.Chain
import TypedQuery.Proofs.Columnar.RowView
import TypedQuery.Proofs.Node.Types
import TypedQuery.Proofs.OperandTypes

/-!
# The first value that is not null

Of several columns the first is taken that is not null in a row, and what stands in for it
is brought to its type. With more than two columns this is done from the last to the
first, so that a cell passes through the types of all columns before its own. The result
has the type of the first column, which need not be the common type that is declared: a
narrower column in front takes from the others what does not fit into it, and the row is
null or the whole fails.

Where the types go up from the last column to the first, the first column has the common
type, nothing is lost on the way, and the conversions one after the other are one
(`Converts.trans_upwards`).
-/

namespace TypedQuery

namespace DataType

variable {t u s : DataType} {ts : List DataType}

/-- A type that the other is stored above is the common supertype of the two. -/
theorem eq_of_upwards (h : t.commonSupertype u = some s)
    (hup : (Physical.ofLogical u).upwards (.ofLogical t) = true) :
    s = t := by
  by_cases heq : Physical.ofLogical t = .ofLogical u
  · obtain rfl := Physical.eq_of_ofLogical_eq h heq
    rw [commonSupertype_self] at h
    exact (Option.some.inj h).symm
  · cases u with
    | null =>
        rw [commonSupertype_null] at h
        exact (Option.some.inj h).symm
    | int32 | int64 | date | interval =>
        cases t <;> simp [Physical.ofLogical, Physical.upwards] at hup heq
          <;> cases h <;> rfl
    | _ => exact absurd (of_decide_eq_true hup).symm heq

/-- Where each of several types is stored above the next, the first is the
common supertype of all. -/
theorem highestPrecedence_upwards (h : highestPrecedence (t :: ts) = some s)
    (hchain : (t :: ts).IsChain fun t u => (Physical.ofLogical u).upwards (.ofLogical t)
      = true) : s = t := by
  induction ts generalizing t s with
  | nil => exact (Option.some.inj h).symm
  | cons u rest ih =>
      rw [highestPrecedence_cons] at h
      obtain ⟨v, hv, hs⟩ := Option.bind_eq_some_iff.1 h
      obtain ⟨hup, hchain⟩ := List.isChain_cons_cons.1 hchain
      obtain rfl := ih hv hchain
      exact eq_of_upwards hs hup

end DataType

/-- A cell of the last of some types, converted to each of those before, up to the first. -/
def Passes : List Physical → Cell → Cell → Prop
  | t :: u :: rest, cell, out => ∃ x, Passes (u :: rest) cell x ∧ Converts u t x out
  | _, cell, out => out = cell

/-- Types that are each above the next. -/
def Ascends (ts : List Physical) : Prop := ts.IsChain fun t u => u.upwards t = true

/-- Where the types go up, passing through them is one conversion. -/
theorem Passes.converts {ts : List Physical} {t u : Physical} {cell out : Cell}
    (h : Passes (ts ++ [u]) cell out) (hup : Ascends (ts ++ [u]))
    (hcell : cell.fits u = true) (ht : (ts ++ [u]).head? = some t) :
    u.upwards t = true ∧ Converts u t cell out := by
  induction ts generalizing t out with
  | nil =>
      obtain rfl := Option.some.inj ht
      obtain rfl : out = cell := h
      exact ⟨Physical.upwards_self u, .self u out⟩
  | cons v rest ih =>
      obtain rfl := Option.some.inj ht
      obtain ⟨w, more, hmore⟩ : ∃ w more, rest ++ [u] = w :: more :=
        List.exists_cons_of_ne_nil (by simp)
      rw [List.cons_append, hmore] at h
      rw [Ascends, List.cons_append, hmore, List.isChain_cons_cons, ← hmore] at hup
      obtain ⟨x, hx, hout⟩ := h
      obtain ⟨huw, hconverts⟩ := ih (hmore ▸ hx) hup.2 (by rw [hmore]; rfl)
      exact ⟨Physical.upwards_trans huw hup.1, hconverts.trans_upwards hout huw hup.1 hcell⟩

namespace Column

variable {c d l r out : Column} {cs before : List Column} {t : Physical}
    {mask : List Bool} {i n : Nat}

/-- The first column that is not null in a row, or the last of all, with those that come
before it. -/
def Chosen (cs before : List Column) (c : Column) (i : Nat) : Prop :=
  ∃ after, cs = before ++ c :: after ∧ (∀ d ∈ before, (d.row i).isNull = true)
    ∧ ((c.row i).isNull = false ∨ after = [])

namespace Chosen

theorem mem (h : Chosen cs before c i) : c ∈ cs := by
  obtain ⟨after, rfl, -⟩ := h
  simp

theorem head (h : (c.row i).isNull = false) : Chosen (c :: cs) [] c i :=
  ⟨cs, rfl, nofun, .inl h⟩

theorem tail (h : Chosen cs before c i) (hd : (d.row i).isNull = true) :
    Chosen (d :: cs) (d :: before) c i := by
  obtain ⟨after, rfl, hbefore, hc⟩ := h
  exact ⟨after, rfl, List.forall_mem_cons.2 ⟨hd, hbefore⟩, hc⟩

/-- Single rows stand for every row. -/
theorem of_row {j : Nat} (h : Chosen cs before c j) (hrow : ∀ d ∈ cs, d.row j = d.row i) :
    Chosen cs before c i := by
  obtain ⟨after, rfl, hbefore, hc⟩ := h
  refine ⟨after, rfl, fun d hd => ?_, ?_⟩
  · rw [← hrow d (by simp [hd])]
    exact hbefore d hd
  · rw [← hrow c (by simp)]
    exact hc

/-- The column is null in the row only where all are. -/
theorem isNull_iff (h : Chosen cs before c i) :
    (c.row i).isNull = true ↔ ∀ d ∈ cs, (d.row i).isNull = true := by
  refine ⟨fun hnull => ?_, fun hall => hall c h.mem⟩
  obtain ⟨after, rfl, hbefore, hfilled | rfl⟩ := h
  · rw [hnull] at hfilled
    cases hfilled
  · intro d hd
    rcases List.mem_append.1 hd with hd | hd
    · exact hbefore d hd
    · rwa [List.mem_singleton.1 hd]

/-- The types that the cell passes through begin those of the columns. -/
theorem types_eq (h : Chosen cs before c i) :
    ∃ types, cs.map type = (before.map type ++ [c.type]) ++ types := by
  obtain ⟨after, rfl, -⟩ := h
  exact ⟨after.map type, by simp⟩

theorem head?_types (h : Chosen (d :: cs) before c i) :
    (before.map type ++ [c.type]).head? = some d.type := by
  obtain ⟨types, htypes⟩ := h.types_eq
  rw [← List.head?_append_of_ne_nil _ (by simp), ← htypes]
  rfl

theorem ascends (h : Chosen cs before c i) (hup : Ascends (cs.map type)) :
    Ascends (before.map type ++ [c.type]) := by
  obtain ⟨types, htypes⟩ := h.types_eq
  rw [htypes] at hup
  exact hup.left_of_append

end Chosen

/-! ## What is taken -/

/-- In each row stands the first cell that is not null, passed through the types
of the columns before. -/
theorem row_coalesce (h : coalesce cs = .ok out) (hi : i < out.length) :
    ∃ before c, Chosen cs before c i
      ∧ Passes (before.map type ++ [c.type]) (c.row i) (out.row i) := by
  induction cs generalizing out i with
  | nil => cases h
  | cons c rest ih =>
      cases rest with
      | nil =>
          cases h
          exact ⟨[], c, ⟨[], rfl, nofun, .inr rfl⟩, rfl⟩
      | cons next more =>
          obtain ⟨fill, hfill, h⟩ := bind_eq_ok.1 h
          obtain ⟨x, hx, hrow⟩ := row_orElse h hi
          cases hnull : (c.row i).isNull with
          | false =>
              rw [hnull, if_neg Bool.false_ne_true] at hrow
              exact ⟨[], c, .head hnull, hrow⟩
          | true =>
              rw [hnull, if_pos rfl] at hrow
              -- What stands in may be a single row, and then so are all columns
              -- that it is taken from.
              have hspan : fill.Spans out.length :=
                (covers_orElse c fill out h).2 _ (by simp)
              obtain ⟨j, hj, hfillrow, hrows⟩ :=
                exists_row hspan hi (spans_of_covers (covers_coalesce _ fill hfill))
              obtain ⟨before, d, hd, hpasses⟩ := ih hfill hj
              have hd := hd.of_row hrows
              obtain ⟨types, htypes⟩ := List.head?_eq_some_iff.1 hd.head?_types
              refine ⟨c :: before, d, hd.tail hnull, ?_⟩
              rw [hfillrow, hrows d hd.mem, htypes] at hpasses
              rw [List.map_cons, List.cons_append, htypes, hrow]
              exact ⟨fill.row i, hpasses, type_coalesce next more fill hfill ▸ hx⟩

/-- A choice between two columns of one type does not fail. -/
theorem exists_select (hn : 0 < n) (hmask : mask.length = n ∨ mask.length = 1)
    (hl : l.Spans n) (hr : r.Spans n) (htype : l.type = r.type) :
    ∃ out, select mask l r = .ok out := by
  obtain ⟨hmask, hl, hr⟩ := tallest_of_three hn hmask hl hr
  have hbools : (bools (mask.map some)).Spans (max mask.length (max l.length r.length)) := by
    simpa [Spans, bools, length] using hmask
  obtain ⟨mask', hmask'⟩ := exists_broadcast hbools
  obtain ⟨l', hl'⟩ := exists_broadcast hl
  obtain ⟨r', hr'⟩ := exists_broadcast hr
  exact ⟨_, bind_eq_ok.2
    ⟨mask', hmask', bind_eq_ok.2
      ⟨(l, r), coerce_self htype, bind_eq_ok.2 ⟨l', hl', bind_eq_ok.2 ⟨r', hr', rfl⟩⟩⟩⟩⟩

/-- What goes up to the type of the column can stand in for nulls. -/
theorem exists_orElse (hn : 0 < n) (hl : l.Spans n) (hr : r.Spans n) (htyped : r.Typed)
    (hup : r.type.upwards l.type = true) :
    ∃ out, l.orElse r = .ok out := by
  obtain ⟨fill, hfill⟩ := htyped.cast_upwards hup
  have hspans : fill.Spans n := by
    unfold Spans
    rw [length_cast hfill]
    exact hr
  have hmask : (l.isNull.map (!·)).length = n ∨ (l.isNull.map (!·)).length = 1 := by
    rw [List.length_map, isNull, List.length_map]
    exact hl
  obtain ⟨out, hout⟩ := exists_select hn hmask hl hspans (type_cast _ _ _ hfill).symm
  exact ⟨out, bind_eq_ok.2 ⟨fill, hfill, hout⟩⟩

/-- Where the types go up the columns can be taken from. -/
theorem exists_coalesce (hn : 0 < n) (hne : cs ≠ []) (hspans : ∀ c ∈ cs, c.Spans n)
    (htyped : ∀ c ∈ cs, c.Typed) (hup : Ascends (cs.map type)) :
    ∃ out, coalesce cs = .ok out := by
  induction cs with
  | nil => exact absurd rfl hne
  | cons c rest ih =>
      cases rest with
      | nil => exact ⟨c, rfl⟩
      | cons next more =>
          obtain ⟨hc, hrest⟩ := List.forall_mem_cons.1 hspans
          obtain ⟨-, htypedrest⟩ := List.forall_mem_cons.1 htyped
          rw [List.map_cons, List.map_cons, Ascends, List.isChain_cons_cons,
            ← List.map_cons] at hup
          obtain ⟨fill, hfill⟩ := ih (List.cons_ne_nil _ _) hrest htypedrest hup.2
          have hfillspans : fill.Spans n := by
            obtain ⟨d, hd, hlength⟩ := List.mem_map.1 (covers_coalesce _ fill hfill).1
            rw [Spans, ← hlength]
            exact hrest d hd
          have hfilltype := type_coalesce next more fill hfill
          have hfilltyped : fill.Typed := typed_coalesce htypedrest fill hfill
          obtain ⟨out, hout⟩ := exists_orElse hn hc hfillspans hfilltyped (hfilltype ▸ hup.1)
          exact ⟨out, bind_eq_ok.2 ⟨fill, hfill, hout⟩⟩

end Column

/-! ## Values -/

namespace Node

/-- The values that a node gives the first of that is not null. -/
def candidates (n : Node) : List Node :=
  if n.kind = .ifNull then n.held "arg" ++ n.held "ifnull_expr" else n.held "arg"

variable {ms : List Node} {cs : List Column} {s : DataType}

/-- The first of types that go up is the common one. -/
theorem AllStored.type_upwards {c : Column} (h : AllStored ms (c :: cs))
    (hs : DataType.highestPrecedence (ms.filterMap dataType?) = some s)
    (hup : Ascends ((c :: cs).map Column.type)) : c.type = .ofLogical s := by
  rw [← h.types_eq, Ascends, List.isChain_map] at hup
  cases h with
  | cons hc _ =>
      obtain ⟨t, ht, hc⟩ := hc
      rw [List.filterMap_cons_some ht] at hs hup
      rw [hc.type_eq, DataType.highestPrecedence_upwards hs hup]

end Node

namespace Engine

variable {clock : Clock} {b : Batch} {n : Node} {e : Expr} {cs : List Column} {s : DataType}

/-- What is compiled takes the first of the values that is not null. -/
theorem compiled_candidates (h : n.Built) (hk : n.kind = .coalesce ∨ n.kind = .ifNull)
    (he : Compiled clock n e) :
    ∃ es, List.Forall₂ (Compiled clock) n.candidates es
      ∧ ∀ b cs, Expr.evaluateList b es = .ok cs → e.evaluate b = Column.coalesce cs := by
  rcases hk with hk | hk
  · obtain ⟨es, ⟨ms, hms, hes⟩, rfl⟩ := compiled_coalesce h hk he
    refine ⟨es, ?_, fun b cs hcs => ?_⟩
    · rwa [Node.candidates, hk, if_neg (by decide), Node.held_of_childList hms]
    · rw [Expr.evaluate, hcs]
      rfl
  · obtain ⟨arg, fill, ⟨m, hm, harg⟩, ⟨m', hm', hfill⟩, rfl⟩ := compiled_ifNull h hk he
    refine ⟨[arg, fill], ?_, fun b cs hcs => ?_⟩
    · rw [Node.candidates, hk, if_pos rfl, Node.held_of_child hm, Node.held_of_child hm']
      exact .cons harg (.cons hfill .nil)
    · obtain ⟨c, hc, hcs⟩ := bind_eq_ok.1 hcs
      obtain ⟨rest, hrest, hcs⟩ := bind_eq_ok.1 hcs
      obtain ⟨d, hd, hrest⟩ := bind_eq_ok.1 hrest
      cases hrest
      cases hcs
      rw [Expr.evaluate, hc, hd]
      rfl

/-- The declared type is the common one of the values. -/
theorem candidates_type (h : n.Built) (hk : n.kind = .coalesce ∨ n.kind = .ifNull)
    (he : Compiled clock n e) :
    DataType.highestPrecedence (n.candidates.filterMap Node.dataType?) = n.dataType? := by
  rcases hk with hk | hk
  · obtain ⟨es, ⟨ms, hms, -⟩, -⟩ := compiled_coalesce h hk he
    have hrule : n.kind.TypedBy (Rules.commonType ["arg"]) := by rw [hk]; exact ⟨_, rfl⟩
    have hcommon := h.type_common hrule (by decide)
    rw [List.flatMap_cons, List.flatMap_nil, List.append_nil,
      h.nodesIn_eq (by rw [hk]; rfl) hms] at hcommon
    rwa [Node.candidates, hk, if_neg (by decide), Node.held_of_childList hms]
  · obtain ⟨arg, fill, ⟨m, hm, -⟩, ⟨m', hm', -⟩, -⟩ := compiled_ifNull h hk he
    have hrule : n.kind.TypedBy (Rules.commonType ["arg", "ifnull_expr"]) := by
      rw [hk]; exact ⟨_, rfl⟩
    have hcommon := h.type_common hrule (by decide)
    rw [List.flatMap_cons, List.flatMap_cons, List.flatMap_nil, List.append_nil,
      h.nodesIn_of_child (by rw [hk]; rfl) hm, h.nodesIn_of_child (by rw [hk]; rfl) hm']
      at hcommon
    rwa [Node.candidates, hk, if_pos rfl, Node.held_of_child hm, Node.held_of_child hm']

end Engine

/-- Coalescing takes in each row the first value that is not null. The result has the type
of the first value, and what stands in for it has passed through the types of the values
before its own. Where these go up, the first type is the common one, the conversion is
direct, and only a row without any value is null. -/
theorem first_filled {clock : Engine.Clock} {n : Node} {e : Expr}
    {s : DataType} (h : n.Built) (hk : n.kind = .coalesce ∨ n.kind = .ifNull)
    (hs : n.dataType? = some s) (he : Engine.Compiled clock n e) :
    ∃ es, List.Forall₂ (Engine.Compiled clock) n.candidates es
      ∧ ∀ b cs, Expr.evaluateList b es = .ok cs →
        (∀ out, e.evaluate b = .ok out →
          (∃ first rest, cs = first :: rest ∧ out.type = first.type)
          ∧ Covers (cs.map Column.length) out.length
          ∧ ∀ i < out.length, ∃ before c, Column.Chosen cs before c i
            ∧ Passes (before.map Column.type ++ [c.type]) (c.row i) (out.row i))
        ∧ (∀ rows, 0 < rows → cs ≠ [] → (∀ c ∈ cs, c.Spans rows) →
          Node.AllStored n.candidates cs →
          Ascends (cs.map Column.type) → ∃ out, e.evaluate b = .ok out ∧ out.Stores s
            ∧ ∀ i < out.length, (∃ before c, Column.Chosen cs before c i
                ∧ Converts c.type (.ofLogical s) (c.row i) (out.row i))
              ∧ ((out.row i).isNull = true ↔ ∀ c ∈ cs, (c.row i).isNull = true)) := by
  obtain ⟨es, hes, hevaluate⟩ := Engine.compiled_candidates h hk he
  refine ⟨es, hes,
    fun b cs hcs => ⟨fun out hout => ?_, fun rows hrows hne hspans hstored hup => ?_⟩⟩
  · rw [hevaluate b cs hcs] at hout
    refine ⟨?_, Column.covers_coalesce cs out hout, fun i hi => Column.row_coalesce hout hi⟩
    cases cs with
    | nil => cases hout
    | cons c rest => exact ⟨c, rest, rfl, Column.type_coalesce c rest out hout⟩
  · obtain ⟨out, hout⟩ := Column.exists_coalesce hrows hne hspans hstored.typed hup
    obtain ⟨c, rest, rfl⟩ := List.exists_cons_of_ne_nil hne
    have hfirst := Column.type_coalesce c rest out hout
    have hcommon := hstored.type_upwards ((Engine.candidates_type h hk he).trans hs) hup
    refine ⟨out, (hevaluate b _ hcs).trans hout,
      ⟨hfirst.trans hcommon, Column.typed_coalesce hstored.typed out hout⟩, ?_⟩
    intro i hi
    obtain ⟨before, d, hd, hpasses⟩ := Column.row_coalesce hout hi
    have hspan : d.Spans out.length :=
      Column.spans_of_covers (Column.covers_coalesce _ out hout) d hd.mem
    have hfits := hstored.typed d hd.mem _ (Column.row_mem hspan hi)
    obtain ⟨hdup, hconverts⟩ := hpasses.converts (hd.ascends hup) hfits hd.head?_types
    rw [hcommon] at hdup hconverts
    exact ⟨⟨before, d, hd, hconverts⟩,
      by rw [hconverts.isNull_upwards hdup hfits, hd.isNull_iff]⟩

/-- Whole numbers of 64 bits, and those of 32 bits where there are none. -/
theorem first_filled_ascending :
    ∃ (source c a n : Node) (e : Expr) (b : Batch) (cs : List Column) (out : Column),
      Node.databaseTable "t" ⟨[⟨"c", .int64, true⟩, ⟨"a", .int32, true⟩]⟩ = .ok source
        ∧ Node.column source "c" = .ok c ∧ Node.column source "a" = .ok a
        ∧ Node.build .coalesce [.node c, .node a] [] = .ok n ∧ n.dataType? = some .int64
        ∧ Engine.Compiled ⟨0⟩ n e
        ∧ cs = [⟨.int64, [.null, .int 4294967301]⟩, ⟨.int32, [.int 3, .null]⟩]
        ∧ b = ⟨2, ["c", "a"].zip cs⟩
        ∧ e.evaluate b = .ok out ∧ out.Stores .int64
        ∧ ∀ i < out.length, (∃ before d, Column.Chosen cs before d i
          ∧ Converts d.type .int64 (d.row i) (out.row i))
          ∧ ((out.row i).isNull = true ↔ ∀ d ∈ cs, (d.row i).isNull = true) := by
  obtain ⟨source, c, a, n, e, ⟨hsource, hc, ha, hn, hs⟩, ⟨he, hec, hea⟩, hkind,
    hcandidates, hct, hat⟩ :
      ∃ (source c a n : Node) (e : Expr),
        (Node.databaseTable "t" ⟨[⟨"c", .int64, true⟩, ⟨"a", .int32, true⟩]⟩ = .ok source
            ∧ Node.column source "c" = .ok c ∧ Node.column source "a" = .ok a
            ∧ Node.build .coalesce [.node c, .node a] [] = .ok n ∧ n.dataType? = some .int64)
          ∧ (Engine.Compiled ⟨0⟩ n e ∧ Engine.Compiled ⟨0⟩ c (.column "c")
            ∧ Engine.Compiled ⟨0⟩ a (.column "a"))
          ∧ n.kind = .coalesce ∧ n.candidates = [c, a] ∧ c.dataType? = some .int64
              ∧ a.dataType? = some .int32 :=
    ⟨_, _, _, _, _, ⟨rfl, rfl, rfl, rfl, rfl⟩, ⟨rfl, rfl, rfl⟩, rfl, rfl, rfl, rfl⟩
  have bsource := Node.built_databaseTable hsource
  have bn := Node.built_of_two (Node.built_column bsource hc)
    (Node.built_column bsource ha) hn
  obtain ⟨cs, hcs⟩ : ∃ cs : List Column,
      cs = [⟨.int64, [.null, .int 4294967301]⟩, ⟨.int32, [.int 3, .null]⟩] := ⟨_, rfl⟩
  obtain ⟨es, hes, hrows⟩ := first_filled bn (.inl hkind) hs he
  obtain rfl := Engine.all_compiled_unique (hcandidates ▸ hes) (.cons hec (.cons hea .nil))
  have hevaluate :
      Expr.evaluateList ⟨2, ["c", "a"].zip cs⟩ [.column "c", .column "a"] = .ok cs := by
    subst hcs
    rfl
  have hstored : Node.AllStored n.candidates cs := by
    rw [hcandidates, hcs]
    exact .cons ⟨_, hct, rfl, by unfold Column.Typed; decide⟩
      (.cons ⟨_, hat, rfl, by unfold Column.Typed; decide⟩ .nil)
  have hspans : ∀ d ∈ cs, d.Spans 2 := by simp [hcs, Column.Spans, Column.length]
  have hup : Ascends (cs.map Column.type) := by simp [hcs, Ascends, Physical.upwards]
  obtain ⟨out, hout, hstores, hall⟩ :=
    (hrows _ cs hevaluate).2 2 (by decide) (by simp [hcs]) hspans hstored hup
  exact ⟨source, c, a, n, e, _, cs, out, hsource, hc, ha, hn, hs, he, hcs, rfl,
    hout, hstores, hall⟩

/-- A wider number does not fit into the narrower type in front of it: the row is null, in
that type, or everything fails. -/
theorem first_filled_narrowed :
    ∃ source a c first y n none other z m : Node,
      Node.databaseTable "t" ⟨[⟨"a", .int32, true⟩, ⟨"c", .int64, true⟩]⟩ = .ok source
        ∧ Node.column source "a" = .ok a ∧ Node.column source "c" = .ok c
        ∧ Node.build .ifNull [.node a, .node c] [] = .ok first
        ∧ first.dataType? = some .int64
        ∧ Node.rename (.node first) "y" = .ok y
        ∧ Node.build .selection [.node source] [("selections", .seq [.node y])] = .ok n
        ∧ none = Node.literal .null
        ∧ Node.build .coalesce [.node none, .node c] [] = .ok other
        ∧ other.dataType? = some .int64
        ∧ Node.rename (.node other) "z" = .ok z
        ∧ Node.build .selection [.node source] [("selections", .seq [.node z])] = .ok m
        ∧ ∀ catalog : Catalog, catalog
            = ⟨[("t", ⟨1, [("a", ⟨.int32, [.null]⟩), ("c", ⟨.int64, [.int 4294967301]⟩)]⟩)],
              {}⟩ →
          Engine.execute {} ⟨0⟩ n catalog = .ok ⟨1, [("y", ⟨.int32, [.null]⟩)]⟩
            ∧ Engine.execute {} ⟨0⟩ m catalog = .error (.compute .cast) := by
  refine ⟨_, _, _, _, _, _, _, _, _, _, rfl, rfl, rfl, rfl, rfl, rfl, rfl, rfl, rfl,
    rfl, rfl, rfl, ?_⟩
  rintro _ rfl
  constructor <;> with_unfolding_all decide

end TypedQuery
