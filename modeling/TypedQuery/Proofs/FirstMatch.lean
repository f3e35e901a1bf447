import TypedQuery.Proofs.Columnar.RowView
import TypedQuery.Proofs.FilteredReductions
import TypedQuery.Proofs.Node.Types
import TypedQuery.Proofs.OperandTypes

/-!
# Cases

A case is put together from choices, the last pair innermost, and each choice brings its
two sides to a common type. Read row by row it is the result beside the first condition
that holds, or the default, converted once to the type that the whole is declared with: the
types only go up from a choice to the one around it (`Converts.trans_upwards`).

Which conditions hold is read off the slots of their cells. A condition that is null
over a slot that holds true strays (`Cell.strays`), and then its result is taken
although it is not true.
-/

namespace TypedQuery

namespace Column

variable {c out default : Column} {branches : List (Column × Column)}
    {holds holds' : Cell → Bool} {i j : Nat}

/-- The column that a case takes in a row: the result beside the first condition that
holds, or the default. -/
def picked (holds : Cell → Bool) (branches : List (Column × Column)) (default : Column)
    (i : Nat) : Column :=
  ((branches.find? fun x => holds (x.1.row i)).map (·.2)).getD default

theorem picked_cons (x : Column × Column) :
    picked holds (x :: branches) default i = if holds (x.1.row i) then x.2
      else picked holds branches default i := by
  unfold picked
  rw [List.find?_cons]
  cases holds (x.1.row i) <;> rfl

theorem picked_mem (holds : Cell → Bool) (branches : List (Column × Column))
    (default : Column) (i : Nat) :
    picked holds branches default i ∈ branches.map (·.2) ++ [default] := by
  induction branches with
  | nil => exact List.mem_singleton_self default
  | cons x rest ih =>
      rw [picked_cons]
      split
      · exact List.mem_cons_self
      · exact List.mem_cons_of_mem _ ih

/-- What is taken depends on the conditions in the row alone. -/
theorem picked_congr (h : ∀ x ∈ branches, holds (x.1.row i) = holds' (x.1.row j)) :
    picked holds branches default i = picked holds' branches default j := by
  induction branches with
  | nil => rfl
  | cons x rest ih =>
      obtain ⟨hx, hrest⟩ := List.forall_mem_cons.1 h
      rw [picked_cons, picked_cons, hx, ih hrest]

/-- Where no condition strays, those hold that are true. -/
theorem picked_of_not_strays (h : ∀ x ∈ branches, (x.1.row i).strays = false) :
    picked Cell.boolContent branches default i = picked Cell.isTrue branches default i :=
  picked_congr fun x hx => by rw [Cell.boolContent_eq, h x hx, Bool.or_false]

/-- The cell is the one that a case takes in a row, converted up to the type. -/
def Picks (branches : List (Column × Column)) (default : Column) (t : Physical) (i : Nat)
    (cell : Cell) : Prop :=
  (picked Cell.boolContent branches default i).type.upwards t = true
    ∧ Converts (picked Cell.boolContent branches default i).type t
    ((picked Cell.boolContent branches default i).row i) cell

/-- Where a single row stands for every row, so do those that it is taken from. -/
theorem Picks.of_spans {t : Physical} {rows : Nat}
    (h : ∀ j < out.length, Picks branches default t j (out.row j))
    (hspan : out.Spans rows) (hi : i < rows)
    (hspans : ∀ c ∈ branches.map (·.1) ++ (branches.map (·.2) ++ [default]),
      c.Spans out.length) :
    Picks branches default t i (out.row i) := by
  obtain ⟨j, hj, hrow, hsame⟩ := exists_row hspan hi hspans
  have hpicked : picked Cell.boolContent branches default j
      = picked Cell.boolContent branches default i :=
    picked_congr fun x hx =>
      by rw [hsame x.1 (List.mem_append_left _ (List.mem_map_of_mem hx))]
  have hmem := picked_mem Cell.boolContent branches default i
  have hpicks := h j hj
  unfold Picks at hpicks
  rwa [hpicked, hsame _ (List.mem_append_right _ hmem), hrow] at hpicks

end Column

namespace Expr

open Column

variable {b : Batch} {p l r : Expr} {out : Column} {i : Nat}

/-- The condition that two values are equal. -/
theorem equals_eq_ok (h : (l.equals r).evaluate b = .ok out) :
    ∃ lc rc, l.evaluate b = .ok lc ∧ r.evaluate b = .ok rc
      ∧ ∀ i < out.length, Compared .equal lc rc i (out.row i).bool? := by
  obtain ⟨lc, hlc, h⟩ := bind_eq_ok.1 h
  obtain ⟨rc, hrc, h⟩ := bind_eq_ok.1 h
  exact ⟨lc, rc, hlc, hrc, fun i hi => row_compared h hi⟩

/-- A choice takes in a row what its condition says, in the common type of both sides. -/
theorem choose_eq_ok (h : (choose p l r).evaluate b = .ok out) :
    ∃ pc lc rc, p.evaluate b = .ok pc ∧ l.evaluate b = .ok lc ∧ r.evaluate b = .ok rc
      ∧ pc.Spans b.rows
      ∧ commonType lc.type rc.type = .ok out.type
      ∧ Covers [b.rows, lc.length, rc.length] out.length
      ∧ (lc.Typed → rc.Typed → out.Typed)
      ∧ ∀ i < out.length, ∃ x y, Converts lc.type out.type (lc.row i) x
        ∧ Converts rc.type out.type (rc.row i) y
        ∧ out.row i = if (pc.row i).boolContent then x else y := by
  obtain ⟨pc, hpc, h⟩ := bind_eq_ok.1 h
  obtain ⟨mask, hmask, h⟩ := bind_eq_ok.1 h
  obtain ⟨lc, hlc, h⟩ := bind_eq_ok.1 h
  obtain ⟨rc, hrc, h⟩ := bind_eq_ok.1 h
  have hcovers := covers_select _ lc rc out h
  rw [List.length_map, length_asPredicate hmask] at hcovers
  refine ⟨pc, lc, rc, hpc, hlc, hrc, height_of_asPredicate hmask,
    type_select _ lc rc out h, hcovers, fun hl hr => hl.select hr _ out h, fun i hi => ?_⟩
  obtain ⟨d, hd, hmask⟩ := bind_eq_ok.1 hmask
  split at hmask <;> cases hmask
  obtain ⟨x, y, -, hx, hy, hrow⟩ := row_select h hi
  refine ⟨x, y, hx, hy, ?_⟩
  -- The condition is brought to the height of the batch, which may be a single row.
  have hlength := Batch.length_broadcast hd
  have hspan : d.Spans out.length := by
    rw [Spans, hlength]
    exact hcovers.2 _ List.mem_cons_self
  have hcondition : ∀ c ∈ [pc], c.Spans d.length := by
    rw [hlength, List.forall_mem_singleton]
    exact height_of_broadcast hd
  obtain ⟨j, hj, hdrow, hrows⟩ := exists_row hspan hi hcondition
  rw [hrow, ← hdrow, row_broadcast hd (hlength ▸ hj), hrows pc (List.mem_singleton_self pc)]

end Expr

namespace Engine

open Column

variable {clock : Clock} {b : Batch} {n m : Node} {ms : List Node} {e default : Expr}
    {branches : List (Expr × Expr)}
  {s : DataType} {out : Column}

/-- The columns of the conditions and results of a case, and of its default. -/
structure Evaluated (b : Batch) (branches : List (Expr × Expr)) (default : Expr)
    (cols : List (Column × Column)) (dc : Column) : Prop where
  branches : List.Forall₂
    (fun e c => e.1.evaluate b = .ok c.1 ∧ e.2.evaluate b = .ok c.2) branches cols
  default : default.evaluate b = .ok dc

/-- The heights that the height of a case comes from. -/
def caseHeights (b : Batch) (cols : List (Column × Column)) (dc : Column) : List Nat :=
  (cols.flatMap fun x => [b.rows, x.2.length]) ++ [dc.length]

/-- All columns of a case span its rows. -/
theorem spans_of_caseHeights {cols : List (Column × Column)} {dc : Column} {rows : Nat}
    (hcovers : Covers (caseHeights b cols dc) rows) (hspans : ∀ x ∈ cols, x.1.Spans b.rows) :
    ∀ c ∈ cols.map (·.1) ++ (cols.map (·.2) ++ [dc]), c.Spans rows := by
  intro c hc
  simp only [List.mem_append, List.mem_map, List.mem_singleton] at hc
  have hheight {k : Nat} (hk : k ∈ caseHeights b cols dc) : k = rows
    ∨ k = 1 := hcovers.2 k hk
  rcases hc with ⟨x, hx, rfl⟩ | ⟨x, hx, rfl⟩ | rfl
  · have hrows :=
      hheight (k := b.rows) (List.mem_append_left _ (List.mem_flatMap.2 ⟨x, hx, by simp⟩))
    have hspan := hspans x hx
    unfold Spans at *
    omega
  · exact hheight (List.mem_append_left _ (List.mem_flatMap.2 ⟨x, hx, by simp⟩))
  · exact hheight (List.mem_append_right _ (List.mem_singleton_self _))

/-- A case that evaluates takes the result beside the first condition whose slot
holds true, or the default. Where these are stored in their declared types, it
comes in the common one. -/
theorem firstCase_eq_ok (h : (firstCase default branches).evaluate b = .ok out) :
    ∃ cols dc, Evaluated b branches default cols dc
      ∧ Covers (caseHeights b cols dc) out.length
      ∧ (∀ x ∈ cols, x.1.Spans b.rows)
      ∧ ∀ ms s, Node.AllStored ms (cols.map (·.2) ++ [dc]) →
        DataType.highestPrecedence (ms.filterMap Node.dataType?) = some s →
        out.Stores s ∧ ∀ i < out.length, Picks cols dc (.ofLogical s) i (out.row i) := by
  induction branches generalizing out with
  | nil =>
      refine ⟨[], out, ⟨.nil, h⟩, .single _, nofun, fun ms s hms hs => ?_⟩
      obtain ⟨m, _, ⟨t, ht, hout⟩, hnil, rfl⟩ := List.forall₂_cons_right_iff.1 hms
      cases hnil
      rw [List.filterMap_cons_some ht] at hs
      cases hs
      refine ⟨hout, fun i _ => ?_⟩
      rw [Picks, show picked Cell.boolContent [] out i = out from rfl, hout.type_eq]
      exact ⟨Physical.upwards_self _, .self _ _⟩
  | cons x rest ih =>
      obtain ⟨pc, rc, inner, hpc, hrc, hinner, hspan, htype, hcovers, htyped, hrows⟩ :=
        Expr.choose_eq_ok h
      obtain ⟨cols, dc, ⟨hcols, hdc⟩, hinnercovers, hspans, hall⟩ := ih hinner
      have hheights : Covers (caseHeights b ((pc, rc) :: cols) dc) out.length :=
        .three (.single b.rows) (.single rc.length) hinnercovers hcovers
      have hallspans : ∀ x ∈ (pc, rc) :: cols, x.1.Spans b.rows :=
        List.forall_mem_cons.2 ⟨hspan, hspans⟩
      refine ⟨(pc, rc) :: cols, dc, ⟨.cons ⟨hpc, hrc⟩ hcols, hdc⟩, hheights, hallspans,
        fun ms s hms hs => ?_⟩
      have htypedall := hms.typed
      cases hms with
      | cons hstored hms =>
          obtain ⟨t, ht, hstores⟩ := hstored
          rw [List.filterMap_cons_some ht, DataType.highestPrecedence_cons] at hs
          obtain ⟨u, hu, hs⟩ := Option.bind_eq_some_iff.1 hs
          obtain ⟨hinnerstores, hinnerrows⟩ := hall _ u hms hu
          rw [hstores.type_eq, hinnerstores.type_eq] at htype
          have hmatched := unmatched_of_commonType hs htype
          have houttype := eq_of_commonType hs htype
          refine ⟨⟨houttype, htyped hstores.typed hinnerstores.typed⟩, fun i hi => ?_⟩
          obtain ⟨x, y, hx, hy, hrow⟩ := hrows i hi
          rw [houttype] at hx hy
          rw [Picks, picked_cons]
          by_cases hholds : (pc.row i).boolContent = true
          · rw [if_pos hholds] at hrow
            rw [if_pos hholds, hrow, hstores.type_eq]
            exact ⟨DataType.upwards_left hs hmatched, hstores.type_eq ▸ hx⟩
          · rw [if_neg hholds] at hrow
            rw [if_neg hholds, hrow]
            have hinnerspan : inner.Spans out.length := hcovers.2 _ (by simp)
            obtain ⟨hup, hconverts⟩ :=
              Picks.of_spans hinnerrows hinnerspan hi
                (spans_of_caseHeights hinnercovers hspans)
            have hmem := List.mem_cons_of_mem rc (picked_mem Cell.boolContent cols dc i)
            have hspan :=
              spans_of_caseHeights hheights hallspans _ (List.mem_append_right _ hmem)
            rw [hinnerstores.type_eq] at hy
            have hupouter := DataType.upwards_right hs hmatched
            exact ⟨Physical.upwards_trans hup hupouter,
              hconverts.trans_upwards hy hup hupouter
              (htypedall _ hmem _ (row_mem hspan hi))⟩

theorem Evaluated.conditions {conditions results : List Expr}
    {cols : List (Column × Column)} {dc : Column}
    (h : Evaluated b (conditions.zip results) default cols dc)
    (hlength : conditions.length = results.length) :
    List.Forall₂ (fun e x => e.evaluate b = .ok x.1) conditions cols := by
  have hfirst : List.Forall₂ (fun e x => e.evaluate b = .ok x.1)
      ((conditions.zip results).map (·.1)) cols :=
    List.forall₂_map_left_iff.2 (h.branches.imp fun _ _ h => h.1)
  rwa [List.map_fst_zip (Nat.le_of_eq hlength)] at hfirst

/-- The conditions of a case: those that it is given, or that its base equals the
values that it is given. -/
def Conditions (clock : Clock) (n : Node) (conditions : List Expr) : Prop :=
  (n.kind = .searchedCase ∧ Operands clock n "cases" conditions)
    ∨ (n.kind = .simpleCase ∧ ∃ base cases, Operand clock n "base" base
      ∧ Operands clock n "cases" cases
      ∧ conditions = cases.map base.equals)

/-- Each condition tells in which rows the base equals one of the values. It is not true
where one of the two is null. -/
def TellsEqual (b : Batch) (base : Expr) (cases : List Expr)
    (cols : List (Column × Column)) : Prop :=
  List.Forall₂ (fun case x => ∃ bc kc, base.evaluate b = .ok bc ∧ case.evaluate b = .ok kc
    ∧ ∀ i < x.1.length, Compared .equal bc kc i (x.1.row i).bool?
      ∧ ((bc.row i).isNull = true ∨ (kc.row i).isNull = true → (x.1.row i).isTrue = false))
      cases cols

theorem Evaluated.tellsEqual {base : Expr} {cases results : List Expr}
    {cols : List (Column × Column)} {dc : Column}
    (h : Evaluated b ((cases.map base.equals).zip results) default cols dc)
    (hlength : (cases.map base.equals).length = results.length) :
    TellsEqual b base cases cols := by
  refine (List.forall₂_map_left_iff.1 (h.conditions hlength)).imp fun case x hx => ?_
  obtain ⟨bc, kc, hbc, hkc, hcompared⟩ := Expr.equals_eq_ok hx
  refine ⟨bc, kc, hbc, hkc, fun i hi => ⟨hcompared i hi, fun hnull => ?_⟩⟩
  rw [← Bool.not_eq_true, Cell.isTrue_iff, (hcompared i hi).eq_none_of_isNull hnull]
  exact nofun

theorem compiled_case (h : n.Built) (hk : n.kind = .simpleCase ∨ n.kind = .searchedCase)
    (he : Compiled clock n e) :
    ∃ conditions results default, Conditions clock n conditions
      ∧ Operands clock n "results" results
      ∧ Operand clock n "default" default ∧ conditions.length = results.length
      ∧ e = firstCase default (conditions.zip results) := by
  have hlength {cases results : List Expr} (hcases : Operands clock n "cases" cases)
      (hresults : Operands clock n "results" results) : cases.length = results.length := by
    obtain ⟨xs, hxs, hcases⟩ := hcases
    obtain ⟨ys, hys, hresults⟩ := hresults
    have hv : n.kind.validator? "results" = some (.sameLengthAs "cases") := by
      rcases hk with hk | hk <;> (rw [hk]; rfl)
    rw [← hcases.length_eq, ← hresults.length_eq, h.length_eq_of_sameLength hv hys hxs]
  rcases hk with hk | hk
  · obtain ⟨base, cases, results, default, hbase, hcases, hresults, hdefault, rfl⟩ :=
      compiled_simpleCase h hk he
    exact ⟨_, results, default, .inr ⟨hk, base, cases, hbase, hcases, rfl⟩,
      hresults, hdefault, (List.length_map _).trans (hlength hcases hresults), rfl⟩
  · obtain ⟨cases, results, default, hcases, hresults, hdefault, rfl⟩ :=
      compiled_searchedCase h hk he
    exact ⟨cases, results, default, .inl ⟨hk, hcases⟩, hresults, hdefault,
      hlength hcases hresults, rfl⟩

theorem case_type {results : List Expr} (h : n.Built)
    (hk : n.kind = .simpleCase ∨ n.kind = .searchedCase)
    (hresults : Operands clock n "results" results)
    (hdefault : Operand clock n "default" default) :
    DataType.highestPrecedence ((n.held "results" ++ n.held "default").filterMap
      Node.dataType?) = n.dataType? := by
  obtain ⟨ys, hys, -⟩ := hresults
  obtain ⟨z, hz, -⟩ := hdefault
  have hrule : n.kind.TypedBy (Rules.commonType ["results", "default"]) := by
    rcases hk with hk | hk <;> (rw [hk]; exact ⟨_, rfl⟩)
  have hv : n.kind.validator? "results" = some (.sameLengthAs "cases")
      ∧ n.kind.validator? "default" = some .value := by
    rcases hk with hk | hk <;> (rw [hk]; exact ⟨rfl, rfl⟩)
  have hcommon := h.type_common hrule (by decide)
  rw [List.flatMap_cons, List.flatMap_cons, List.flatMap_nil, List.append_nil,
    h.nodesIn_eq hv.1 hys, h.nodesIn_of_child hv.2 hz] at hcommon
  rwa [Node.held_of_childList hys, Node.held_of_child hz]

end Engine

open Column in
/-- A case takes in each row the result beside the first condition whose slot holds true,
or the default, in the type that it is declared with. Unless a condition strays in the row,
this is the first condition that is true. A condition that the base equals a value is never
true where one of the two is null. -/
theorem first_match {clock : Engine.Clock} {n : Node} {e : Expr} {s : DataType} (h : n.Built)
    (hk : n.kind = .simpleCase ∨ n.kind = .searchedCase) (hs : n.dataType? = some s)
    (he : Engine.Compiled clock n e) :
    ∃ conditions results default, Engine.Conditions clock n conditions
      ∧ Engine.Operands clock n "results" results
      ∧ Engine.Operand clock n "default" default ∧ conditions.length = results.length
      ∧ ∀ b out, e.evaluate b = .ok out →
        ∃ cols dc, Engine.Evaluated b (conditions.zip results) default cols dc
        ∧ Covers (Engine.caseHeights b cols dc) out.length
        ∧ (∀ (base : Expr) (cases : List Expr), conditions = cases.map base.equals →
          Engine.TellsEqual b base cases cols)
        ∧ (Node.AllStored (n.held "results" ++ n.held "default") (cols.map (·.2) ++ [dc]) →
          out.Stores s ∧ ∀ i < out.length,
            Converts (picked Cell.boolContent cols dc i).type (.ofLogical s)
                ((picked Cell.boolContent cols dc i).row i) (out.row i)
              ∧ ((∀ x ∈ cols, (x.1.row i).strays = false) →
                picked Cell.boolContent cols dc i = picked Cell.isTrue cols dc i)) := by
  obtain ⟨conditions, results, default, hconditions, hresults, hdefault, hlength, rfl⟩ :=
    Engine.compiled_case h hk he
  refine ⟨conditions, results, default, hconditions, hresults, hdefault, hlength,
    fun b out hout => ?_⟩
  obtain ⟨cols, dc, hcols, hcovers, -, hall⟩ := Engine.firstCase_eq_ok hout
  refine ⟨cols, dc, hcols, hcovers, ?_, fun hstored => ?_⟩
  · rintro base cases rfl
    exact hcols.tellsEqual hlength
  · obtain ⟨hstores, hrows⟩ :=
      hall _ s hstored ((Engine.case_type h hk hresults hdefault).trans hs)
    exact ⟨hstores, fun i hi => ⟨(hrows i hi).2, picked_of_not_strays⟩⟩

open Column in
/-- A condition that is false, one that is true and one that is null. -/
theorem first_match_searched :
    ∃ (source p yes no n : Node) (e : Expr) (b : Batch) (out : Column)
    (cols : List (Column × Column)) (dc : Column),
      Node.databaseTable "t" ⟨[⟨"p", .boolean, true⟩]⟩ = .ok source
        ∧ Node.column source "p" = .ok p
        ∧ yes = Node.literal (.int64 1) ∧ no = Node.literal .null
        ∧ Node.build .searchedCase [.seq [.node p], .seq [.node yes], .node no] [] = .ok n
        ∧ n.dataType? = some .int64
        ∧ Engine.Compiled ⟨0⟩ n e
        ∧ b = ⟨3, [("p", ⟨.boolean, [.bool false, .bool true, .null]⟩)]⟩
        ∧ e.evaluate b = .ok out
        ∧ cols = [(⟨.boolean, [.bool false, .bool true, .null]⟩,
          ⟨.int64, [.int 1, .int 1, .int 1]⟩)]
        ∧ dc = ⟨.null, [.null, .null, .null]⟩ ∧ out.Stores .int64
        ∧ ∀ i < out.length,
          Converts (picked Cell.isTrue cols dc i).type .int64
            ((picked Cell.isTrue cols dc i).row i) (out.row i) := by
  obtain ⟨source, p, n, e, out, ⟨hsource, hp, hn, hs⟩, ⟨he, hep, heyes, heno, hout⟩,
      ⟨hkind, hcases, hresults, hdefault⟩, hheld, hyest, hnot⟩ :
      ∃ (source p n : Node) (e : Expr) (out : Column),
        (Node.databaseTable "t" ⟨[⟨"p", .boolean, true⟩]⟩ = .ok source
          ∧ Node.column source "p" = .ok p
          ∧ Node.build .searchedCase
            [.seq [.node p], .seq [.node (Node.literal (.int64 1))],
              .node (Node.literal .null)] []
              = .ok n ∧ n.dataType? = some .int64)
          ∧ (Engine.Compiled ⟨0⟩ n e ∧ Engine.Compiled ⟨0⟩ p (.column "p")
            ∧ Engine.Compiled ⟨0⟩ (Node.literal (.int64 1)) (.literal (.int64 1) .int64)
            ∧ Engine.Compiled ⟨0⟩ (Node.literal .null) (.literal .null .null)
            ∧ e.evaluate ⟨3, [("p", ⟨.boolean, [.bool false, .bool true, .null]⟩)]⟩
              = .ok out)
          ∧ (n.kind = .searchedCase ∧ n.childList "cases" = .ok [p]
            ∧ n.childList "results" = .ok [Node.literal (.int64 1)]
            ∧ n.child "default" = .ok (Node.literal .null))
          ∧ n.held "results" ++ n.held "default"
            = [Node.literal (.int64 1), Node.literal .null]
          ∧ (Node.literal (.int64 1)).dataType? = some .int64
              ∧ (Node.literal .null).dataType? = some .null :=
    ⟨_, _, _, _, _, ⟨rfl, rfl, rfl, rfl⟩, ⟨rfl, rfl, rfl, rfl, rfl⟩,
      ⟨rfl, rfl, rfl, rfl⟩, rfl, rfl, rfl⟩
  have bp := Node.built_column (Node.built_databaseTable hsource) hp
  have bn : n.Built := .of_build hn (by
    simp only [Arg.nodesOfItems, Arg.nodes, List.append_nil, List.cons_append,
      List.nil_append, List.forall_mem_cons, List.not_mem_nil, false_imp_iff,
      implies_true, and_true]
    exact ⟨bp, .literal _, .literal _⟩) (by simp [Arg.nodesOfFields])
  obtain ⟨conditions, results, default, hconditions, hres, hdef, -, hall⟩ :=
    first_match bn (.inr hkind) hs he
  obtain rfl : conditions = [.column "p"] := by
    rcases hconditions with ⟨-, hconditions⟩ | ⟨hsimple, -⟩
    · exact hconditions.unique hcases (.cons hep .nil)
    · rw [hkind] at hsimple
      cases hsimple
  obtain rfl := hres.unique hresults (.cons heyes .nil)
  obtain rfl := hdef.unique hdefault heno
  obtain ⟨pc, rc, dc, hpc, hrc, hdc⟩ :
      ∃ pc rc dc : Column, pc = ⟨.boolean, [.bool false, .bool true, .null]⟩
      ∧ rc = ⟨.int64, [.int 1, .int 1, .int 1]⟩ ∧ dc = ⟨.null, [.null, .null, .null]⟩ :=
        ⟨_, _, _, rfl, rfl, rfl⟩
  obtain ⟨b, hb⟩ : ∃ b : Batch, b = ⟨3, [("p", pc)]⟩ := ⟨_, rfl⟩
  obtain ⟨hpeval, hreval, hdeval⟩ : (Expr.column "p").evaluate b = .ok pc
      ∧ (Expr.literal (.int64 1) .int64).evaluate b = .ok rc
      ∧ (Expr.literal .null .null).evaluate b = .ok dc := by
    subst hb hrc hdc
    exact ⟨rfl, rfl, rfl⟩
  have hevaluate : e.evaluate b = .ok out := by rw [hb, hpc, hout]
  obtain ⟨cols, dc', ⟨hbranches, hdefault'⟩, hcovers, -, hrows⟩ := hall b out hevaluate
  -- The columns of the case are those that its parts evaluate to.
  obtain ⟨⟨pc', rc'⟩, _, ⟨hp', hr'⟩, hnil, rfl⟩ := List.forall₂_cons_left_iff.1 hbranches
  cases hnil
  obtain rfl : pc = pc' := Except.ok.inj (hpeval.symm.trans hp')
  obtain rfl : rc = rc' := Except.ok.inj (hreval.symm.trans hr')
  obtain rfl : dc = dc' := Except.ok.inj (hdeval.symm.trans hdefault')
  have hstored : Node.AllStored (n.held "results" ++ n.held "default") [rc, dc] := by
    rw [hheld, hrc, hdc]
    exact .cons ⟨_, hyest, rfl, by unfold Column.Typed; decide⟩
      (.cons ⟨_, hnot, rfl, by unfold Column.Typed; decide⟩ .nil)
  obtain ⟨hstores, hpicked⟩ := hrows hstored
  have hspan : pc.Spans out.length := by
    have hrows : b.rows = out.length ∨ b.rows = 1 := hcovers.2 b.rows (List.mem_cons_self)
    rw [hb] at hrows
    rw [hpc]
    exact hrows
  have hcalm : ∀ cell ∈ pc.cells, cell.strays = false := by
    rw [hpc]
    decide
  refine ⟨source, p, _, _, n, e, b, out, [(pc, rc)], dc, hsource, hp, rfl, rfl, hn, hs, he,
    by rw [hb, hpc], hevaluate, by rw [hpc, hrc], hdc, hstores, fun i hi => ?_⟩
  obtain ⟨hconverts, hsame⟩ := hpicked i hi
  rw [hsame (List.forall_mem_singleton.2 (hcalm _ (row_mem hspan hi)))] at hconverts
  exact hconverts

/-- A null base is taken for zero, and a null text for the empty one. -/
theorem first_match_strayed :
    ∃ source a t zero empty hit other first second x y n : Node,
      Node.databaseTable "t" ⟨[⟨"a", .int64, true⟩, ⟨"t", .string, true⟩]⟩ = .ok source
        ∧ Node.column source "a" = .ok a ∧ Node.column source "t" = .ok t
        ∧ zero = Node.literal (.int64 0) ∧ empty = Node.literal (.string "")
        ∧ hit = Node.literal (.string "hit")
        ∧ other = Node.literal (.string "other")
        ∧ Node.build .simpleCase [.node a, .seq [.node zero], .seq [.node hit],
          .node other] [] = .ok first
        ∧ Node.build .simpleCase [.node t, .seq [.node empty], .seq [.node hit],
          .node other] [] = .ok second
        ∧ Node.rename (.node first) "x" = .ok x ∧ Node.rename (.node second) "y" = .ok y
        ∧ Node.build .selection [.node source]
          [("selections", .seq [.node x, .node y])] = .ok n
        ∧ Engine.execute {} ⟨0⟩ n
          ⟨[("t", ⟨1, [("a", ⟨.int64, [.null]⟩), ("t", ⟨.text, [.null]⟩)]⟩)], {}⟩
          = .ok ⟨1, [("x", ⟨.text, [.text "hit"]⟩), ("y", ⟨.text, [.text "hit"]⟩)]⟩ := by
  refine ⟨_, _, _, _, _, _, _, _, _, _, _, _, rfl, rfl, rfl, rfl, rfl, rfl, rfl, rfl, rfl,
    rfl, rfl, rfl, ?_⟩
  with_unfolding_all decide

end TypedQuery
