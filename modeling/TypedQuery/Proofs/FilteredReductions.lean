import TypedQuery.Proofs.Columnar.Heights
import TypedQuery.Proofs.Columnar.Reduced
import TypedQuery.Proofs.Sql.Meaning

/-!
# Filtered reductions

The engine takes the rows away that a filter does not let through. In SQL they are made
null instead, by a case with null beside it. A reduction cannot tell the two apart, so
what is left to compare is which rows are taken: the filter takes those whose condition is
true, and the conditional those whose slot holds true, also beneath a null. A condition
that is null over such a slot is said to stray. The two ways agree if there is nothing to
reduce wherever the condition strays, and since each row with something in it counts as
one, the counts agree only then.
-/

namespace TypedQuery

/-- A condition that is null although its slot holds true. -/
def Cell.strays (cell : Cell) : Bool := cell.isNull && cell.boolContent

theorem Cell.boolContent_eq (cell : Cell) :
    cell.boolContent = (cell.isTrue || cell.strays) := by
  cases cell with
  | missing r => rfl
  | bool b => cases b <;> rfl
  | _ => rfl

/-- The reductions of an operand, each of which takes a condition. -/
def NodeKind.filterable : List NodeKind :=
  [.count, .countDistinct, .sum, .mean, .min, .max, .approxMedian, .standardDev,
    .variance, .arrayCollect]

/-- The other node reduces without a condition, and in the same way, the case that gives
the operand where the condition of the node holds, and null elsewhere. -/
def Node.RewrittenAs (n m : Node) : Prop :=
  n.kind ∈ NodeKind.filterable ∧ m.kind = n.kind ∧ n.stringField "how" = m.stringField "how"
    ∧ ∃ e w z d, n.child "arg" = .ok e ∧ n.child? "where" = some w ∧ m.child "arg" = .ok z
      ∧ m.child? "where" = none
      ∧ z.kind = .searchedCase ∧ z.childList "cases" = .ok [w]
      ∧ z.childList "results" = .ok [e]
      ∧ z.child "default" = .ok d ∧ d.kind = .literal ∧ d.literal? = some .null

namespace Column

variable {c : Column} {mask : List Cell}

/-- The rows that a condition takes, and that have something in them. -/
def taken (takes : Cell → Bool) (cells mask : List Cell) : List (Cell × Cell) :=
  (cells.zip mask).filter fun p => takes p.2 && !p.1.isNull

/-- The column with null in the rows that a condition does not choose. -/
def blanked (c : Column) (mask : List Cell) : Column :=
  ⟨c.type, List.zipWith (fun cell m => if m.boolContent then cell else .null) c.cells mask⟩

/-! ## Taking rows away and making them null -/

theorem present_keep (takes : Cell → Bool) (c : Column) (mask : List Cell) :
    (c.keep (mask.map takes)).present = (taken takes c.cells mask).map (·.1) := by
  simp only [present, keep, taken, List.zip_map_right, List.filter_map, List.map_map,
    List.filter_filter, Function.comp_def, Prod.map_fst, Prod.map_snd, id_eq, Bool.and_comm]

theorem present_blanked (c : Column) (mask : List Cell) :
    (c.blanked mask).present = (taken Cell.boolContent c.cells mask).map (·.1) := by
  obtain ⟨t, cells⟩ := c
  unfold present blanked taken
  dsimp only
  induction cells generalizing mask with
  | nil => rfl
  | cons cell cells ih =>
      cases mask with
      | nil => rfl
      | cons m mask =>
          rw [List.zipWith_cons_cons, List.zip_cons_cons, List.filter_cons,
            List.filter_cons, ih]
          cases hm : m.boolContent with
          | true => cases hcell : cell.isNull <;> simp [hcell]
          | false => simp [Cell.isNull, Cell.null]

/-- Where the condition does not hold, the conditional with null beside it makes the cell
null. -/
theorem select_nulls {n : Nat} (hc : c.length = n) (hmask : mask.length = n) :
    select (mask.map Cell.boolContent) c (nulls c.type n) = .ok (c.blanked mask) := by
  have hnulls : (nulls c.type n).length = n := List.length_replicate
  have hbools : (bools ((mask.map Cell.boolContent).map some)).length = n := by
    simp [bools, length, hmask]
  have hrows :
      max (mask.map Cell.boolContent).length (max c.length (nulls c.type n).length) = n := by
    rw [hc, hnulls, List.length_map, hmask, Nat.max_self, Nat.max_self]
  have hcoerce : coerce c (nulls c.type n) = .ok (c, nulls c.type n) := by
    simp [coerce, commonType, Column.cast, nulls, bind, Except.bind]
  have hmasked : (bools ((mask.map Cell.boolContent).map some)).cells.map Cell.isTrue
      = mask.map Cell.boolContent := by
    simp [bools, Function.comp_def, Cell.ofOption, Cell.isTrue]
  have hchoose : ∀ (cells mask : List Cell),
      choose (mask.map Cell.boolContent) cells (List.replicate cells.length .null)
        = List.zipWith (fun cell m => if m.boolContent then cell else .null) cells mask := by
    intro cells
    induction cells with
    | nil => intro mask; cases mask <;> rfl
    | cons cell cells ih =>
        intro mask
        cases mask with
        | nil => rfl
        | cons m mask =>
            rw [List.map_cons, List.length_cons, List.replicate_succ, choose, ih]; rfl
  unfold select
  dsimp only
  rw [hrows, Batch.broadcast_of_length hbools, hcoerce]
  simp only [bind, Except.bind, Batch.broadcast_of_length hc,
    Batch.broadcast_of_length hnulls, hmasked]
  rw [blanked, ← hchoose, show c.cells.length = n from hc]
  rfl

theorem taken_congr {cells mask : List Cell}
    (h : ∀ p ∈ cells.zip mask, p.2.strays = true → p.1.isNull = true) :
    taken Cell.isTrue cells mask = taken Cell.boolContent cells mask := by
  refine List.filter_congr fun p hp => ?_
  rw [Cell.boolContent_eq]
  cases hstrays : p.2.strays with
  | true => rw [h p hp hstrays, Bool.not_true, Bool.and_false, Bool.and_false]
  | false => rw [Bool.or_false]

/-- A condition takes as many rows in both ways only if no row strays that has something in
it. -/
theorem isNull_of_strays {cells mask : List Cell}
    (h : (taken Cell.isTrue cells mask).length
      = (taken Cell.boolContent cells mask).length) :
    ∀ p ∈ cells.zip mask, p.2.strays = true → p.1.isNull = true := by
  have hsub : (taken Cell.isTrue cells mask).Sublist
      (taken Cell.boolContent cells mask) := by
    refine List.monotone_filter_right _ fun p hp => ?_
    obtain ⟨htrue, hfilled⟩ := Bool.and_eq_true_iff.1 hp
    rw [Cell.boolContent_eq, htrue, hfilled]
    rfl
  intro p hp hstrays
  by_contra hfilled
  have hmem : p ∈ taken Cell.boolContent cells mask := by
    refine List.mem_filter.2 ⟨hp, ?_⟩
    rw [Cell.boolContent_eq, hstrays, Bool.or_true, Bool.true_and, Bool.not_eq_true',
      ← Bool.not_eq_true]
    exact hfilled
  rw [← hsub.eq_of_length h] at hmem
  obtain ⟨htrue, -⟩ := Bool.and_eq_true_iff.1 (List.mem_filter.1 hmem).2
  obtain ⟨hnull, -⟩ := Bool.and_eq_true_iff.1 hstrays
  cases hm : p.2 <;> rw [hm] at htrue hnull
    <;> simp [Cell.isTrue, Cell.isNull] at htrue hnull

end Column

namespace Expr

variable {b : Batch} {e w : Expr} {t : DataType} {c x y : Column}
    {mask : List Cell} {f : Reduction}

/-- What a reduction with a filter reduces. -/
theorem reduce_filtered_eq_ok (hc : e.evaluate b = .ok c)
    (hmask : (w.evaluate b >>= (·.asPredicate b.rows)) = .ok mask)
    (h : Expr.evaluate b (.reduce f e (some w)) = .ok x) :
    b.rows ≤ c.length ∧ f.apply (c.keep (mask.map Cell.isTrue)) = .ok x := by
  obtain ⟨c', hc', h⟩ := bind_eq_ok.1 h
  cases hc.symm.trans hc'
  obtain ⟨p, hp, hmask⟩ := bind_eq_ok.1 hmask
  obtain ⟨p', hp', h⟩ := bind_eq_ok.1 h
  cases hp.symm.trans hp'
  obtain ⟨mask', hmask', h⟩ := bind_eq_ok.1 h
  cases hmask.symm.trans hmask'
  obtain ⟨kept, hkept, h⟩ := bind_eq_ok.1 h
  unfold Column.filter at hkept
  split at hkept
  · cases hkept
  · next hlength =>
      cases hkept
      rw [Column.length_asPredicate hmask] at hlength
      exact ⟨Nat.le_of_not_lt hlength, h⟩

/-- What a reduction of the conditional reduces. -/
theorem reduce_conditional_eq_ok (hc : e.evaluate b = .ok c)
    (hmask : (w.evaluate b >>= (·.asPredicate b.rows)) = .ok mask)
    (hlength : c.length = b.rows) (ht : Physical.ofLogical t = c.type)
    (h : Expr.evaluate b (.reduce f (.choose w e (.literal .null t)) none) = .ok y) :
    f.apply (c.blanked mask) = .ok y := by
  obtain ⟨d, hd, h⟩ := bind_eq_ok.1 h
  obtain ⟨p, hp, hmask⟩ := bind_eq_ok.1 hmask
  obtain ⟨p', hp', hd⟩ := bind_eq_ok.1 hd
  cases hp.symm.trans hp'
  obtain ⟨mask', hmask', hd⟩ := bind_eq_ok.1 hd
  cases hmask.symm.trans hmask'
  obtain ⟨c', hc', hd⟩ := bind_eq_ok.1 hd
  cases hc.symm.trans hc'
  have hnulls : Expr.evaluate b (.literal .null t) = .ok (Column.nulls c.type b.rows) := by
    rw [← ht]
    rfl
  rw [hnulls] at hd
  have hselect := Column.select_nulls hlength (Column.length_asPredicate hmask)
  cases hselect.symm.trans hd
  exact h

theorem sameData_of_filtered (hb : b.Rectangular) (he : e.aggregateFree = true)
    (hc : e.evaluate b = .ok c) (hnull : c.type ≠ .null) (ht : Physical.ofLogical t = c.type)
    (hmask : (w.evaluate b >>= (·.asPredicate b.rows)) = .ok mask)
    (hx : Expr.evaluate b (.reduce f e (some w)) = .ok x)
    (hy : Expr.evaluate b (.reduce f (.choose w e (.literal .null t)) none) = .ok y) :
    ((∀ p ∈ c.cells.zip mask, p.2.strays = true → p.1.isNull = true) → x.SameData y)
      ∧ (f = .count → x.SameData y → ∀ p ∈ c.cells.zip mask, p.2.strays = true →
        p.1.isNull = true) := by
  obtain ⟨hheight, hx⟩ := reduce_filtered_eq_ok hc hmask hx
  have hlength : c.length = b.rows := Nat.le_antisymm (atMost_evaluate hb e he c hc) hheight
  have hy := reduce_conditional_eq_ok hc hmask hlength ht hy
  refine ⟨fun h => ?_, ?_⟩
  · have hkept : (c.keep (mask.map Cell.isTrue)).type ≠ .null := hnull
    have hpresent : (c.keep (mask.map Cell.isTrue)).present = (c.blanked mask).present := by
      rw [Column.present_keep, Column.present_blanked, Column.taken_congr h]
    have htype : (c.keep (mask.map Cell.isTrue)).type = (c.blanked mask).type := rfl
    exact Reduction.apply_sameData htype hkept hpresent f hx hy
  · rintro rfl hsame
    refine Column.isNull_of_strays ?_
    cases hx
    cases hy
    have hkept :=
      Reduction.filledCells_eq_present (show (c.keep
        (mask.map Cell.isTrue)).type ≠ .null from hnull)
    have hblanked :=
      Reduction.filledCells_eq_present (show (c.blanked mask).type ≠ .null from hnull)
    have hcount := hsame.2
    rw [hkept, hblanked, Column.present_keep, Column.present_blanked] at hcount
    simp only [Reduction.oneInt, Reduction.single, List.map_singleton, Cell.bare,
      List.cons.injEq, Cell.int.injEq, and_true, List.length_map] at hcount
    exact Int.ofNat.inj hcount

end Expr

namespace Sql

open Emission

variable {n m z e w d : Node} {s : Statement}

/-! ## The texts of reductions -/

/-- The text of an operand that is filtered, from the texts of its parts. -/
def filteredText (arg condition : Except Error String) : Except Error String := do
  let arg ← arg
  let condition ← condition
  .ok ("CASE WHEN " ++ condition ++ " THEN " ++ arg ++ " ELSE NULL END")

theorem filteredArg_of_where (harg : n.child "arg" = .ok e)
    (hwhere : n.child? "where" = some w) :
    filteredArg (answered s) n
      = liftM (filteredText (rules.answer s e) (rules.answer s w)) := by
  rw [filteredArg, field_of_child harg, field?_of_child? hwhere]
  cases rules.answer s e <;> cases rules.answer s w <;> rfl

theorem filteredArg_of_none (harg : n.child "arg" = .ok e)
    (hwhere : n.child? "where" = none) :
    filteredArg (answered s) n = liftM (rules.answer s e) := by
  rw [filteredArg, field_of_child harg, field?, hwhere]
  cases rules.answer s e <;> rfl

/-- A case of one condition with null beside it. -/
theorem answer_searchedCase (h : z.Built) (hkind : z.kind = .searchedCase)
    (hcases : z.childList "cases" = .ok [w]) (hresults : z.childList "results" = .ok [e])
    (hdefault : z.child "default" = .ok d) (hnull : rules.answer s d = .ok "NULL")
    (text : String) :
    rules.answer s z = .ok text
      ↔ filteredText (rules.answer s e) (rules.answer s w) = .ok text := by
  have hresolve : rules.resolve z.kind
    = .ok (.searchedCase, fun emit n => caseText emit n "") := by rw [hkind]; rfl
  have htext (condition arg : String) :
      "CASE" ++ "" ++ (" WHEN " ++ condition ++ " THEN " ++ arg ++ "") ++ " ELSE "
      ++ "NULL" ++ " END"
          = "CASE WHEN " ++ condition ++ " THEN " ++ arg ++ " ELSE NULL END" := by
    simp [← String.toList_inj]
  rw [answer_of_resolve ⟨h, .inl (by rw [hkind]; rfl)⟩ hresolve, caseText,
    sequence_of_one hcases, sequence_of_one hresults, field_of_child hdefault,
    hnull, filteredText]
  cases rules.answer s e with
  | error err => cases rules.answer s w <;> exact ⟨nofun, nofun⟩
  | ok arg =>
      cases rules.answer s w with
      | error err => exact ⟨nofun, nofun⟩
      | ok condition =>
          show Except.ok _ = Except.ok text ↔ Except.ok _ = Except.ok text
          rw [← htext]
          exact Iff.rfl

/-- What the rule writes of a node is something around the text of its operand. -/
def Encloses (rule : SqlRule) : Prop :=
  ∃ enclose : Except Error String → Except Error (String → String), ∀ (s : Statement)
    (n : Node) (arg : Except Error String), filteredArg (answered s) n = liftM arg →
      ((rule (answered s) n).run ⟨s, none⟩).1 = (do
      let around ← enclose (n.stringField "how")
      let text ← arg
      .ok (around text))

theorem reductionRule_encloses (name : String) : Encloses (reductionRule name) := by
  refine ⟨fun _ => .ok fun text => call name [text], fun s n arg h => ?_⟩
  rw [reductionRule, h]
  cases arg <;> rfl

theorem countDistinctRule_encloses : Encloses countDistinctRule := by
  refine ⟨fun _ => .ok fun text => "count(DISTINCT " ++ text ++ ")", fun s n arg h => ?_⟩
  rw [countDistinctRule, h]
  cases arg <;> rfl

theorem deviationRule_encloses (name : String) : Encloses (deviationRule name) := by
  refine ⟨fun how => how.map fun how text =>
    call (name ++ (if how = "pop" then "_pop" else "_samp")) [text], fun s n arg h => ?_⟩
  rw [deviationRule, h]
  cases n.stringField "how" <;> cases arg <;> rfl

theorem encloses_of_filterable {kind : NodeKind} (h : kind ∈ NodeKind.filterable) :
    ∃ k rule, rules.resolve kind = .ok (k, rule) ∧ Encloses rule := by
  simp only [NodeKind.filterable, List.mem_cons, List.not_mem_nil, or_false] at h
  rcases h with rfl | rfl | rfl | rfl | rfl | rfl | rfl | rfl | rfl | rfl
  · exact ⟨_, _, rfl, reductionRule_encloses _⟩
  · exact ⟨_, _, rfl, countDistinctRule_encloses⟩
  · exact ⟨_, _, rfl, reductionRule_encloses _⟩
  · exact ⟨_, _, rfl, reductionRule_encloses _⟩
  · exact ⟨_, _, rfl, reductionRule_encloses _⟩
  · exact ⟨_, _, rfl, reductionRule_encloses _⟩
  · exact ⟨_, _, rfl, reductionRule_encloses _⟩
  · exact ⟨_, _, rfl, deviationRule_encloses _⟩
  · exact ⟨_, _, rfl, deviationRule_encloses _⟩
  · exact ⟨_, _, rfl, reductionRule_encloses _⟩

/-- A reduction with a condition is written as the reduction of a case with null beside it.
-/
theorem compile_rewritten (hn : n.Built) (hm : m.Built) (h : n.RewrittenAs m)
    (config : Config) (text : String) :
    compile config n = .ok text ↔ compile config m = .ok text := by
  obtain ⟨hkind, hsame, hhow, e, w, z, d, harg, hwhere, harg', hwhere', hcase, hcases,
    hresults, hdefault, hnull⟩ := h
  have hz : z.Built := hm.of_child harg'
  have hd : d.Built := hz.of_child hdefault
  obtain ⟨k, rule, hresolve, enclose, henclose⟩ := encloses_of_filterable hkind
  have hvalue : n.kind.isValue = true := by
    have h : ∀ kind ∈ NodeKind.filterable, kind.isValue = true := by
      set_option maxRecDepth 2000 in decide
    exact h _ hkind
  have hnull : rules.answer { config := config.sql } d = .ok "NULL" := by
    obtain ⟨k, hresolve⟩ : ∃ k, rules.resolve d.kind = .ok (k, literalRule) := by
      rw [hnull.1]
      exact ⟨_, rfl⟩
    rw [answer_of_resolve ⟨hd, .inl (by rw [hnull.1]; rfl)⟩ hresolve]
    unfold literalRule
    rw [hnull.2]
    rfl
  rw [compile_eq_answer hn, compile_eq_answer hm,
    answer_of_resolve ⟨hn, .inl hvalue⟩ hresolve,
    answer_of_resolve ⟨hm, .inl (hsame ▸ hvalue)⟩ (hsame ▸ hresolve),
    henclose _ n _ (filteredArg_of_where harg hwhere),
    henclose _ m _ (filteredArg_of_none harg' hwhere'), hhow]
  refine bind_eq_ok.trans (Iff.trans ?_ bind_eq_ok.symm)
  refine exists_congr fun around => and_congr_right fun _ => ?_
  refine bind_eq_ok.trans (Iff.trans ?_ bind_eq_ok.symm)
  exact exists_congr fun arg =>
    and_congr_left fun _ =>
      (answer_searchedCase hz hcase hcases hresults hdefault hnull arg).symm

end Sql

/-- A reduction with a filter gives what the reduction of the conditional with null beside
it gives, as long as no row in which there is something to reduce has a condition that is
null over a slot that holds true; and the counts are the same only then. In the text of SQL
there is no difference. -/
theorem filtered_reductions (f : Reduction) (e w : Expr) (t : DataType)
    (b : Batch) (n m : Node) :
    (∀ (c x y : Column) (mask : List Cell), b.Rectangular → e.aggregateFree = true →
      e.evaluate b = .ok c → c.type ≠ .null → Physical.ofLogical t = c.type →
      (w.evaluate b >>= (·.asPredicate b.rows)) = .ok mask →
      Expr.evaluate b (.reduce f e (some w)) = .ok x →
      Expr.evaluate b (.reduce f (.choose w e (.literal .null t)) none) = .ok y →
        ((∀ p ∈ c.cells.zip mask, p.2.strays = true → p.1.isNull = true) → x.SameData y)
        ∧ (f = .count → x.SameData y →
          ∀ p ∈ c.cells.zip mask, p.2.strays = true → p.1.isNull = true))
      ∧ (n.Built → m.Built → n.RewrittenAs m → ∀ (config : Config) (text : String),
          Sql.compile config n = .ok text ↔ Sql.compile config m = .ok text) :=
  ⟨fun _ _ _ _ hb he hc hnull ht hmask hx hy =>
    Expr.sameData_of_filtered hb he hc hnull ht hmask hx hy,
      fun hn hm h => Sql.compile_rewritten hn hm h⟩

/-- A row whose condition is null counts in neither sum. -/
theorem filtered_reductions_sum :
    ∃ (b : Batch) (e w : Expr) (x y : Column) (condition n z m : Node),
      b = ⟨3, [("a", ⟨.int64, [.int 1, .null, .int 0]⟩),
        ("x", ⟨.int64, [.int 7, .int 8, .int 9]⟩)]⟩
        ∧ e = .column "x"
        ∧ w = .binary (.column "a") (.compare .greaterEqual) (.literal (.int64 1) .int64)
        ∧ Expr.evaluate b (.reduce .sum e (some w)) = .ok x
        ∧ Expr.evaluate b (.reduce .sum (.choose w e (.literal .null .int64)) none) = .ok y
        ∧ x = ⟨.int64, [.int 7]⟩ ∧ x.SameData y
        ∧ Node.build .greater [.value (.int64 2), .value (.int64 1)] [] = .ok condition
        ∧ Node.build .sum [.value (.int64 5)] [("where", .node condition)] = .ok n
        ∧ Node.build .searchedCase [.seq [.node condition], .seq [.value (.int64 5)],
          .value .null] [] = .ok z
        ∧ Node.build .sum [.node z] [] = .ok m
        ∧ n.RewrittenAs m
        ∧ Sql.compile {} m = .ok "sum(CASE WHEN (2 > 1) THEN 5 ELSE NULL END)" := by
  obtain ⟨b, e, w, hb, he, hw, hmask, hx, hy⟩ : ∃ (b : Batch) (e w : Expr),
      b = ⟨3, [("a", ⟨.int64, [.int 1, .null, .int 0]⟩),
        ("x", ⟨.int64, [.int 7, .int 8, .int 9]⟩)]⟩
        ∧ e = .column "x"
        ∧ w = .binary (.column "a") (.compare .greaterEqual) (.literal (.int64 1) .int64)
        ∧ (w.evaluate b >>= (·.asPredicate b.rows))
          = .ok [.bool true, .missing (.bool false), .bool false]
        ∧ Expr.evaluate b (.reduce .sum e (some w)) = .ok ⟨.int64, [.int 7]⟩
        ∧ Expr.evaluate b (.reduce .sum (.choose w e (.literal .null .int64)) none)
            = .ok ⟨.int64, [.int 7]⟩ := by
    refine ⟨_, _, _, rfl, rfl, rfl, ?_, ?_, ?_⟩
      <;> set_option maxRecDepth 2000 in with_unfolding_all decide
  obtain ⟨condition, n, z, m, hcondition, hn, hz, hm, hrewritten, htext⟩ :
      ∃ condition n z m : Node, Node.build .greater [.value (.int64 2), .value (.int64 1)]
        [] = .ok condition
        ∧ Node.build .sum [.value (.int64 5)] [("where", .node condition)] = .ok n
        ∧ Node.build .searchedCase [.seq [.node condition], .seq [.value (.int64 5)],
          .value .null] [] = .ok z
        ∧ Node.build .sum [.node z] [] = .ok m
        ∧ n.RewrittenAs m
        ∧ Sql.compile {} n = .ok "sum(CASE WHEN (2 > 1) THEN 5 ELSE NULL END)" := by
    refine ⟨_, _, _, _, rfl, rfl, rfl, rfl,
      ⟨?_, rfl, rfl, _, _, _, _, rfl, rfl, rfl, rfl, rfl, rfl, rfl, rfl, rfl, rfl⟩, ?_⟩
    · set_option maxRecDepth 2000 in with_unfolding_all decide
    · set_option maxRecDepth 2000 in with_unfolding_all decide
  have hbuilt : condition.Built :=
    .of_build hcondition (by simp [Arg.nodes, Arg.nodesOfItems])
      (by simp [Arg.nodesOfFields])
  have hbuiltN : n.Built :=
    .of_build hn (by simp [Arg.nodes, Arg.nodesOfItems])
      (by simpa [Arg.nodesOfFields, Arg.nodes] using hbuilt)
  have hbuiltZ : z.Built :=
    .of_build hz (by simpa [Arg.nodes, Arg.nodesOfItems] using hbuilt)
      (by simp [Arg.nodesOfFields])
  have hbuiltM : m.Built :=
    .of_build hm (by simpa [Arg.nodes, Arg.nodesOfItems] using hbuiltZ)
      (by simp [Arg.nodesOfFields])
  obtain ⟨hsame, htexts⟩ := filtered_reductions .sum e w .int64 b n m
  refine ⟨b, e, w, _, _, condition, n, z, m, hb, he, hw, hx, hy, rfl, ?_, hcondition, hn,
    hz, hm, hrewritten, (htexts hbuiltN hbuiltM hrewritten {} _).1 htext⟩
  have hrectangular : b.Rectangular := by
    subst hb
    decide
  have hc : e.evaluate b = .ok ⟨.int64, [.int 7, .int 8, .int 9]⟩ := by
    subst hb he
    rfl
  have haggregate : e.aggregateFree = true := by
    subst he
    rfl
  exact (hsame _ _ _ _ hrectangular haggregate hc nofun rfl hmask hx hy).1 (by decide)

/-- The comparison of a null with nought is null over a slot that holds true: the filter
leaves the row out, and the conditional takes it. -/
theorem filtered_reductions_strayed :
    ∃ (b : Batch) (w : Expr),
      b = ⟨1, [("a", ⟨.int64, [.null]⟩), ("x", ⟨.int64, [.int 7]⟩)]⟩
        ∧ w = .binary (.column "a") (.compare .greaterEqual) (.literal (.int64 0) .int64)
        ∧ w.evaluate b = .ok ⟨.boolean, [.missing (.bool true)]⟩
        ∧ Expr.evaluate b (.reduce .sum (.column "x") (some w)) = .ok ⟨.int64, [.null]⟩
        ∧ Expr.evaluate b
          (.reduce .sum (.choose w (.column "x") (.literal .null .int64)) none)
          = .ok ⟨.int64, [.int 7]⟩ := by
  refine ⟨_, _, rfl, rfl, ?_, ?_, ?_⟩
    <;> set_option maxRecDepth 2000 in with_unfolding_all decide

end TypedQuery
