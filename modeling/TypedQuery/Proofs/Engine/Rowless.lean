import TypedQuery.Proofs.Columnar.Uniform
import TypedQuery.Proofs.Emission.Run
import TypedQuery.Proofs.Engine.OwnTypes
import TypedQuery.Proofs.Engine.Safe
import TypedQuery.Proofs.Node.Shapes

/-!
# Scalar values on the engine

No rule but that for columns puts a column into an expression, so an expression reads rows
only where what is computed for an operand does. Reductions keep to themselves what their
operands read. A scalar value is therefore compiled to an expression that reads no rows.
-/

namespace TypedQuery.Engine

variable {clock : Clock} {n m : Node} {e : Expr}

/-- Whatever expression the step gives reads no rows. -/
abbrev GivesRowless : Lowering Expr → Prop := Gives fun e => e.rowless = true

/-- What is computed for the fields of a node reads no rows. -/
structure RowlessOperands (emit : Node → Lowering Lowered) (n : Node) : Prop where
  one : ∀ field, GivesRowless (expr emit n field)
  many : ∀ field, Gives (fun es => ∀ e ∈ es, e.rowless = true) (exprs emit n field)

/-- The rule gives an expression that reads no rows if what it is made of reads none. -/
def KeepsRowless (rule : EngineRule) : Prop :=
  ∀ emit n, RowlessOperands emit n →
    Gives (fun l => ∀ e, l = .expr e → e.rowless = true) (rule emit n)

theorem allRowless_iff {es : List Expr} :
    Expr.allRowless es = true ↔ ∀ e ∈ es, e.rowless = true := by
  induction es with
  | nil => simp [Expr.allRowless]
  | cons e rest ih => rw [Expr.allRowless, Bool.and_eq_true, ih, List.forall_mem_cons]

/-! ## The shapes of rules -/

section

variable {rule : (Node → Lowering Lowered) → Node → Lowering Expr}

theorem giving_rowless (h : ∀ emit n, RowlessOperands emit n → GivesRowless (rule emit n)) :
    KeepsRowless (giving rule) :=
  fun emit n hn => .bind (h emit n hn) fun e he => .pure fun e' he' => by cases he'; exact he

theorem ofOne_rowless {field : String} {make : Expr → Expr}
    (hmake : ∀ e, e.rowless = true → (make e).rowless = true) :
    KeepsRowless (giving fun emit n => return make (← expr emit n field)) :=
  giving_rowless fun _ _ hn => .bind (hn.one field) fun e he => .pure (hmake e he)

theorem ofAll_rowless {field : String} {make : List Expr → Expr}
    (hmake : ∀ es, Expr.allRowless es = true → (make es).rowless = true) :
    KeepsRowless (giving fun emit n => return make (← exprs emit n field)) :=
  giving_rowless fun _ _ hn => .bind (hn.many field) fun es hes =>
    .pure (hmake es (allRowless_iff.2 hes))

theorem callWith_rowless (read : Node → Except Error Function) (field : String) :
    KeepsRowless (callWith read field) :=
  giving_rowless fun emit n hn => .bind_any fun f =>
      .bind (hn.one field) fun e he => .pure (by
    rw [Expr.callOne, Expr.rowless, Expr.allRowless, he]
    rfl)

theorem exprsOf_rowless {emit : Node → Lowering Lowered} (hn : RowlessOperands emit n)
    (fields : List String) :
    Gives (fun es => Expr.allRowless es = true) (exprsOf emit n fields) := by
  induction fields with
  | nil => exact .pure rfl
  | cons field rest ih =>
      refine .bind (hn.one field) fun e he => .bind ih fun es hes => .pure ?_
      rw [Expr.allRowless, he, hes]
      rfl

theorem callOf_rowless (f : Function) (fields : List String) :
    KeepsRowless (callOf f fields) :=
  giving_rowless fun _ _ hn => .bind (exprsOf_rowless hn fields) fun _ hes => .pure hes

end

/-! ## Operators -/

theorem rowless_binary {l r : Expr} (op : BinaryOp) (hl : l.rowless = true)
    (hr : r.rowless = true) :
    (Expr.binary l op r).rowless = true := by
  rw [Expr.rowless, hl, hr]
  rfl

theorem rowless_choose {p a b : Expr} (hp : p.rowless = true) (ha : a.rowless = true)
    (hb : b.rowless = true) :
    (Expr.choose p a b).rowless = true := by
  rw [Expr.rowless, hp, ha, hb]
  rfl

theorem rowless_firstCase {default : Expr} {cases : List (Expr × Expr)}
    (hdefault : default.rowless = true)
    (hcases : ∀ c ∈ cases, c.1.rowless = true ∧ c.2.rowless = true) :
    (firstCase default cases).rowless = true := by
  induction cases with
  | nil => exact hdefault
  | cons c rest ih =>
      obtain ⟨hc, hrest⟩ := List.forall_mem_cons.1 hcases
      exact rowless_choose hc.1 hc.2 (ih hrest)

theorem rowless_zip {es fs : List Expr} (he : ∀ e ∈ es, e.rowless = true)
    (hf : ∀ f ∈ fs, f.rowless = true) :
    ∀ c ∈ es.zip fs, c.1.rowless = true ∧ c.2.rowless = true :=
  fun _ hc => ⟨he _ (List.of_mem_zip hc).1, hf _ (List.of_mem_zip hc).2⟩

theorem membership_rowless {emit : Node → Lowering Lowered} (hn : RowlessOperands emit n) :
    GivesRowless (membership emit n) := by
  refine .bind (hn.one _) fun e he => .bind (hn.many _) fun options hoptions => .pure ?_
  rw [Expr.rowless, he, allRowless_iff.2 hoptions]
  rfl

/-- The null that stands where two expressions are equal reads nothing. -/
theorem nullWhereEqual_rowless {e other : Expr} (he : e.rowless = true)
    (hother : other.rowless = true) :
    GivesRowless (liftM (nullWhereEqual n e other) : Lowering Expr) := by
  refine .lift fun out hout => ?_
  obtain ⟨null, hnull, hout⟩ := bind_eq_ok.1 hout
  obtain ⟨t, -, hnull⟩ := bind_eq_ok.1 hnull
  cases hnull
  cases hout
  exact rowless_choose (rowless_binary _ he hother) rfl he

theorem genericRules_rowless :
    ∀ x ∈ genericRules, x.1 ≠ .tableColumn → KeepsRowless x.2 := by
  have hliteral : KeepsRowless literalRule := by
    refine giving_rowless fun emit n _ => ?_
    split
    · exact .pure rfl
    · exact .error _
  have hrenamed : KeepsRowless aliasRule :=
    giving_rowless fun emit n hn => .bind (hn.one _) fun e he =>
      .lift_bind fun _ _ => .pure he
  have hcast : KeepsRowless castRule := by
    refine giving_rowless fun emit n hn => .lift_bind fun a _ => ?_
    split
    · exact .error _
    · exact .bind (hn.one _) fun e he => .pure he
  have hkey : KeepsRowless (giving fun emit n => expr emit n "expr") :=
    giving_rowless fun emit n hn => hn.one _
  have hlist : KeepsRowless fun emit n => return .exprs (← exprs emit n "values") :=
    fun emit n _ => .bind_any fun es => .pure fun e he => by cases he
  have hfill : KeepsRowless fillRule :=
    giving_rowless fun emit n hn => .bind (hn.one _) fun fill hfill =>
      .bind (hn.one _) fun e he => .pure (by
        rw [Expr.rowless, he, hfill]
        rfl)
  have hnullIf : KeepsRowless nullIfRule :=
    giving_rowless fun emit n hn => .bind (hn.one _) fun e he =>
      .bind (hn.one _) fun other hother =>
      nullWhereEqual_rowless he hother
  have hzero :
      KeepsRowless (giving fun emit n =>
        return .fillNull (← expr emit n "arg") (.ofInt 0)) :=
    ofOne_rowless fun e he => by rw [Expr.rowless, he]; rfl
  have hnullIfZero : KeepsRowless nullIfZeroRule :=
    giving_rowless fun emit n hn => .bind (hn.one _) fun e he =>
      nullWhereEqual_rowless he rfl
  have hcondition : KeepsRowless conditionRule :=
    giving_rowless fun emit n hn => .bind (hn.one _) fun p hp => .bind (hn.one _) fun a ha =>
      .bind (hn.one _) fun b hb => .pure (rowless_choose hp ha hb)
  have hsimple : KeepsRowless simpleCaseRule := by
    refine giving_rowless fun emit n hn => .bind (hn.one _) fun base hbase =>
      .bind (hn.many _) fun cases hcases => ?_
    refine .bind (hn.many _) fun results hresults =>
      .bind (hn.one _) fun default hdefault => .pure ?_
    refine rowless_firstCase hdefault (rowless_zip (fun e he => ?_) hresults)
    obtain ⟨case, hcase, rfl⟩ := List.mem_map.1 he
    exact rowless_binary _ hbase (hcases case hcase)
  have hsearched : KeepsRowless searchedCaseRule := by
    refine giving_rowless fun emit n hn => .bind (hn.many _) fun cases hcases => ?_
    refine .bind (hn.many _) fun results hresults =>
      .bind (hn.one _) fun default hdefault => .pure ?_
    exact rowless_firstCase hdefault (rowless_zip hcases hresults)
  have hbetween : KeepsRowless betweenRule :=
    giving_rowless fun emit n hn => .bind (hn.one _) fun e he =>
      .bind (hn.one _) fun low hlow =>
      .bind (hn.one _) fun high hhigh => .pure (by
        rw [Expr.rowless, he, hlow, hhigh]
        rfl)
  have hmember : KeepsRowless (giving membership) :=
    giving_rowless fun emit n hn => membership_rowless hn
  have hexcluded :
      KeepsRowless (giving fun emit n => return .unary .not (← membership emit n)) :=
    giving_rowless fun emit n hn => .bind (membership_rowless hn) fun e he => .pure he
  simp only [genericRules, List.forall_mem_cons]
  exact ⟨fun _ => hliteral, fun hne => absurd rfl hne, fun _ => hrenamed,
    fun _ => hcast, fun _ => hkey, fun _ => hlist, fun _ => hfill, fun _ => hnullIf,
    fun _ => hzero, fun _ => hnullIfZero, fun _ => hcondition, fun _ => hsimple,
    fun _ => hsearched, fun _ => hbetween, fun _ => hmember, fun _ => hexcluded,
    fun _ => ofAll_rowless fun _ hes => hes, fun _ => ofAll_rowless fun _ hes => hes,
    fun _ => ofAll_rowless fun _ hes => hes, fun _ hx => absurd hx List.not_mem_nil⟩

theorem onDoubles_rowless (op : BinaryOp) {emit : Node → Lowering Lowered}
    (hn : RowlessOperands emit n) :
    GivesRowless (onDoubles op emit n) :=
  .bind (hn.one _) fun _ hl => .bind (hn.one _) fun _ hr => .pure (rowless_binary op hl hr)

theorem operatorRules_rowless : ∀ x ∈ operatorRules, KeepsRowless x.2 := by
  have hunary : KeepsRowless unaryRule :=
    giving_rowless fun emit n hn => .bind_any fun op => .bind (hn.one _) fun e he => .pure he
  have hbinary : KeepsRowless binaryRule :=
    giving_rowless fun emit n hn => .bind_any fun op => .bind (hn.one _) fun l hl =>
      .bind (hn.one _) fun r hr =>
      .pure (rowless_binary op hl hr)
  have hdoubles (op : BinaryOp) : KeepsRowless (giving (onDoubles op)) :=
    giving_rowless fun emit n hn => onDoubles_rowless op hn
  have hfloor : KeepsRowless floorDivideRule :=
    giving_rowless fun emit n hn => .bind (onDoubles_rowless _ hn) fun e he =>
      .lift_bind fun _ _ => .pure he
  simp only [operatorRules, List.forall_mem_cons]
  exact ⟨hunary, hbinary, hdoubles _, hdoubles _, hfloor,
    fun _ hx => absurd hx List.not_mem_nil⟩

/-! ## Numbers -/

/-- Bounds are constants. -/
theorem rowless_of_constant? {field : String} {bound : Option Expr}
    (h : constant? n field = .ok bound) :
    ∀ e ∈ bound, e.rowless = true := by
  obtain ⟨v, -, h⟩ := bind_eq_ok.1 h
  split at h
  · cases h
    exact fun _ he => by cases he
  · cases h
    exact fun _ he => by cases he
  · cases h
    exact fun _ he => by cases he; rfl

theorem rowless_clipped {e : Expr} {lower upper : Option Expr} (he : e.rowless = true)
    (hlower : ∀ e ∈ lower, e.rowless = true) (hupper : ∀ e ∈ upper, e.rowless = true) :
    (atLeast (atMost e upper) lower).rowless = true := by
  have hmost : (atMost e upper).rowless = true := by
    cases upper with
    | none => exact he
    | some bound =>
        exact rowless_choose (rowless_binary _ he (hupper bound rfl)) (hupper bound rfl) he
  cases lower with
  | none => exact hmost
  | some bound =>
      exact rowless_choose (rowless_binary _ hmost (hlower bound rfl))
        (hlower bound rfl) hmost

theorem roundRule_rowless : KeepsRowless roundRule := by
  refine giving_rowless fun emit n hn => .bind (hn.one _) fun e he =>
    .lift_bind fun digits _ => ?_
  dsimp only
  split
  · exact .lift_bind fun _ _ => .pure he
  · refine .lift_bind fun scale _ => .lift_bind fun _ _ => .pure ?_
    exact rowless_binary (.arithmetic .divide)
      (rowless_binary (.arithmetic .multiply) (l := .cast e .float64) he rfl) rfl

theorem clipRule_rowless : KeepsRowless clipRule := by
  refine giving_rowless fun emit n hn => .bind (hn.one _) fun e he => ?_
  refine .lift_bind fun lower hlower => .lift_bind fun upper hupper => ?_
  have hclipped :=
    rowless_clipped he (rowless_of_constant? hlower) (rowless_of_constant? hupper)
  split
  · exact .error _
  · exact .lift_bind fun _ _ => .pure hclipped

theorem logarithmRule_rowless : KeepsRowless logarithmRule := by
  refine giving_rowless fun emit n hn => .bind (hn.one _) fun e he =>
    .lift_bind fun base _ => ?_
  split
  · exact .pure he
  · exact .pure he
  · split
    · exact .pure (rowless_binary (.arithmetic .divide) (l := .unary .ln e) he rfl)
    · exact .error _

theorem numericRules_rowless : ∀ x ∈ numericRules, KeepsRowless x.2 := by
  have hcot : KeepsRowless cotangentRule :=
    ofOne_rowless fun e he => rowless_binary _ (l := .unary .cos e)
      (r := .unary .sin e) he he
  have hscaled (factor : Float) : KeepsRowless (scaledRule factor) :=
    ofOne_rowless fun e he => rowless_binary _ (l := .cast e .float64) he rfl
  simp only [numericRules, List.forall_mem_cons]
  exact ⟨ofOne_rowless fun _ he => he, ofOne_rowless fun _ he => he, callOf_rowless _ _,
    hcot, hscaled _, hscaled _, roundRule_rowless, clipRule_rowless, logarithmRule_rowless,
    fun _ hx => absurd hx List.not_mem_nil⟩

/-- What a reduction is made of is its own affair. -/
theorem reductionRules_rowless : ∀ x ∈ reductionRules, ∀ emit n,
    Gives (fun l => ∀ e, l = .expr e → e.rowless = true) (x.2 emit n) := by
  have hreduced (f : Reduction) (emit : Node → Lowering Lowered) (n : Node) :
      GivesRowless (reduced f emit n) :=
    .bind_any fun e => .bind_any fun filter => .pure rfl
  have hgiving {step : Lowering Expr} (h : GivesRowless step) :
      Gives (fun l => ∀ e, l = .expr e → e.rowless = true)
          (do return Lowered.expr (← step)) :=
    .bind h fun e he => .pure fun e' he' => by cases he'; exact he
  simp only [reductionRules, List.forall_mem_cons]
  exact ⟨fun emit n => hgiving (.bind_any fun f => hreduced f emit n),
    fun emit n => hgiving (.bind_any fun how => hreduced _ emit n),
    fun emit n => hgiving (.bind_any fun how => hreduced _ emit n),
    fun emit n => hgiving (.bind_any fun filter => .pure rfl),
    fun _ hx => absurd hx List.not_mem_nil⟩

/-! ## Lists and texts -/

theorem listRules_rowless : ∀ x ∈ listRules, KeepsRowless x.2 := by
  have hconcat : KeepsRowless listConcatRule :=
    giving_rowless fun emit n hn => .lift_bind fun t _ => .bind (hn.one _) fun l hl =>
      .bind (hn.one _) fun r hr =>
      .pure (allRowless_iff.2 (List.forall_mem_cons.2 ⟨hl, List.forall_mem_singleton.2 hr⟩))
  have hcolumns : KeepsRowless listFromColumnsRule := by
    refine giving_rowless fun emit n hn => .lift_bind fun t _ =>
      .bind (hn.many _) fun items hitems => .pure ?_
    refine allRowless_iff.2 fun e he => ?_
    obtain ⟨item, hitem, rfl⟩ := List.mem_map.1 he
    exact hitems item hitem
  simp only [listRules, List.forall_mem_cons]
  exact ⟨callOf_rowless _ _, hconcat, hcolumns, fun _ hx => absurd hx List.not_mem_nil⟩

theorem textRules_rowless : ∀ x ∈ textRules, KeepsRowless x.2 := by
  have hlength : KeepsRowless lengthRule :=
    ofOne_rowless fun e he => allRowless_iff.2 (List.forall_mem_singleton.2 he)
  have hseparated : KeepsRowless separatedRule :=
    giving_rowless fun emit n hn => .lift_bind fun _ _ => .bind (hn.many _) fun es hes =>
      .pure (allRowless_iff.2 hes)
  simp only [textRules, List.forall_mem_cons]
  exact ⟨callWith_rowless _ _, hlength, ofAll_rowless fun _ hes => hes, hseparated,
    callWith_rowless _ _, callWith_rowless _ _, callWith_rowless _ _, callWith_rowless _ _,
    callWith_rowless _ _, callWith_rowless _ _, callWith_rowless _ _, callWith_rowless _ _,
    callWith_rowless _ _, callWith_rowless _ _, callWith_rowless _ _, callWith_rowless _ _,
    callWith_rowless _ _, callWith_rowless _ _, callWith_rowless _ _,
    fun _ hx => absurd hx List.not_mem_nil⟩

/-! ## Times -/

theorem rowless_shift {combine : Expr → Expr → Expr} (op : BinaryOp)
    (hcombine : ∀ a b, combine a b = .binary a op b) {base delta : Expr} (tick step : Int)
    (hbase : base.rowless = true) (hdelta : delta.rowless = true) :
    (shift combine base delta tick step).rowless = true := by
  have hscaled (e : Expr) (k : Int) (he : e.rowless = true) :
      (e.multiply (.ofInt k)).rowless = true :=
    rowless_binary _ he rfl
  rw [shift, hcombine, hcombine]
  split
  · exact rowless_binary op hbase (hscaled delta _ hdelta)
  · exact rowless_binary _
      (rowless_binary op (hscaled base _ hbase) (hscaled delta _ hdelta)) rfl

theorem extracted_rowless (field : TemporalField) {emit : Node → Lowering Lowered}
    (hn : RowlessOperands emit n) :
    GivesRowless (extracted field emit n) :=
  .bind (hn.one _) fun _ he => .pure (allRowless_iff.2 (List.forall_mem_singleton.2 he))

theorem rowless_nameOfDay {index : Expr} (hindex : index.rowless = true) (day : Int)
    (names : List String) :
    (nameOfDay index day names).rowless = true := by
  induction names generalizing day with
  | nil => rfl
  | cons name rest ih => exact rowless_choose (rowless_binary _ hindex rfl) rfl (ih _)

theorem shiftTimestampRule_rowless {combine : Expr → Expr → Expr} (op : BinaryOp)
    (hcombine : ∀ a b, combine a b = .binary a op b) :
    KeepsRowless (shiftTimestampRule combine) :=
  giving_rowless fun _ _ hn => .lift_bind fun _ _ => .lift_bind fun _ _ =>
    .bind (hn.one _) fun _ hbase =>
    .bind (hn.one _) fun _ hdelta => .pure (rowless_shift op hcombine _ _ hbase hdelta)

theorem shiftDateRule_rowless {combine : Expr → Expr → Expr} (op : BinaryOp)
    (hcombine : ∀ a b, combine a b = .binary a op b) :
    KeepsRowless (shiftDateRule combine) := by
  refine giving_rowless fun emit n hn => .lift_bind fun step _ => ?_
  dsimp only
  split
  · exact .error _
  · exact .bind (hn.one _) fun base hbase => .bind (hn.one _) fun delta hdelta =>
      .pure (rowless_shift op hcombine _ _ hbase hdelta)

theorem intervalDifference_rowless {unit : IntervalUnit} {l r : Expr}
    (hl : l.rowless = true) (hr : r.rowless = true) :
    Yields (fun e => e.rowless = true) (intervalDifference n unit l r) := by
  unfold intervalDifference
  refine .bind_any fun t _ => ?_
  split
  · exact .ok (rowless_binary _ hl hr)
  · split
    · exact .bind_any fun step _ => .ok (rowless_shift _ (fun _ _ => rfl) _ _ hl hr)
    · exact .error _

theorem timeRules_rowless : ∀ x ∈ timeRules, KeepsRowless x.2 := by
  have hfield : KeepsRowless fieldRule := by
    refine giving_rowless fun emit n hn => .lift_bind fun field _ =>
      .bind (extracted_rowless field hn) fun e he => ?_
    refine .pure ?_
    show (withinSecond field e).rowless = true
    unfold withinSecond
    split
    · exact rowless_binary _ (l := .cast e .int64) he rfl
    · exact he
  have hindex :
      KeepsRowless (giving fun emit n =>
        return .cast (← extracted .weekday emit n) .int32) :=
    giving_rowless fun emit n hn => .bind (extracted_rowless _ hn) fun e he => .pure he
  have hname : KeepsRowless weekdayNameRule :=
    giving_rowless fun emit n hn => .bind (extracted_rowless _ hn) fun e he =>
      .pure (rowless_nameOfDay he 0 _)
  have hintervals : KeepsRowless subtractIntervalRule :=
    giving_rowless fun emit n hn => .lift_bind fun unit _ => .bind (hn.one _) fun l hl =>
      .bind (hn.one _) fun r hr =>
      .lift_bind fun e he => .pure
        (intervalDifference_rowless (l := .cast l .int64) (r := .cast r .int64) hl hr e he)
  have hdifference (count : Expr → Expr) (hcount : ∀ e, (count e).rowless = e.rowless) :
      KeepsRowless (differenceRule count) :=
    giving_rowless fun emit n hn => .bind (hn.one _) fun l hl => .bind (hn.one _) fun r hr =>
      .pure (rowless_binary _ ((hcount l).trans hl) ((hcount r).trans hr))
  have htruncate : KeepsRowless truncateRule :=
    giving_rowless fun emit n hn => .lift_bind fun unit _ => .bind (hn.one _) fun e he =>
      .pure (allRowless_iff.2 (List.forall_mem_singleton.2 he))
  have hcount : KeepsRowless fromCountRule :=
    giving_rowless fun emit n hn => .bind (hn.one _) fun e he =>
      .lift_bind fun _ _ => .pure he
  have hnow : KeepsRowless nowRule :=
    giving_rowless fun emit n _ => .bind_any fun clock => .pure rfl
  simp only [timeRules, List.forall_mem_cons]
  exact ⟨hfield, hindex, hname, callOf_rowless _ _,
    shiftTimestampRule_rowless _ fun _ _ => rfl, shiftTimestampRule_rowless _ fun _ _ =>
      rfl, shiftDateRule_rowless _ fun _ _ => rfl,
    shiftDateRule_rowless _ fun _ _ => rfl, hintervals, hdifference _ fun _ => rfl,
      hdifference _ fun _ => rfl,
    ofOne_rowless fun _ he => he, callWith_rowless _ _, callWith_rowless _ _, htruncate,
      htruncate, callOf_rowless _ _,
    callOf_rowless _ _, hcount, hcount, hnow, fun _ hx => absurd hx List.not_mem_nil⟩

/-! ## All values -/

theorem rule_rowless {x : NodeKind × EngineRule}
    (hx : x ∈ valueRules ++ listRules ++ textRules ++ timeRules)
    (hcolumn : x.1 ≠ .tableColumn) {emit : Node → Lowering Lowered}
    (hn : RowlessOperands emit n) :
    Gives (fun l => ∀ e, l = .expr e → e.rowless = true) (x.2 emit n) := by
  simp only [valueRules, List.mem_append] at hx
  rcases hx with (((((hx | hx) | hx) | hx) | hx) | hx) | hx
  · exact genericRules_rowless x hx hcolumn emit n hn
  · exact operatorRules_rowless x hx emit n hn
  · exact numericRules_rowless x hx emit n hn
  · exact reductionRules_rowless x hx emit n
  · exact listRules_rowless x hx emit n hn
  · exact textRules_rowless x hx emit n hn
  · exact timeRules_rowless x hx emit n hn

/-- The rule for a value is one of those for values, unless there is none. -/
theorem mem_of_resolve {k : NodeKind} {rule : EngineRule} (hvalue : n.kind.isValue = true)
    (hresolve : rules.resolve n.kind = .ok (k, rule)) :
    k ∈ n.kind.lineage
      ∧ ((k, rule) ∈ valueRules ++ listRules ++ textRules ++ timeRules
        ∨ rule = RuleTable.refuse targetName) := by
  obtain ⟨hlineage, hmem⟩ := RuleTable.resolve_eq_ok hresolve
  have htables : ∀ kind ∈ NodeKind.all, ∀ k ∈ kind.lineage, k ∈ tableRules.map (·.1) →
      kind.isValue = false := by
    set_option maxRecDepth 2000 in decide
  refine ⟨hlineage, ?_⟩
  rcases RuleTable.mem_or_mem_of_registered hmem with hmem | hmem
  · rcases List.mem_append.1 hmem with hmem | hmem
    · exact .inl hmem
    · have hnot :=
        htables n.kind n.kind.mem_all k hlineage (List.mem_map_of_mem (f := (·.1)) hmem)
      rw [hvalue] at hnot
      cases hnot
  · cases List.mem_singleton.1 hmem
    exact .inr rfl

/-- The rule for a reduction is one of those for reductions. -/
theorem mem_of_resolve_reduction {k : NodeKind} {rule : EngineRule}
    (hreduction : n.kind.isUnder .reduction = true) (hlineage : k ∈ n.kind.lineage)
    (hmem : (k, rule) ∈ valueRules ++ listRules ++ textRules ++ timeRules) :
    (k, rule) ∈ reductionRules := by
  have hother : ∀ kind ∈ NodeKind.all, kind.isUnder .reduction = true → ∀ k ∈ kind.lineage,
      k ∉ (genericRules ++ operatorRules ++ numericRules ++ listRules ++ textRules
        ++ timeRules).map (·.1) := by
    set_option maxRecDepth 2000 in decide
  have hsplit : (k, rule) ∈ reductionRules
      ∨ (k, rule) ∈ genericRules ++ operatorRules ++ numericRules ++ listRules ++ textRules
        ++ timeRules := by
    simpa only [valueRules, List.mem_append, or_assoc, or_left_comm, or_comm] using hmem
  exact hsplit.resolve_right fun hmem =>
    hother n.kind n.kind.mem_all hreduction k hlineage
      (List.mem_map_of_mem (f := (·.1)) hmem)

/-- A scalar value is compiled to an expression that reads no rows. -/
theorem rowless_of_scalar (h : n.Built) (hvalue : n.kind.isValue = true)
    (hshape : n.shape? = some .scalar) (he : Compiled clock n e) : e.rowless = true := by
  induction hdepth : n.depth using Nat.strongRecOn generalizing n e with
  | ind depth ih =>
      subst hdepth
      have hcolumn : n.kind ≠ .tableColumn := by
        intro hk
        cases hshape.symm.trans ((h.columnar_iff hvalue).2 ⟨n, .here n, hk⟩)
      obtain ⟨⟨k, rule⟩, hresolve⟩ :=
        RuleTable.exists_resolve (show rules.rule? .node = some _ from rfl) n.kind
      obtain ⟨after, hrun⟩ := run_of_answer h hresolve he
      obtain ⟨hlineage, hmem | rfl⟩ := mem_of_resolve hvalue hresolve
      · cases hreduction : n.kind.isUnder .reduction with
        | true =>
            have hrule :=
              reductionRules_rowless _ (mem_of_resolve_reduction hreduction hlineage hmem)
                (lowered clock) n
            exact hrule _ _ _ hrun e rfl
        | false =>
            have hbelow {m : Node} {e : Expr} (hm : m ∈ n.children)
                (he : Compiled clock m e) : e.rowless = true := by
              obtain ⟨hmvalue, hmshape⟩ :=
                h.scalar_of_mem_children hvalue hcolumn hreduction hshape hm
              exact ih m.depth (Node.depth_of_mem_children hm)
                (h.of_mem_children hm) hmvalue hmshape he rfl
            have hoperands : RowlessOperands (lowered clock) n := by
              refine ⟨fun field s e after he => ?_, fun field s es after hes => ?_⟩
              · obtain ⟨m, hm, he⟩ := (run_expr_eq_ok he).1
                exact hbelow (h.mem_children_of_child hm) he
              · obtain ⟨ms, hms, hall⟩ := (run_exprs_eq_ok hes).1
                intro e he
                obtain ⟨m, hm, he⟩ := exists_of_forall₂_right hall he
                exact hbelow (h.mem_children_of_childList hms hm) he
            have hown : k ≠ .tableColumn := by
              rintro rfl
              exact hcolumn (NodeKind.eq_of_isUnder rfl (List.contains_iff_mem.2 hlineage))
            exact rule_rowless hmem hown hoperands _ _ _ hrun e rfl
      · cases hrun

end TypedQuery.Engine
