import TypedQuery.Engine.Compile
import TypedQuery.Proofs.Emission.Memo
import TypedQuery.Proofs.Emission.Run
import TypedQuery.Proofs.Node.Equality
import TypedQuery.Proofs.Node.Under

/-!
# Rules of the engine only read

Every rule of the engine asks for what nodes below its own become, and changes nothing.
Only the rule for the present time looks at the clock.
-/

namespace TypedQuery.Engine

/-! ## Which rule a node gets -/

/-- The rules of the engine in the order in which they are given. -/
def listed : List (NodeKind × EngineRule) :=
  (.node, RuleTable.refuse targetName)
    :: (valueRules ++ listRules ++ textRules ++ timeRules ++ tableRules)

theorem rules_eq : rules = ⟨targetName, listed⟩ :=
  RuleTable.registered_eq (by set_option maxRecDepth 2000 in decide)

/-- A rule is looked up in the list, which takes less than to put the table together first.
-/
theorem resolve_of_kind {n : Node} {kind : NodeKind} {found : NodeKind × EngineRule}
    (hk : n.kind = kind) (h : RuleTable.resolve ⟨targetName, listed⟩ kind = .ok found) :
    rules.resolve n.kind = .ok found := by
  rw [rules_eq, hk]
  exact h

/-! ## Rules that read -/

/-- The step only consults nodes below the given one, and does not look at the clock. -/
def Lowers {α : Type} (step : (Node → Lowering Lowered) → Node → Lowering α) : Prop :=
  ∀ n : Node, n.Built → Consults False (·.Under n) fun emit => step emit n

section

variable {n : Node} {looks : Prop}

theorem under_of_children {α : Type} {step : (Node → Lowering Lowered) → Lowering α}
    (h : Consults looks (· ∈ n.children) step) : Consults looks (·.Under n) step :=
  h.mono id fun _ hm => .child hm

theorem field_consults (h : n.Built) (name : String) :
    Consults looks (·.Under n) fun emit : Node →
      Lowering Lowered => Emission.field emit n name :=
  under_of_children (h.field name)

end

/-! ## Words -/

theorem giving_lowers {rule : (Node → Lowering Lowered) → Node → Lowering Expr}
    (h : Lowers rule) :
    Lowers (giving rule) :=
  fun n hn => .bind (h n hn) fun _ => .pure _

theorem expr_lowers (name : String) : Lowers fun emit n => expr emit n name :=
  fun _ h => .bind (field_consults h name) fun _ => .lift _

theorem expr?_lowers (name : String) : Lowers fun emit n => expr? emit n name := by
  intro n h
  refine .bind (under_of_children (h.field? name)) fun output => ?_
  cases output with
  | none => exact .pure none
  | some l => exact .bind (.lift _) fun e => .pure _

theorem exprs_lowers (name : String) : Lowers fun emit n => exprs emit n name :=
  fun _ h => .bind (under_of_children (h.sequence name)) fun _ => .lift _

theorem exprsOf_lowers (fields : List String) :
    Lowers fun emit n => exprsOf emit n fields := by
  intro n h
  induction fields with
  | nil => exact .pure []
  | cons name rest ih =>
      exact .bind (expr_lowers name n h) fun e => .bind ih fun es => .pure _

theorem callOf_lowers (f : Function) (fields : List String) : Lowers (callOf f fields) :=
  giving_lowers fun n h => .bind (exprsOf_lowers fields n h) fun _ => .pure _

theorem callWith_lowers (read : Node → Except Error Function) (field : String) :
    Lowers (callWith read field) :=
  giving_lowers fun n h => .bind (.lift _) fun _ =>
    .bind (expr_lowers field n h) fun _ => .pure _

/-! ## Constants, columns and conditions -/

theorem literalRule_lowers : Lowers literalRule := by
  refine giving_lowers fun n _ => ?_
  split
  · exact .pure _
  · exact .throw _

theorem columnRule_lowers : Lowers columnRule :=
  giving_lowers fun _ _ => .bind (.lift _) fun _ => .pure _

theorem aliasRule_lowers : Lowers aliasRule :=
  giving_lowers fun n h => .bind (expr_lowers "arg" n h) fun _ =>
    .bind (.lift _) fun _ => .pure _

theorem castRule_lowers : Lowers castRule := by
  refine giving_lowers fun n h => .bind (.lift _) fun a => ?_
  cases a.type? with
  | none => exact .throw _
  | some t => exact .bind (expr_lowers "arg" n h) fun e => .pure _

theorem fillRule_lowers : Lowers fillRule :=
  giving_lowers fun n h =>
    .bind (expr_lowers "ifnull_expr" n h) fun _ =>
      .bind (expr_lowers "arg" n h) fun _ => .pure _

theorem nullIfRule_lowers : Lowers nullIfRule :=
  giving_lowers fun n h =>
    .bind (expr_lowers "arg" n h) fun _ =>
      .bind (expr_lowers "null_if_expr" n h) fun _ => .lift _

theorem nullIfZeroRule_lowers : Lowers nullIfZeroRule :=
  giving_lowers fun n h => .bind (expr_lowers "arg" n h) fun _ => .lift _

theorem conditionRule_lowers : Lowers conditionRule := by
  refine giving_lowers fun n h => .bind (expr_lowers "bool_expr" n h) fun p => ?_
  refine .bind (expr_lowers "true_expr" n h) fun a => ?_
  exact .bind (expr_lowers "false_null_expr" n h) fun b => .pure _

theorem simpleCaseRule_lowers : Lowers simpleCaseRule := by
  refine giving_lowers fun n h => .bind (expr_lowers "base" n h) fun base => ?_
  refine .bind (exprs_lowers "cases" n h) fun cases => ?_
  refine .bind (exprs_lowers "results" n h) fun results => ?_
  exact .bind (expr_lowers "default" n h) fun default => .pure _

theorem searchedCaseRule_lowers : Lowers searchedCaseRule := by
  refine giving_lowers fun n h => .bind (exprs_lowers "cases" n h) fun cases => ?_
  refine .bind (exprs_lowers "results" n h) fun results => ?_
  exact .bind (expr_lowers "default" n h) fun default => .pure _

theorem betweenRule_lowers : Lowers betweenRule := by
  refine giving_lowers fun n h => .bind (expr_lowers "arg" n h) fun e => ?_
  refine .bind (expr_lowers "lower_bound" n h) fun low => ?_
  exact .bind (expr_lowers "upper_bound" n h) fun high => .pure _

theorem membership_lowers : Lowers membership :=
  fun n h => .bind (expr_lowers "value" n h) fun _ =>
    .bind (exprs_lowers "options" n h) fun _ => .pure _

theorem genericRules_lower : ∀ x ∈ genericRules, Lowers x.2 := by
  have hkey : Lowers (giving fun emit n => expr emit n "expr") :=
    giving_lowers (expr_lowers "expr")
  have hlist : Lowers fun emit n => return Lowered.exprs (← exprs emit n "values") :=
    fun n h => .bind (exprs_lowers "values" n h) fun _ => .pure _
  have hzero :
      Lowers (giving fun emit n => return .fillNull (← expr emit n "arg") (.ofInt 0)) :=
    giving_lowers fun n h => .bind (expr_lowers "arg" n h) fun _ => .pure _
  have hnot : Lowers (giving fun emit n => return .unary .not (← membership emit n)) :=
    giving_lowers fun n h => .bind (membership_lowers n h) fun _ => .pure _
  have hitems : ∀ make : List Expr → Expr,
      Lowers (giving fun emit n => return make (← exprs emit n "arg")) :=
    fun make => giving_lowers fun n h => .bind (exprs_lowers "arg" n h) fun _ => .pure _
  simp only [genericRules, List.forall_mem_cons]
  exact ⟨literalRule_lowers, columnRule_lowers, aliasRule_lowers,
    castRule_lowers, hkey, hlist, fillRule_lowers, nullIfRule_lowers, hzero,
    nullIfZeroRule_lowers, conditionRule_lowers, simpleCaseRule_lowers,
    searchedCaseRule_lowers, betweenRule_lowers, giving_lowers membership_lowers, hnot,
    hitems .coalesce, hitems .greatest, hitems .least,
    fun _ hx => absurd hx List.not_mem_nil⟩

/-! ## Operators -/

theorem unaryRule_lowers : Lowers unaryRule :=
  giving_lowers fun n h => .bind (.lift _) fun _ =>
    .bind (expr_lowers "arg" n h) fun _ => .pure _

theorem binaryRule_lowers : Lowers binaryRule := by
  refine giving_lowers fun n h => .bind (.lift _) fun op => ?_
  exact .bind (expr_lowers "left" n h) fun left =>
    .bind (expr_lowers "right" n h) fun right => .pure _

theorem onDoubles_lowers (op : BinaryOp) : Lowers (onDoubles op) :=
  fun n h => .bind (expr_lowers "left" n h) fun _ =>
    .bind (expr_lowers "right" n h) fun _ => .pure _

theorem floorDivideRule_lowers : Lowers floorDivideRule :=
  giving_lowers fun n h =>
    .bind (onDoubles_lowers _ n h) fun _ => .bind (.lift _) fun _ => .pure _

theorem operatorRules_lower : ∀ x ∈ operatorRules, Lowers x.2 := by
  simp only [operatorRules, List.forall_mem_cons]
  exact ⟨unaryRule_lowers, binaryRule_lowers, giving_lowers (onDoubles_lowers _),
    giving_lowers (onDoubles_lowers _), floorDivideRule_lowers,
    fun _ hx => absurd hx List.not_mem_nil⟩

/-! ## Numbers -/

theorem towardsRule_lowers (op : UnaryOp) : Lowers (towardsRule op) :=
  giving_lowers fun n h => .bind (expr_lowers "arg" n h) fun _ => .pure _

theorem cotangentRule_lowers : Lowers cotangentRule :=
  giving_lowers fun n h => .bind (expr_lowers "arg" n h) fun _ => .pure _

theorem scaledRule_lowers (factor : Float) : Lowers (scaledRule factor) :=
  giving_lowers fun n h => .bind (expr_lowers "arg" n h) fun _ => .pure _

theorem roundRule_lowers : Lowers roundRule := by
  refine giving_lowers fun n h => .bind (expr_lowers "arg" n h) fun e =>
    .bind (.lift _) fun digits => ?_
  refine .ite (fun _ => .bind (.lift _) fun t => .pure _) fun _ => ?_
  exact .bind (.lift _) fun scale => .bind (.lift _) fun t => .pure _

theorem clipRule_lowers : Lowers clipRule := by
  refine giving_lowers fun n h => .bind (expr_lowers "arg" n h) fun e => ?_
  refine .bind (.lift _) fun lower => .bind (.lift _) fun upper => ?_
  exact .ite (fun _ => .bind (.throw _) fun _ => .bind (.lift _) fun t => .pure _)
    fun _ => .bind (.lift _) fun t => .pure _

theorem logarithmRule_lowers : Lowers logarithmRule := by
  refine giving_lowers fun n h => .bind (expr_lowers "arg" n h) fun e =>
    .bind (.lift _) fun base => ?_
  split
  · exact .pure _
  · exact .pure _
  · split
    · exact .pure _
    · exact .throw _

theorem numericRules_lower : ∀ x ∈ numericRules, Lowers x.2 := by
  simp only [numericRules, List.forall_mem_cons]
  exact ⟨towardsRule_lowers _, towardsRule_lowers _, callOf_lowers _ _, cotangentRule_lowers,
    scaledRule_lowers _, scaledRule_lowers _, roundRule_lowers, clipRule_lowers,
    logarithmRule_lowers, fun _ hx => absurd hx List.not_mem_nil⟩

/-! ## Reductions -/

theorem reduced_lowers (f : Reduction) : Lowers (reduced f) :=
  fun n h => .bind (expr_lowers "arg" n h) fun _ =>
    .bind (expr?_lowers "where" n h) fun _ => .pure _

theorem spreadRule_lowers (make : Nat → Reduction) : Lowers (spreadRule make) :=
  giving_lowers fun n h => .bind (.lift _) fun _ => reduced_lowers _ n h

theorem reductionRules_lower : ∀ x ∈ reductionRules, Lowers x.2 := by
  have hreduction :
      Lowers (giving fun emit n => do reduced (← lookup reductions n) emit n) :=
    giving_lowers fun n h => .bind (.lift _) fun f => reduced_lowers f n h
  have hrows : Lowers (giving fun emit n => return .countRows (← expr? emit n "where")) :=
    giving_lowers fun n h => .bind (expr?_lowers "where" n h) fun _ => .pure _
  simp only [reductionRules, List.forall_mem_cons]
  exact ⟨hreduction, spreadRule_lowers _, spreadRule_lowers _, hrows,
    fun _ hx => absurd hx List.not_mem_nil⟩

/-! ## Lists and texts -/

theorem listConcatRule_lowers : Lowers listConcatRule := by
  refine giving_lowers fun n h => .bind (.lift _) fun t => ?_
  exact .bind (expr_lowers "left" n h) fun left =>
    .bind (expr_lowers "right" n h) fun right => .pure _

theorem listFromColumnsRule_lowers : Lowers listFromColumnsRule :=
  giving_lowers fun n h => .bind (.lift _) fun _ =>
    .bind (exprs_lowers "cols" n h) fun _ => .pure _

theorem listRules_lower : ∀ x ∈ listRules, Lowers x.2 := by
  simp only [listRules, List.forall_mem_cons]
  exact ⟨callOf_lowers _ _, listConcatRule_lowers, listFromColumnsRule_lowers,
    fun _ hx => absurd hx List.not_mem_nil⟩

theorem lengthRule_lowers : Lowers lengthRule :=
  giving_lowers fun n h => .bind (expr_lowers "arg" n h) fun _ => .pure _

theorem separatedRule_lowers : Lowers separatedRule :=
  giving_lowers fun n h => .bind (.lift _) fun _ =>
    .bind (exprs_lowers "arg" n h) fun _ => .pure _

theorem textRules_lower : ∀ x ∈ textRules, Lowers x.2 := by
  have hconcat :
      Lowers (giving fun emit n => return .call (.concat "") (← exprs emit n "arg")) :=
    giving_lowers fun n h => .bind (exprs_lowers "arg" n h) fun _ => .pure _
  simp only [textRules, List.forall_mem_cons, callWith_lowers, lengthRule_lowers, hconcat,
    separatedRule_lowers, List.not_mem_nil, false_imp_iff, implies_true, and_self]

/-! ## Time -/

theorem extracted_lowers (field : TemporalField) : Lowers (extracted field) :=
  fun n h => .bind (expr_lowers "arg" n h) fun _ => .pure _

theorem fieldRule_lowers : Lowers fieldRule :=
  giving_lowers fun n h => .bind (.lift _) fun field =>
    .bind (extracted_lowers field n h) fun _ => .pure _

theorem weekdayNameRule_lowers : Lowers weekdayNameRule :=
  giving_lowers fun n h => .bind (extracted_lowers _ n h) fun _ => .pure _

theorem shiftTimestampRule_lowers (combine : Expr → Expr → Expr) :
    Lowers (shiftTimestampRule combine) := by
  refine giving_lowers fun n h => .bind (.lift _) fun unit => .bind (.lift _) fun step => ?_
  exact .bind (expr_lowers "left" n h) fun base =>
    .bind (expr_lowers "right" n h) fun delta => .pure _

theorem shiftDateRule_lowers (combine : Expr → Expr → Expr) :
    Lowers (shiftDateRule combine) := by
  refine giving_lowers fun n h => .bind (.lift _) fun step => ?_
  have hrest : Consults False (·.Under n) fun emit : Node → Lowering Lowered => do
      let base ← expr emit n "left"
      let delta ← expr emit n "right"
      return Expr.cast
        (.cast (shift combine (daysOf base) (.cast delta .int64) nanosPerDay step.2) .int32)
        .date :=
    .bind (expr_lowers "left" n h) fun _ => .bind (expr_lowers "right" n h) fun _ => .pure _
  exact .ite (fun _ => .bind (.throw _) fun _ => hrest) fun _ => hrest

theorem subtractIntervalRule_lowers : Lowers subtractIntervalRule := by
  refine giving_lowers fun n h => .bind (.lift _) fun unit => ?_
  refine .bind (expr_lowers "left" n h) fun left =>
    .bind (expr_lowers "right" n h) fun right => ?_
  exact .bind (.lift _) fun _ => .pure _

theorem differenceRule_lowers (count : Expr → Expr) : Lowers (differenceRule count) :=
  giving_lowers fun n h =>
    .bind (expr_lowers "left" n h) fun _ => .bind (expr_lowers "right" n h) fun _ => .pure _

theorem truncateRule_lowers : Lowers truncateRule :=
  giving_lowers fun n h => .bind (.lift _) fun _ =>
    .bind (expr_lowers "arg" n h) fun _ => .pure _

theorem fromCountRule_lowers : Lowers fromCountRule :=
  giving_lowers fun n h => .bind (expr_lowers "arg" n h) fun _ =>
    .bind (.lift _) fun _ => .pure _

/-- Of all rules, only that for the present time looks at the clock. -/
theorem timeRules_lower : ∀ x ∈ timeRules, x.1 ≠ .timestampNow → Lowers x.2 := by
  have hindex :
      Lowers (giving fun emit n => return .cast (← extracted .weekday emit n) .int32) :=
    giving_lowers fun n h => .bind (extracted_lowers _ n h) fun _ => .pure _
  have hdate : Lowers (giving fun emit n => return .cast (← expr emit n "arg") .date) :=
    giving_lowers fun n h => .bind (expr_lowers "arg" n h) fun _ => .pure _
  simp only [timeRules, List.forall_mem_cons, fieldRule_lowers, hindex,
    weekdayNameRule_lowers, callOf_lowers, shiftTimestampRule_lowers, shiftDateRule_lowers,
    subtractIntervalRule_lowers, differenceRule_lowers, hdate, callWith_lowers,
    truncateRule_lowers, fromCountRule_lowers, ne_eq, not_true, implies_true,
    List.not_mem_nil, false_imp_iff, and_self]

/-! ## Tables -/

theorem plan_lowers (name : String) : Lowers fun emit n => plan emit n name :=
  fun _ h => .bind (field_consults h name) fun _ => .lift _

theorem exprOf_consults {n m : Node} (hm : m.Under n) :
    Consults False (·.Under n) fun emit => exprOf emit m :=
  .bind (.ask hm) fun _ => .lift _

theorem named_consults {n m : Node} (hm : m.Under n) :
    Consults False (·.Under n) fun emit => named emit m := by
  refine .bind (exprOf_consults hm) fun e => ?_
  exact .ite (fun _ => .pure _) fun _ => .bind (.lift _) fun name => .pure _

theorem namedEach_consults {n : Node} {ms : List Node} (hms : ∀ m ∈ ms, m.Under n) :
    Consults False (·.Under n) fun emit => namedEach emit ms := by
  induction ms with
  | nil => exact .pure []
  | cons m rest ih =>
      refine .bind (named_consults (hms m List.mem_cons_self)) fun e => ?_
      exact .bind (ih fun m hm => hms m (List.mem_cons_of_mem _ hm)) fun es => .pure _

theorem selected_consults {n : Node} {ms : List Node} (hms : ∀ m ∈ ms, m.Under n) :
    Consults False (·.Under n) fun emit => selected emit ms := by
  induction ms with
  | nil => exact .pure []
  | cons m rest ih =>
      have hrest := ih fun m hm => hms m (List.mem_cons_of_mem _ hm)
      refine .ite (fun _ => ?_) fun _ => ?_
      · refine .bind (.lift _) fun schema => ?_
        exact .bind (.pure _) fun items => .bind hrest fun more => .pure _
      · refine .bind (named_consults (hms m List.mem_cons_self)) fun e => ?_
        exact .bind (.pure _) fun items => .bind hrest fun more => .pure _

/-- A key to sort by is opened on the spot, so its expression is asked for, which
stands one node deeper. -/
theorem sortKeys_consults {n : Node} (hn : n.Built) {keys : List Node}
    (hkeys : ∀ key ∈ keys, key.Under n) :
    Consults False (·.Under n) fun emit => sortKeys emit keys := by
  induction keys with
  | nil => exact .pure []
  | cons key rest ih =>
      have hkey := hkeys key List.mem_cons_self
      have hexpr : Consults False (·.Under n) fun emit : Node → Lowering Lowered =>
          expr emit key "expr" := by
        refine .bind (.lift_bind fun m hm => .ask (.deeper ?_ hkey)) fun output => .lift _
        exact (hkey.built hn).mem_children_of_child hm
      refine .bind hexpr fun e => .bind (.lift _) fun ascending => ?_
      exact .bind (ih fun m hm => hkeys m (List.mem_cons_of_mem _ hm)) fun keys => .pure _

/-- So are the predicates of a join: their two sides are asked for. -/
theorem joinKeyPairs_consults {n : Node} (hn : n.Built) (left right : Node)
    {predicates : List Node} (hpredicates : ∀ p ∈ predicates, p.Under n) :
    Consults False (·.Under n) fun emit => joinKeyPairs emit left right predicates := by
  induction predicates with
  | nil => exact .pure []
  | cons p rest ih =>
      have hp := hpredicates p List.mem_cons_self
      refine .lift_bind fun sides hsides => ?_
      have hunder : sides.1.Under n ∧ sides.2.Under n := by
        unfold joinSides at hsides
        split at hsides
        · cases hsides
        · obtain ⟨a, ha, hsides⟩ := bind_eq_ok.1 hsides
          obtain ⟨b, hb, hsides⟩ := bind_eq_ok.1 hsides
          have ha' : a.Under n := .deeper ((hp.built hn).mem_children_of_child ha) hp
          have hb' : b.Under n := .deeper ((hp.built hn).mem_children_of_child hb) hp
          split at hsides
          · cases hsides; exact ⟨ha', hb'⟩
          · split at hsides
            · cases hsides; exact ⟨hb', ha'⟩
            · cases hsides
      refine .bind (exprOf_consults hunder.1) fun l =>
        .bind (exprOf_consults hunder.2) fun r => ?_
      exact .bind (ih fun m hm => hpredicates m (List.mem_cons_of_mem _ hm))
        fun keys => .pure _

theorem childList_under {n : Node} (h : n.Built) {name : String} {ms : List Node}
    (hms : n.childList name = .ok ms) : ∀ m ∈ ms, m.Under n :=
  fun _ hm => .child (h.mem_children_of_childList hms hm)

theorem joinKeys_lowers : Lowers joinKeys := by
  intro n h
  refine .bind (.lift _) fun left => .bind (.lift _) fun right =>
    .lift_bind fun predicates hp => ?_
  have hpairs := joinKeyPairs_consults h left right (childList_under h hp)
  exact .ite (fun _ => .bind (.throw _) fun _ => hpairs) fun _ => hpairs

theorem givenRowsRule_lowers : Lowers givenRowsRule := by
  intro n _
  refine .bind (.lift _) fun schema => .bind (.lift _) fun rows =>
    .bind (.lift _) fun batch => ?_
  exact .bind (.lift _) fun name => .pure _

theorem selectionRule_lowers : Lowers selectionRule := by
  intro n h
  refine .bind (plan_lowers "table" n h) fun input => ?_
  refine .bind (exprs_lowers "predicates" n h) fun predicates => ?_
  refine .lift_bind fun keys hkeys => ?_
  refine .bind (sortKeys_consults h (childList_under h hkeys)) fun keys => ?_
  refine .lift_bind fun selections hselections => .ite (fun _ => .pure _) fun _ => ?_
  exact .bind (selected_consults (childList_under h hselections)) fun items => .pure _

theorem aggregationRule_lowers : Lowers aggregationRule := by
  intro n h
  refine .bind (plan_lowers "table" n h) fun input => ?_
  refine .bind (exprs_lowers "predicates" n h) fun predicates => ?_
  refine .lift_bind fun keys hkeys => ?_
  refine .bind (namedEach_consults (childList_under h hkeys)) fun keys => ?_
  refine .lift_bind fun metrics hmetrics => ?_
  exact .bind (namedEach_consults (childList_under h hmetrics)) fun metrics => .pure _

theorem limitRule_lowers : Lowers limitRule :=
  fun n h => .bind (.lift _) fun _ => .bind (.lift _) fun _ =>
    .bind (plan_lowers "table" n h) fun _ => .pure _

theorem dropNullsRule_lowers : Lowers dropNullsRule := by
  intro n h
  have hrest : Consults False (·.Under n) fun emit : Node → Lowering Lowered => do
      let input ← plan emit n "table"
      if ((n.get? "subset").getD .none).isNone then
        return Lowered.plan (.dropNulls input none)
      else
        let names ← nodeNames (← n.childList "subset")
        return .plan (if names.isEmpty then input else .dropNulls input (some names)) := by
    refine .bind (plan_lowers "table" n h) fun input => .ite (fun _ => .pure _) fun _ => ?_
    exact .bind (.lift _) fun subset => .bind (.lift _) fun names => .pure _
  refine .bind (.lift _) fun how => ?_
  exact .ite (fun _ => .bind (.throw _) fun _ => hrest) fun _ => hrest

theorem fillNullsRule_lowers : Lowers fillNullsRule := by
  intro n h
  refine .bind (.lift _) fun table => .bind (.lift _) fun schema => ?_
  refine .bind (.lift _) fun replacements => .bind (.lift _) fun fills => ?_
  exact .bind (plan_lowers "table" n h) fun input => .pure _

theorem joinRule_lowers (kind : JoinKind) : Lowers (joinRule kind) := by
  intro n h
  refine .bind (plan_lowers "left" n h) fun left =>
    .bind (plan_lowers "right" n h) fun right => ?_
  exact .bind (joinKeys_lowers n h) fun keys => .pure _

theorem rightJoinRule_lowers : Lowers rightJoinRule := by
  intro n h
  refine .bind (.lift _) fun left => .bind (.lift _) fun leftSchema => ?_
  refine .bind (.lift _) fun right => .bind (.lift _) fun rightSchema => ?_
  refine .bind (plan_lowers "left" n h) fun left =>
    .bind (plan_lowers "right" n h) fun right => ?_
  exact .bind (joinKeys_lowers n h) fun keys => .pure _

theorem tableRules_lower : ∀ x ∈ tableRules, Lowers x.2 := by
  have hscan : Lowers fun _ n => do return Lowered.plan (.scan (← n.stringField "name")) :=
    fun n h => .bind (.lift _) fun _ => .pure _
  have hunique : Lowers fun emit n =>
      return Lowered.plan (.unique (← plan emit n "table")) :=
    fun n h => .bind (plan_lowers "table" n h) fun _ => .pure _
  simp only [tableRules, List.forall_mem_cons, hscan, givenRowsRule_lowers,
    selectionRule_lowers, aggregationRule_lowers, limitRule_lowers, hunique,
    dropNullsRule_lowers, fillNullsRule_lowers, joinRule_lowers, rightJoinRule_lowers,
    List.not_mem_nil, false_imp_iff, implies_true, and_self]

/-! ## All rules -/

theorem rules_lower {kind k : NodeKind} {rule : EngineRule}
    (h : rules.resolve kind = .ok (k, rule)) : kind = .timestampNow ∨ Lowers rule := by
  obtain ⟨hlineage, hmem⟩ := RuleTable.resolve_eq_ok h
  rcases RuleTable.mem_or_mem_of_registered hmem with hmem | hmem
  · simp only [List.mem_append, valueRules] at hmem
    rcases hmem with (((hmem | hmem) | hmem) | hmem) | hmem
    · rcases hmem with ((hmem | hmem) | hmem) | hmem
      · exact Or.inr (genericRules_lower _ hmem)
      · exact Or.inr (operatorRules_lower _ hmem)
      · exact Or.inr (numericRules_lower _ hmem)
      · exact Or.inr (reductionRules_lower _ hmem)
    · exact Or.inr (listRules_lower _ hmem)
    · exact Or.inr (textRules_lower _ hmem)
    · by_cases hnow : k = .timestampNow
      · left
        have hunder : ∀ kind ∈ NodeKind.all, .timestampNow ∈ kind.lineage →
            kind = .timestampNow := by set_option maxRecDepth 2000 in decide
        exact hunder kind kind.mem_all (hnow ▸ hlineage)
      · exact Or.inr (timeRules_lower _ hmem hnow)
    · exact Or.inr (tableRules_lower _ hmem)
  · right
    cases List.mem_singleton.1 hmem
    exact fun _ _ => .throw _

/-- Without the present time in it, a node becomes the same at any time. -/
theorem rules_consult_timeless :
    rules.ConsultsWithin False fun n => n.Built ∧ n.holds .timestampNow = false := by
  rintro n ⟨h, hnow⟩ k rule hresolve
  rcases rules_lower hresolve with hkind | hrule
  · exact absurd hkind (Node.kind_ne_of_holds hnow)
  · exact (hrule n h).mono id fun m hm => ⟨⟨hm.built h, hm.holds hnow⟩, hm.depth_lt⟩

theorem rules_consult : rules.ConsultsWithin True Node.Built := by
  intro n h k rule hresolve
  rcases rules_lower hresolve with hkind | hrule
  · rw [hkind] at hresolve
    cases hresolve
    exact .bind (.bind (.look trivial) fun clock => .pure _) fun e => .pure _
  · exact (hrule n h).mono False.elim fun m hm => ⟨hm.built h, hm.depth_lt⟩

end TypedQuery.Engine
