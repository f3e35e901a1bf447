import TypedQuery.Proofs.Engine.Answers
import TypedQuery.Proofs.Node.Held
import TypedQuery.Proofs.Node.Types

/-!
# Nodes become what they are

On the engine a value that builds becomes an expression and a table a plan, or the node is
refused; no rule fails internally. A rule that reads a value as an expression, or a table
as a plan, finds what it reads by the induction over the depth of nodes.
-/

namespace TypedQuery

/-- No kind stands below one that has nodes of its own. -/
theorem NodeKind.eq_of_isUnder {k leaf : NodeKind}
    (hleaf : leaf.definition.isAbstract = false) (h : k.isUnder leaf = true) : k = leaf := by
  have hall : ∀ k ∈ all, ∀ above ∈ k.lineage, above.definition.isAbstract = false →
    k = above := by set_option maxRecDepth 2000 in decide
  exact hall k k.mem_all leaf (List.contains_iff_mem.1 h) hleaf

namespace Engine

open Emission

/-- A value as an expression, a table as a plan. -/
structure Lowered.Suits (n : Node) (l : Lowered) : Prop where
  expr : n.kind.isValue = true → ∃ e, l = .expr e
  plan : n.kind.isTable = true → ∃ p, l = .plan p

abbrev SafeStep {α : Type} (step : Lowering α) : Prop := Safe (fun _ => True) step

/-- Asking for a value or a table that is less deep than the node is safe. -/
structure SafeBelow (n : Node) (emit : Node → Lowering Lowered) : Prop where
  built : n.Built
  value : ∀ m : Node, m.Built → m.depth < n.depth → m.kind.isValue = true →
    Safe (fun l => ∃ e, l = .expr e) (emit m)
  table : ∀ m : Node, m.Built → m.depth < n.depth → m.kind.isTable = true →
    Safe (fun l => ∃ p, l = .plan p) (emit m)

/-- The rule for a kind, and for all below it that have none of their own, gives an
expression. -/
def GivesExpr (kind : NodeKind) (rule : EngineRule) : Prop :=
  ∀ n emit, n.kind.isUnder kind = true → SafeBelow n emit →
    Safe (fun l => ∃ e, l = .expr e) (rule emit n)

namespace SafeBelow

variable {n m : Node} {emit : Node → Lowering Lowered} (h : SafeBelow n emit) {name : String}

include h

theorem child (hm : m ∈ n.children) : SafeBelow m emit where
  built := h.built.of_mem_children hm
  value := fun k hk hless =>
    h.value k hk (Nat.lt_trans hless (Node.depth_of_mem_children hm))
  table := fun k hk hless =>
    h.table k hk (Nat.lt_trans hless (Node.depth_of_mem_children hm))

theorem valueOf (hm : m ∈ n.children) (hvalue : m.kind.isValue = true) :
    Safe (fun l => ∃ e, l = .expr e) (emit m) :=
  h.value m (h.built.of_mem_children hm) (Node.depth_of_mem_children hm) hvalue

theorem exprOf (hm : m ∈ n.children) (hvalue : m.kind.isValue = true) :
    SafeStep (exprOf emit m) := by
  refine .bind (h.valueOf hm hvalue) fun l hl => ?_
  obtain ⟨e, rfl⟩ := hl
  exact .pure trivial

theorem expr (hk : n.kind.hasValue name = true) : SafeStep (expr emit n name) := by
  obtain ⟨m, hm, hmem, hvalue⟩ := h.built.exists_value _ hk
  rw [Engine.expr, Emission.field, hm]
  exact h.exprOf hmem hvalue

theorem expr? {v : Validator} (hv : n.kind.validator? name = some v)
    (hvalues : v.onlyValues = true) :
    SafeStep (expr? emit n name) := by
  unfold Engine.expr? Emission.field?
  split
  · next m hm =>
      obtain ⟨a, ha, hread⟩ := Option.bind_eq_some_iff.1 hm
      have hmem := h.built.mem_children_of_child? hm
      have hvalue := h.built.isValue_of_get? hv hvalues ha m (Node.mem_nodes_of_node? hread)
      refine .bind (P := fun l? : Option Lowered =>
        ∀ l ∈ l?, ∃ e, l = .expr e) ?_ fun l? hl => ?_
      · refine .bind (h.valueOf hmem hvalue) fun l hl => .pure ?_
        rintro _ ⟨⟩
        exact hl
      · cases l? with
        | none => exact .pure trivial
        | some l =>
            obtain ⟨e, rfl⟩ := hl l rfl
            exact .pure trivial
  · exact .pure trivial

theorem exprs (hk : n.kind.hasValues name = true) : SafeStep (exprs emit n name) := by
  obtain ⟨ms, hms, hmem⟩ := h.built.exists_values _ hk
  have heach : Safe (fun ls : List Lowered => ∀ l ∈ ls, ∃ e, l = .expr e) (each emit ms) :=
    .each fun m hm => h.valueOf (hmem m hm).1 (hmem m hm).2
  refine .bind (.ok_bind hms heach) fun ls hls => .lift ?_
  induction ls with
  | nil => trivial
  | cons l rest ih =>
      obtain ⟨⟨e, rfl⟩, hrest⟩ := List.forall_mem_cons.1 hls
      exact Proper.bind (P := fun _ => True) trivial fun _ _ _ =>
        (ih hrest).bind fun _ _ _ => trivial

theorem exprsOf {fields : List String} (hk : fields.all n.kind.hasValue = true) :
    SafeStep (exprsOf emit n fields) := by
  induction fields with
  | nil => exact .pure trivial
  | cons name rest ih =>
      rw [List.all_cons, Bool.and_eq_true] at hk
      exact .bind (h.expr hk.1) fun _ _ => .bind (ih hk.2) fun _ _ => .pure trivial

theorem plan (hv : n.kind.validator? name = some .table) : SafeStep (plan emit n name) := by
  obtain ⟨table, htable, hkind, hmem⟩ := h.built.child_eq hv
  rw [Engine.plan, Emission.field, htable]
  refine .bind (h.table table (h.built.of_mem_children hmem)
    (Node.depth_of_mem_children hmem) hkind) fun l hl => ?_
  obtain ⟨p, rfl⟩ := hl
  exact .pure trivial

end SafeBelow

/-! ## The shapes of rules -/

section

variable {kind : NodeKind} {rule : (Node → Lowering Lowered) → Node → Lowering Expr}

/-- A rule for a leaf only has to do with nodes of that kind. -/
theorem giving_leaf (hleaf : kind.definition.isAbstract = false)
    (h : ∀ n emit, n.kind = kind → SafeBelow n emit → SafeStep (rule emit n)) :
    GivesExpr kind (giving rule) :=
  fun n emit hkind hbelow => .bind (h n emit (NodeKind.eq_of_isUnder hleaf hkind) hbelow)
    fun e _ => .pure ⟨e, rfl⟩

theorem giving_below (h : ∀ n emit, n.kind.isUnder kind = true → SafeBelow n emit →
    SafeStep (rule emit n)) :
    GivesExpr kind (giving rule) :=
  fun n emit hkind hbelow => .bind (h n emit hkind hbelow) fun e _ => .pure ⟨e, rfl⟩

theorem callOf_gives (hleaf : kind.definition.isAbstract = false) (f : Function)
    {fields : List String} (hk : fields.all kind.hasValue = true) :
    GivesExpr kind (callOf f fields) := by
  refine giving_leaf hleaf ?_
  rintro n emit rfl h
  exact .bind (h.exprsOf hk) fun _ _ => .pure trivial

theorem callWith_gives (hleaf : kind.definition.isAbstract = false)
    {read : Node → Except Error Function} {field : String} (hk : kind.hasValue field = true)
    (hread : ∀ n : Node, n.Built → n.kind = kind → Proper (fun _ => True) (read n)) :
    GivesExpr kind (callWith read field) := by
  refine giving_leaf hleaf ?_
  rintro n emit rfl h
  exact .lift_bind (hread n h.built rfl) fun _ _ _ =>
    .bind (h.expr hk) fun _ _ => .pure trivial

/-- An expression made of that in one field. -/
theorem ofOne_gives (hleaf : kind.definition.isAbstract = false) {field : String}
    (hk : kind.hasValue field = true) (make : Expr → Expr) :
    GivesExpr kind (giving fun emit n => return make (← expr emit n field)) := by
  refine giving_leaf hleaf ?_
  rintro n emit rfl h
  exact .bind (h.expr hk) fun _ _ => .pure trivial

/-- An expression made of those in one field. -/
theorem ofAll_gives (hleaf : kind.definition.isAbstract = false) {field : String}
    (hk : kind.hasValues field = true) (make : List Expr → Expr) :
    GivesExpr kind (giving fun emit n => return make (← exprs emit n field)) := by
  refine giving_leaf hleaf ?_
  rintro n emit rfl h
  exact .bind (h.exprs hk) fun _ _ => .pure trivial

/-- An expression made of those in two fields. -/
theorem ofTwo_gives (hleaf : kind.definition.isAbstract = false) {first second : String}
    (hfirst : kind.hasValue first = true) (hsecond : kind.hasValue second = true)
    (make : Expr → Expr → Expr) :
    GivesExpr kind (giving fun emit n => do
      let a ← expr emit n first
      let b ← expr emit n second
      return make a b) := by
  refine giving_leaf hleaf ?_
  rintro n emit rfl h
  exact .bind (h.expr hfirst) fun _ _ => .bind (h.expr hsecond) fun _ _ => .pure trivial

end

/-! ## Constants -/

section

variable (n : Node) (field : String)

theorem proper_optionalLiteral (target : String) :
    Proper (fun _ => True) (n.optionalLiteral target field) := by
  unfold Node.optionalLiteral
  split
  · trivial
  · trivial
  · trivial
  · split <;> trivial
  · trivial

theorem proper_requiredLiteral (target : String) :
    Proper (fun _ => True) (n.requiredLiteral target field) := by
  refine (proper_optionalLiteral n field target).bind fun v? _ _ => ?_
  cases v? <;> trivial

theorem proper_textLiteral : Proper (fun _ => True) (textLiteral n field) := by
  refine (proper_requiredLiteral n field targetName).bind fun v _ _ => ?_
  cases v <;> trivial

theorem proper_intLiteral? : Proper (fun _ => True) (intLiteral? n field) := by
  refine (proper_optionalLiteral n field targetName).bind fun v? _ _ => ?_
  rcases v? with _ | v
  · trivial
  · cases v <;> trivial

theorem proper_intLiteral : Proper (fun _ => True) (intLiteral n field) := by
  refine (proper_intLiteral? n field).bind fun k? _ _ => ?_
  cases k? <;> trivial

theorem proper_countOf (k : Int64) : Proper (fun _ => True) (countOf n field k) := by
  unfold countOf
  split <;> trivial

theorem proper_countLiteral : Proper (fun _ => True) (countLiteral n field) :=
  (proper_intLiteral n field).bind fun k _ _ => proper_countOf n field k

theorem proper_constant? : Proper (fun _ => True) (constant? n field) := by
  refine (proper_optionalLiteral n field targetName).bind fun v? _ _ => ?_
  rcases v? with _ | v
  · trivial
  · cases v <;> trivial

theorem proper_lookup {α : Type} (table : List (NodeKind × α)) :
    Proper (fun _ => True) (lookup table n) := by
  unfold lookup
  split <;> trivial

end

/-! ## Constants, columns and conditions -/

theorem literalRule_gives : GivesExpr .literal literalRule := by
  refine giving_leaf rfl fun n emit hkind h => ?_
  obtain ⟨v, hv⟩ := h.built.exists_literal hkind
  rw [hv]
  exact .pure trivial

theorem columnRule_gives : GivesExpr .tableColumn columnRule := by
  refine giving_leaf rfl fun n emit hkind h => ?_
  obtain ⟨name, hname⟩ := h.built.exists_text "name" (by rw [hkind]; rfl)
  exact .ok_bind hname (.pure trivial)

theorem aliasRule_gives : GivesExpr .renamed aliasRule := by
  refine giving_leaf rfl fun n emit hkind h => ?_
  obtain ⟨name, hname⟩ := h.built.exists_text "name" (by rw [hkind]; rfl)
  exact .bind (h.expr (by rw [hkind]; rfl)) fun _ _ => .ok_bind hname (.pure trivial)

theorem castRule_gives : GivesExpr .cast castRule := by
  refine giving_leaf rfl fun n emit hkind h => ?_
  obtain ⟨a, t, ha, ht⟩ := h.built.exists_typeHeld "to" (by rw [hkind]; rfl)
  refine .ok_bind ha ?_
  rw [ht]
  exact .bind (h.expr (by rw [hkind]; rfl)) fun _ _ => .pure trivial

theorem proper_nullWhereEqual (n : Node) (e other : Expr) :
    Proper (fun _ => True) (nullWhereEqual n e other) := by
  have hnull : Proper (fun _ => True) (nullOf n) :=
    n.proper_outputType.bind fun _ _ _ => trivial
  exact hnull.bind fun _ _ _ => trivial

theorem nullIfRule_gives : GivesExpr .nullIf nullIfRule := by
  refine giving_leaf rfl fun n emit hkind h => ?_
  refine .bind (h.expr (by rw [hkind]; rfl)) fun e _ =>
    .bind (h.expr (by rw [hkind]; rfl)) fun other _ => ?_
  exact .lift (proper_nullWhereEqual n e other)

theorem nullIfZeroRule_gives : GivesExpr .nullIfZero nullIfZeroRule := by
  refine giving_leaf rfl fun n emit hkind h => ?_
  exact .bind (h.expr (by rw [hkind]; rfl)) fun e _ => .lift (proper_nullWhereEqual n e _)

theorem conditionRule_gives : GivesExpr .ifElse conditionRule := by
  refine giving_leaf rfl fun n emit hkind h => ?_
  refine .bind (h.expr (by rw [hkind]; rfl)) fun _ _ =>
    .bind (h.expr (by rw [hkind]; rfl)) fun _ _ => ?_
  exact .bind (h.expr (by rw [hkind]; rfl)) fun _ _ => .pure trivial

theorem simpleCaseRule_gives : GivesExpr .simpleCase simpleCaseRule := by
  refine giving_leaf rfl fun n emit hkind h => ?_
  refine .bind (h.expr (by rw [hkind]; rfl)) fun _ _ =>
    .bind (h.exprs (by rw [hkind]; rfl)) fun _ _ => ?_
  exact .bind (h.exprs (by rw [hkind]; rfl)) fun _ _ =>
    .bind (h.expr (by rw [hkind]; rfl)) fun _ _ => .pure trivial

theorem searchedCaseRule_gives : GivesExpr .searchedCase searchedCaseRule := by
  refine giving_leaf rfl fun n emit hkind h => ?_
  refine .bind (h.exprs (by rw [hkind]; rfl)) fun _ _ =>
    .bind (h.exprs (by rw [hkind]; rfl)) fun _ _ => ?_
  exact .bind (h.expr (by rw [hkind]; rfl)) fun _ _ => .pure trivial

theorem betweenRule_gives : GivesExpr .between betweenRule := by
  refine giving_leaf rfl fun n emit hkind h => ?_
  refine .bind (h.expr (by rw [hkind]; rfl)) fun _ _ =>
    .bind (h.expr (by rw [hkind]; rfl)) fun _ _ => ?_
  exact .bind (h.expr (by rw [hkind]; rfl)) fun _ _ => .pure trivial

theorem membership_safe {n : Node} {emit : Node → Lowering Lowered} (h : SafeBelow n emit)
    (hvalue : n.kind.hasValue "value" = true)
    (hoptions : n.kind.hasValues "options" = true) :
    SafeStep (membership emit n) :=
  .bind (h.expr hvalue) fun _ _ => .bind (h.exprs hoptions) fun _ _ => .pure trivial

/-- A list of nodes is left out: it becomes a list of expressions. -/
theorem genericRules_give : ∀ x ∈ genericRules, x.1 ≠ .nodeList → GivesExpr x.1 x.2 := by
  have hkey : GivesExpr .sortKey (giving fun emit n => expr emit n "expr") :=
    giving_leaf rfl fun n emit hkind h => h.expr (by rw [hkind]; rfl)
  have hcontains : GivesExpr .contains (giving membership) :=
    giving_leaf rfl fun n emit hkind h => membership_safe h (by rw [hkind]; rfl)
      (by rw [hkind]; rfl)
  have hexcludes : GivesExpr .notContains (giving fun emit n =>
      return .unary .not (← membership emit n)) :=
    giving_leaf rfl fun n emit hkind h =>
      .bind (membership_safe h (by rw [hkind]; rfl) (by rw [hkind]; rfl)) fun _ _ =>
        .pure trivial
  simp only [genericRules, List.forall_mem_cons]
  exact ⟨fun _ => literalRule_gives, fun _ => columnRule_gives, fun _ => aliasRule_gives,
    fun _ => castRule_gives, fun _ => hkey, fun hne => absurd rfl hne,
    fun _ => ofTwo_gives rfl rfl rfl _, fun _ => nullIfRule_gives,
    fun _ => ofOne_gives rfl rfl _, fun _ => nullIfZeroRule_gives, fun _ =>
      conditionRule_gives, fun _ => simpleCaseRule_gives, fun _ => searchedCaseRule_gives,
    fun _ => betweenRule_gives, fun _ => hcontains, fun _ => hexcludes,
      fun _ => ofAll_gives rfl rfl _,
    fun _ => ofAll_gives rfl rfl _, fun _ => ofAll_gives rfl rfl _,
    fun _ hx => absurd hx List.not_mem_nil⟩

/-! ## Operators and numbers -/

/-- Every kind with one operand calls it by the same name. -/
theorem hasValue_of_isUnder_unary {k : NodeKind} (h : k.isUnder .unary = true) :
    k.hasValue "arg" = true := by
  have hall : ∀ k ∈ NodeKind.all, k.isUnder .unary = true → k.hasValue "arg" = true := by
    set_option maxRecDepth 2000 in decide
  exact hall k k.mem_all h

theorem hasValue_of_isUnder_binary {k : NodeKind} (h : k.isUnder .binary = true) :
    k.hasValue "left" = true ∧ k.hasValue "right" = true := by
  have hall : ∀ k ∈ NodeKind.all, k.isUnder .binary = true →
      k.hasValue "left" = true ∧ k.hasValue "right" = true := by
    set_option maxRecDepth 2000 in decide
  exact hall k k.mem_all h

theorem unaryRule_gives : GivesExpr .unary unaryRule :=
  giving_below fun n _ hkind h => .lift_bind (proper_lookup n _) fun _ _ _ =>
    .bind (h.expr (hasValue_of_isUnder_unary hkind)) fun _ _ => .pure trivial

theorem binaryRule_gives : GivesExpr .binary binaryRule :=
  giving_below fun n _ hkind h => .lift_bind (proper_lookup n _) fun _ _ _ =>
    .bind (h.expr (hasValue_of_isUnder_binary hkind).1) fun _ _ =>
      .bind (h.expr (hasValue_of_isUnder_binary hkind).2) fun _ _ => .pure trivial

theorem onDoubles_safe (op : BinaryOp) {n : Node} {emit : Node → Lowering Lowered}
    (h : SafeBelow n emit) (hl : n.kind.hasValue "left" = true)
    (hr : n.kind.hasValue "right" = true) : SafeStep (onDoubles op emit n) :=
  .bind (h.expr hl) fun _ _ => .bind (h.expr hr) fun _ _ => .pure trivial

theorem operatorRules_give : ∀ x ∈ operatorRules, GivesExpr x.1 x.2 := by
  have hdoubles : ∀ (kind : NodeKind) (op : BinaryOp), kind.definition.isAbstract = false →
      kind.hasValue "left" = true →
      kind.hasValue "right" = true → GivesExpr kind (giving (onDoubles op)) :=
        fun kind op hleaf hl hr =>
    giving_leaf hleaf fun n emit hkind h => onDoubles_safe op h (by rw [hkind]; exact hl)
      (by rw [hkind]; exact hr)
  have hfloor : GivesExpr .floorDivide floorDivideRule :=
    giving_leaf rfl fun n emit hkind h =>
      .bind (onDoubles_safe _ h (by rw [hkind]; rfl) (by rw [hkind]; rfl)) fun _ _ =>
        .lift_bind n.proper_outputType fun _ _ _ => .pure trivial
  simp only [operatorRules, List.forall_mem_cons]
  exact ⟨unaryRule_gives, binaryRule_gives, hdoubles _ _ rfl rfl rfl,
    hdoubles _ _ rfl rfl rfl, hfloor, fun _ hx => absurd hx List.not_mem_nil⟩

theorem proper_decimalScale (digits : Int64) :
    Proper (fun _ => True) (decimalScale digits) := by
  unfold decimalScale
  split <;> trivial

theorem roundRule_gives : GivesExpr .round roundRule := by
  refine giving_leaf rfl fun n emit hkind h =>
    .bind (h.expr (by rw [hkind]; rfl)) fun e _ => ?_
  refine .lift_bind (proper_intLiteral? n _) fun digits _ _ => .ite (fun _ => ?_) fun _ => ?_
  · exact .lift_bind n.proper_outputType fun _ _ _ => .pure trivial
  · refine .lift_bind (proper_decimalScale _) fun scale _ _ => ?_
    exact .lift_bind n.proper_outputType fun _ _ _ => .pure trivial

theorem clipRule_gives : GivesExpr .clip clipRule := by
  refine giving_leaf rfl fun n emit hkind h =>
    .bind (h.expr (by rw [hkind]; rfl)) fun e _ => ?_
  refine .lift_bind (proper_constant? n _) fun lower _ _ =>
    .lift_bind (proper_constant? n _) fun upper _ _ => ?_
  have hrest (e : Expr) : SafeStep (do return .cast e (← n.outputType) : Lowering Expr) :=
    .lift_bind n.proper_outputType fun _ _ _ => .pure trivial
  exact .ite (fun _ => .bind (P := fun _ => True) (.throw rfl) fun _ _ => hrest _)
    fun _ => hrest _

theorem logarithmRule_gives : GivesExpr .log logarithmRule := by
  refine giving_leaf rfl fun n emit hkind h =>
    .bind (h.expr (by rw [hkind]; rfl)) fun e _ => ?_
  refine .lift_bind (proper_optionalLiteral n _ _) fun base _ _ => ?_
  split
  · exact .pure trivial
  · exact .pure trivial
  · split
    · exact .pure trivial
    · exact .throw rfl

theorem numericRules_give : ∀ x ∈ numericRules, GivesExpr x.1 x.2 := by
  simp only [numericRules, List.forall_mem_cons]
  exact ⟨ofOne_gives rfl rfl _, ofOne_gives rfl rfl _,
    callOf_gives rfl _ rfl, ofOne_gives rfl rfl _,
    ofOne_gives rfl rfl _, ofOne_gives rfl rfl _, roundRule_gives, clipRule_gives,
    logarithmRule_gives, fun _ hx => absurd hx List.not_mem_nil⟩

/-! ## Reductions -/

theorem hasValue_of_isUnder_reduction {k : NodeKind} (h : k.isUnder .reduction = true)
    (hk : k ≠ .countStar) :
    k.hasValue "arg" = true
      ∧ k.validator? "where" = some (.optional Catalogue.condition) := by
  have hall : ∀ k ∈ NodeKind.all, k.isUnder .reduction = true → k ≠ .countStar →
      k.hasValue "arg" = true ∧ k.validator? "where"
        = some (.optional Catalogue.condition) := by set_option maxRecDepth 2000 in decide
  exact hall k k.mem_all h hk

theorem reduced_safe (f : Reduction) {n : Node} {emit : Node → Lowering Lowered}
    (h : SafeBelow n emit) (hkind : n.kind.isUnder .reduction = true)
    (hk : n.kind ≠ .countStar) : SafeStep (reduced f emit n) := by
  obtain ⟨harg, hwhere⟩ := hasValue_of_isUnder_reduction hkind hk
  exact .bind (h.expr harg) fun _ _ => .bind (h.expr? hwhere rfl) fun _ _ => .pure trivial

theorem spreadRule_gives {kind : NodeKind} (hleaf : kind.definition.isAbstract = false)
    (hkind : kind.isUnder .reduction = true) (hk : kind ≠ .countStar)
    (hhow : kind.hasText "how" = true) (make : Nat → Reduction) :
    GivesExpr kind (spreadRule make) := by
  refine giving_leaf hleaf ?_
  rintro n emit rfl h
  obtain ⟨how, hhow⟩ := h.built.exists_text _ hhow
  exact .ok_bind hhow (reduced_safe _ h hkind hk)

/-- For all but a count of rows, which has a rule of its own. -/
theorem reductionRule_gives {n : Node} {emit : Node → Lowering Lowered}
    (h : SafeBelow n emit) (hkind : n.kind.isUnder .reduction = true)
    (hk : n.kind ≠ .countStar) :
    Safe (fun l => ∃ e, l = .expr e)
      (giving (fun emit n => do reduced (← lookup reductions n) emit n) emit n) :=
  .bind (.lift_bind (proper_lookup n _) fun f _ _ => reduced_safe f h hkind hk) fun e _ =>
    .pure ⟨e, rfl⟩

theorem countRowsRule_gives :
    GivesExpr .countStar (giving fun emit n => return .countRows (← expr? emit n "where")) :=
  giving_leaf rfl fun n emit hkind h =>
    .bind (h.expr? (v := .optional Catalogue.condition) (by rw [hkind]; rfl) rfl) fun _ _ =>
      .pure trivial

/-- Of two rules that a count of rows stands below, its own is resolved. -/
theorem reductionRules_give {x : NodeKind × EngineRule} (hx : x ∈ reductionRules) {n : Node}
    {emit : Node → Lowering Lowered} (hkind : n.kind.isUnder x.1 = true)
    (hown : n.kind = .countStar → x.1 = .countStar) (h : SafeBelow n emit) :
    Safe (fun l => ∃ e, l = .expr e) (x.2 emit n) := by
  simp only [reductionRules, List.mem_cons, List.not_mem_nil, or_false] at hx
  rcases hx with rfl | rfl | rfl | rfl
  · exact reductionRule_gives h hkind fun hcount => NodeKind.noConfusion (hown hcount)
  · exact spreadRule_gives rfl rfl NodeKind.noConfusion rfl _ n emit hkind h
  · exact spreadRule_gives rfl rfl NodeKind.noConfusion rfl _ n emit hkind h
  · exact countRowsRule_gives n emit hkind h

/-! ## Lists -/

theorem listConcatRule_gives : GivesExpr .arrayConcat listConcatRule := by
  refine giving_leaf rfl fun n emit hkind h => .lift_bind n.proper_outputType fun _ _ _ => ?_
  exact .bind (h.expr (by rw [hkind]; rfl)) fun _ _ =>
    .bind (h.expr (by rw [hkind]; rfl)) fun _ _ => .pure trivial

/-- An array of columns has a type of arrays. -/
theorem proper_elementType {n : Node} (h : n.Built) (hkind : n.kind = .arrayColumn) :
    Proper (fun _ => True) (elementType n) := by
  obtain ⟨shape, t, ht, hn⟩ :=
    h.type_eq (show n.kind.TypedBy Rules.arrayType by rw [hkind]; exact ⟨_, rfl⟩)
  unfold Rules.arrayType at ht
  split at ht
  · cases ht
  · obtain ⟨element, -, rfl⟩ := map_eq_ok.1 ht
    rw [elementType, Node.outputType, hn]
    trivial

theorem listFromColumnsRule_gives : GivesExpr .arrayColumn listFromColumnsRule := by
  refine giving_leaf rfl fun n emit hkind h => ?_
  refine .lift_bind (proper_elementType h.built hkind) fun _ _ _ => ?_
  exact .bind (h.exprs (by rw [hkind]; rfl)) fun _ _ => .pure trivial

theorem listRules_give : ∀ x ∈ listRules, GivesExpr x.1 x.2 := by
  simp only [listRules, List.forall_mem_cons]
  exact ⟨callOf_gives rfl _ rfl, listConcatRule_gives, listFromColumnsRule_gives,
    fun _ hx => absurd hx List.not_mem_nil⟩

/-! ## Text -/

section

variable (n : Node)

theorem proper_readSlice : Proper (fun _ => True) (readSlice n) :=
  (proper_intLiteral n _).bind fun _ _ _ =>
    (proper_intLiteral? n _).bind fun _ _ _ => trivial

theorem proper_readFind : Proper (fun _ => True) (readFind n) := by
  unfold readFind
  split
  · trivial
  · refine (proper_textLiteral n _).bind fun _ _ _ =>
      (proper_intLiteral? n _).bind fun start _ _ => ?_
    cases start with
    | none => trivial
    | some start => exact (proper_countOf n _ start).bind fun _ _ _ => trivial

theorem proper_readText (make : String → Function) (field : String) :
    Proper (fun _ => True) (readText make field n) :=
  (proper_textLiteral n _).bind fun _ _ _ => trivial

theorem proper_readReplacement (make : String → String → Function) :
    Proper (fun _ => True) (readReplacement make n) :=
  (proper_textLiteral n _).bind fun _ _ _ =>
    (proper_textLiteral n _).bind fun _ _ _ => trivial

theorem proper_readCount (make : Nat → Function) (field : String) :
    Proper (fun _ => True) (readCount make field n) :=
  (proper_countLiteral n _).bind fun _ _ _ => trivial

theorem proper_readGroup : Proper (fun _ => True) (readGroup n) :=
  (proper_textLiteral n _).bind fun _ _ _ =>
    (proper_countLiteral n _).bind fun _ _ _ => trivial

theorem proper_readPadding (make : Nat → String → Function) :
    Proper (fun _ => True) (readPadding make n) :=
  (proper_countLiteral n _).bind fun _ _ _ =>
    (proper_textLiteral n _).bind fun _ _ _ => trivial

end

theorem proper_readSet {n : Node} (h : n.Built) (hkind : n.kind = .findInSet) :
    Proper (fun _ => True) (readSet n) := by
  obtain ⟨raw, before, a, -, -, -, hget⟩ :=
    h.get?_eq (show n.kind.validator? "values" = some (.tupleOf Catalogue.text) by
      rw [hkind]; rfl)
  rw [readSet, Node.field_of_get? hget]
  refine Proper.bind (P := fun _ => True) trivial fun data _ _ => ?_
  split <;> trivial

theorem separatedRule_gives : GivesExpr .stringJoin separatedRule := by
  refine giving_leaf rfl fun n emit hkind h =>
    .lift_bind (proper_textLiteral n _) fun _ _ _ => ?_
  exact .bind (h.exprs (by rw [hkind]; rfl)) fun _ _ => .pure trivial

/-- One function of the text in the field, whichever the kind is. -/
theorem stringUnaryRule_gives :
    GivesExpr .stringUnary (callWith (lookup textFunctions) "arg") := by
  have hall : ∀ k ∈ NodeKind.all, k.isUnder .stringUnary = true →
    k.hasValue "arg" = true := by set_option maxRecDepth 2000 in decide
  exact giving_below fun n _ hkind h => .lift_bind (proper_lookup n _) fun _ _ _ =>
    .bind (h.expr (hall n.kind n.kind.mem_all hkind)) fun _ _ => .pure trivial

theorem textRules_give : ∀ x ∈ textRules, GivesExpr x.1 x.2 := by
  simp only [textRules, List.forall_mem_cons]
  exact ⟨stringUnaryRule_gives, ofOne_gives rfl rfl _, ofAll_gives rfl rfl _,
    separatedRule_gives, callWith_gives rfl rfl fun n _ _ => proper_readSlice n,
    callWith_gives rfl rfl fun n _ _ => proper_readCount n _ _,
    callWith_gives rfl rfl fun n _ _ => proper_readFind n,
    callWith_gives rfl rfl fun n => proper_readSet,
    callWith_gives rfl rfl fun n _ _ => proper_readText n _ _,
    callWith_gives rfl rfl fun n _ _ => proper_readText n _ _,
    callWith_gives rfl rfl fun n _ _ => proper_readText n _ _,
    callWith_gives rfl rfl fun n _ _ => proper_readReplacement n _,
    callWith_gives rfl rfl fun n _ _ => proper_readReplacement n _,
    callWith_gives rfl rfl fun n _ _ => proper_readText n _ _,
    callWith_gives rfl rfl fun n _ _ => proper_readText n _ _,
    callWith_gives rfl rfl fun n _ _ => proper_readGroup n,
    callWith_gives rfl rfl fun n _ _ => proper_readPadding n _,
    callWith_gives rfl rfl fun n _ _ => proper_readPadding n _,
    callWith_gives rfl rfl fun n _ _ => proper_readCount n _ _,
    fun _ hx => absurd hx List.not_mem_nil⟩

/-! ## Time -/

/-- A value in a field has a type. -/
theorem proper_childType {n : Node} (h : n.Built) {field : String}
    (hk : n.kind.hasValue field = true) :
    Proper (fun _ => True) (childType n field) := by
  obtain ⟨m, hm, hmem, hvalue⟩ := h.exists_value _ hk
  obtain ⟨t, ht⟩ := (h.of_mem_children hmem).exists_type hvalue
  rw [childType, hm]
  refine Proper.bind (P := (· = m)) rfl fun _ _ heq => ?_
  rw [heq, ht]
  trivial

theorem proper_timestampUnit {n : Node} (h : n.Built) {field : String}
    (hk : n.kind.hasValue field = true) :
    Proper (fun _ => True) (timestampUnit n field) := by
  refine (proper_childType h hk).bind fun t _ _ => ?_
  cases t <;> trivial

theorem proper_stepOf {n : Node} (h : n.Built) (hk : n.kind.hasValue "right" = true) :
    Proper (fun _ => True) (stepOf n) := by
  refine (proper_childType h hk).bind fun t _ _ => ?_
  split
  · split <;> trivial
  · trivial

theorem shiftTimestampRule_gives {kind : NodeKind}
    (hleaf : kind.definition.isAbstract = false) (hl : kind.hasValue "left" = true)
    (hr : kind.hasValue "right" = true) (combine : Expr → Expr → Expr) :
    GivesExpr kind (shiftTimestampRule combine) := by
  refine giving_leaf hleaf ?_
  rintro n emit rfl h
  refine .lift_bind (proper_timestampUnit h.built hl) fun _ _ _ =>
    .lift_bind (proper_stepOf h.built hr) fun _ _ _ => ?_
  exact .bind (h.expr hl) fun _ _ => .bind (h.expr hr) fun _ _ => .pure trivial

theorem shiftDateRule_gives {kind : NodeKind} (hleaf : kind.definition.isAbstract = false)
    (hl : kind.hasValue "left" = true) (hr : kind.hasValue "right" = true)
    (combine : Expr → Expr → Expr) : GivesExpr kind (shiftDateRule combine) := by
  refine giving_leaf hleaf ?_
  rintro n emit rfl h
  refine .lift_bind (proper_stepOf h.built hr) fun step _ _ => ?_
  have hrest : SafeStep (do
      let base ← expr emit n "left"
      let delta ← expr emit n "right"
      let days := shift combine (daysOf base) (.cast delta .int64) nanosPerDay step.2
      return .cast (.cast days .int32) .date : Lowering Expr) :=
    .bind (h.expr hl) fun _ _ => .bind (h.expr hr) fun _ _ => .pure trivial
  exact .ite (fun _ => .bind (P := fun _ => True) (.throw rfl) fun _ _ => hrest)
    fun _ => hrest

theorem proper_intervalDifference {n : Node} (h : n.Built)
    (hr : n.kind.hasValue "right" = true) (unit : IntervalUnit) (left right : Expr) :
    Proper (fun _ => True) (intervalDifference n unit left right) := by
  refine (proper_childType h hr).bind fun t _ _ => ?_
  split
  · trivial
  · split
    · exact (proper_stepOf h hr).bind fun _ _ _ => trivial
    · trivial

theorem subtractIntervalRule_gives : GivesExpr .intervalSubtract subtractIntervalRule := by
  refine giving_leaf rfl fun n emit hkind h => ?_
  have hl : n.kind.hasValue "left" = true := by rw [hkind]; rfl
  have hr : n.kind.hasValue "right" = true := by rw [hkind]; rfl
  have hunit : Proper (fun _ => True) (intervalUnit n) := by
    refine (proper_childType h.built hl).bind fun t _ _ => ?_
    cases t <;> trivial
  refine .lift_bind hunit fun unit _ _ => .bind (h.expr hl) fun _ _ =>
    .bind (h.expr hr) fun _ _ => ?_
  exact .lift_bind (proper_intervalDifference h.built hr unit _ _) fun _ _ _ => .pure trivial

theorem extracted_safe (field : TemporalField) {n : Node} {emit : Node → Lowering Lowered}
    (h : SafeBelow n emit) (hk : n.kind.hasValue "arg" = true) :
    SafeStep (extracted field emit n) :=
  .bind (h.expr hk) fun _ _ => .pure trivial

theorem fieldRule_gives : GivesExpr .extractTemporalField fieldRule := by
  have hall : ∀ k ∈ NodeKind.all, k.isUnder .extractTemporalField = true →
    k.hasValue "arg" = true := by set_option maxRecDepth 2000 in decide
  exact giving_below fun n _ hkind h => .lift_bind (proper_lookup n _) fun field _ _ =>
    .bind (extracted_safe field h (hall n.kind n.kind.mem_all hkind)) fun _ _ =>
      .pure trivial

theorem truncateRule_gives {kind : NodeKind} (hleaf : kind.definition.isAbstract = false)
    (hunit : kind.hasText "unit" = true) (hk : kind.hasValue "arg" = true) :
    GivesExpr kind truncateRule := by
  refine giving_leaf hleaf ?_
  rintro n emit rfl h
  obtain ⟨unit, hunit⟩ := h.built.exists_text _ hunit
  exact .ok_bind hunit (.bind (h.expr hk) fun _ _ => .pure trivial)

theorem fromCountRule_gives {kind : NodeKind} (hleaf : kind.definition.isAbstract = false)
    (hk : kind.hasValue "arg" = true) :
    GivesExpr kind fromCountRule := by
  refine giving_leaf hleaf ?_
  rintro n emit rfl h
  exact .bind (h.expr hk) fun _ _ =>
    .lift_bind n.proper_outputType fun _ _ _ => .pure trivial

theorem timeRules_give : ∀ x ∈ timeRules, GivesExpr x.1 x.2 := by
  have hindex : GivesExpr .dayOfWeekIndex (giving fun emit n =>
      return .cast (← extracted .weekday emit n) .int32) :=
    giving_leaf rfl fun n emit hkind h =>
      .bind (extracted_safe _ h (by rw [hkind]; rfl)) fun _ _ => .pure trivial
  have hname : GivesExpr .dayOfWeekName weekdayNameRule :=
    giving_leaf rfl fun n emit hkind h =>
      .bind (extracted_safe _ h (by rw [hkind]; rfl)) fun _ _ => .pure trivial
  have hnow : GivesExpr .timestampNow nowRule :=
    giving_leaf rfl fun n emit _ _ => .target_bind fun _ => .pure trivial
  have hformat : ∀ (make : String → Function) (n : Node),
    Proper (fun _ => True) (readFormat make n) := fun make n =>
    (proper_textLiteral n _).bind fun _ _ _ => trivial
  simp only [timeRules, List.forall_mem_cons]
  exact ⟨fieldRule_gives, hindex, hname, callOf_gives rfl _ rfl,
    shiftTimestampRule_gives rfl rfl rfl _, shiftTimestampRule_gives rfl rfl rfl _,
    shiftDateRule_gives rfl rfl rfl _, shiftDateRule_gives rfl rfl rfl _,
    subtractIntervalRule_gives, ofTwo_gives rfl rfl rfl _, ofTwo_gives rfl rfl rfl _,
    ofOne_gives rfl rfl _, callWith_gives rfl rfl fun n _ _ => hformat _ n,
    callWith_gives rfl rfl fun n _ _ => hformat _ n, truncateRule_gives rfl rfl rfl,
    truncateRule_gives rfl rfl rfl, callOf_gives rfl _ rfl,
    callOf_gives rfl _ rfl, fromCountRule_gives rfl rfl,
    fromCountRule_gives rfl rfl, hnow, fun _ hx => absurd hx List.not_mem_nil⟩

end Engine

end TypedQuery
