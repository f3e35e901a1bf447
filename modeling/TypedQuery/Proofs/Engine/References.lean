import TypedQuery.Proofs.Engine.Answers
import TypedQuery.Proofs.Node.Calls
import TypedQuery.Proofs.Node.Reread

/-!
# References to columns on the engine

A column becomes its bare name on the engine, whatever table it belongs to. So nodes that
differ only in the tables of their columns become the same: that is what `Ignores` says of
a rule, and it holds of every rule but those for joins, which look at the tables to tell
the two sides of an equality apart.

A name is looked up among all columns of the table that is selected from. Over a join, a
name that the left side has is therefore found there, whichever side the reference is to.
-/

namespace TypedQuery

namespace Engine

/-! ## Words -/

/-- Two nodes that differ only in the tables of columns, and so do the nodes below them
that become the same. -/
structure Alike (emit : Node → Lowering Lowered) (n m : Node) : Prop where
  built : n.Built
  built' : m.Built
  parts : n.unownedParts = m.unownedParts
  same : ∀ a b, a.Under n → b.Under m → a.unowned = b.unowned → emit a = emit b

/-- The step does the same for two such nodes. -/
def Ignores {α : Type} (step : (Node → Lowering Lowered) → Node → Lowering α) : Prop :=
  ∀ emit n m, Alike emit n m → step emit n = step emit m

theorem giving_ignores {rule : (Node → Lowering Lowered) → Node → Lowering Expr}
    (h : Ignores rule) :
    Ignores (giving rule) := by
  intro emit n m hnm
  rw [giving, giving, h emit n m hnm]

namespace Alike

variable {emit : Node → Lowering Lowered} {n m : Node}

section

variable (h : Alike emit n m) (name : String)

include h

theorem kind : n.kind = m.kind := Node.kind_of_parts h.parts

theorem outputType : n.outputType = m.outputType := Node.outputType_of_parts h.parts

theorem stringField : n.stringField name = m.stringField name :=
  Node.stringField_of_parts h.parts name

theorem intField : n.intField name = m.intField name := Node.intField_of_parts h.parts name

/-- Fields of nodes are walked to the same end. -/
theorem child_bind {α : Type} {next next' : Node → Lowering α}
    (hnext : ∀ a b, a.Under n → b.Under m → a.unowned = b.unowned → next a = next' b) :
    (liftM (n.child name) >>= next : Lowering α) = liftM (m.child name) >>= next' := by
  rcases map_eq_map.1 (Node.child_of_parts h.parts name)
    with ⟨e, hn, hm⟩ | ⟨a, b, hn, hm, hab⟩
  · rw [hn, hm]
    rfl
  · rw [hn, hm]
    exact hnext a b (.child (h.built.mem_children_of_child hn))
      (.child (h.built'.mem_children_of_child hm)) hab

theorem field : Emission.field emit n name = Emission.field emit m name :=
  h.child_bind name h.same

theorem field? : Emission.field? emit n name = Emission.field? emit m name := by
  unfold Emission.field?
  rcases option_map_eq_map.1 (Node.child?_of_parts h.parts name)
    with ⟨hn, hm⟩ | ⟨a, b, hn, hm, hab⟩
  · rw [hn, hm]
  · have hsame := h.same a b (.child (h.built.mem_children_of_child? hn))
      (.child (h.built'.mem_children_of_child? hm)) hab
    rw [hn, hm]
    show (emit a >>= fun o => pure (some o)) = emit b >>= fun o => pure (some o)
    rw [hsame]

/-- Lists of nodes are walked to the same end as well. -/
theorem childList_bind {α : Type} {next next' : List Node → Lowering α}
    (hnext : ∀ ns ms, n.childList name = .ok ns → m.childList name = .ok ms →
      List.Forall₂ (fun a b => a.Under n ∧ b.Under m ∧ a.unowned = b.unowned) ns ms →
        next ns = next' ms) :
    (liftM (n.childList name) >>= next : Lowering α)
      = liftM (m.childList name) >>= next' := by
  rcases map_eq_map.1 (Node.childList_of_parts h.parts name)
    with ⟨e, hn, hm⟩ | ⟨ns, ms, hn, hm, hnm⟩
  · rw [hn, hm]
    rfl
  · rw [hn, hm]
    have heq : List.Forall₂ Eq (ns.map Node.unowned) (ms.map Node.unowned) := by
      rw [hnm]
      exact List.forall₂_same.2 fun _ _ => rfl
    have hsame := List.forall₂_map_right_iff.1 (List.forall₂_map_left_iff.1 heq)
    refine hnext ns ms hn hm
      (List.forall₂_iff_get.2 ⟨hsame.length_eq, fun i hi hi' => ⟨?_, ?_, ?_⟩⟩)
    · exact childList_under h.built hn _ (List.get_mem _ _)
    · exact childList_under h.built' hm _ (List.get_mem _ _)
    · exact hsame.get hi hi'

theorem sequence : Emission.sequence emit n name = Emission.sequence emit m name := by
  refine h.childList_bind name ?_
  rintro ns ms - - hnm
  induction hnm with
  | nil => rfl
  | cons hab _ ih => rw [Emission.each, Emission.each, h.same _ _ hab.1 hab.2.1 hab.2.2, ih]

theorem expr : expr emit n name = expr emit m name := by
  rw [Engine.expr, h.field name, Engine.expr]

theorem expr? : expr? emit n name = expr? emit m name := by
  rw [Engine.expr?, h.field? name, Engine.expr?]

theorem exprs : exprs emit n name = exprs emit m name := by
  rw [Engine.exprs, h.sequence name, Engine.exprs]

omit name in
theorem exprsOf (names : List String) : exprsOf emit n names = exprsOf emit m names := by
  induction names with
  | nil => rfl
  | cons name rest ih => rw [Engine.exprsOf, Engine.exprsOf, h.expr name, ih]

theorem plan : plan emit n name = plan emit m name := by
  rw [Engine.plan, h.field name, Engine.plan]

/-! Constants are read as the same. -/

theorem optionalLiteral :
    n.optionalLiteral targetName name = m.optionalLiteral targetName name := by
  unfold Node.optionalLiteral
  rw [h.kind]
  rcases option_map_eq_map.1 (Node.get?_of_parts h.parts name)
    with ⟨hn, hm⟩ | ⟨a, b, hn, hm, hab⟩
  · rw [hn, hm]
  · rw [hn, hm]
    cases a with
    | node k =>
        cases b with
        | node l =>
            have hkl : k.unowned = l.unowned := Arg.node.inj hab
            have hliteral : k.literal? = l.literal? := by
              rw [← Node.literal?_unowned, hkl, Node.literal?_unowned]
            have hkind : k.isLiteral = l.isLiteral := by
              rw [Node.isLiteral, ← Node.kind_unowned, hkl,
                Node.kind_unowned, Node.isLiteral]
            simp only [hliteral, hkind]
        | none | value _ | seq _ | map _ | type _ | shape _ | schema _ =>
            simp [Arg.unowned] at hab
    | none | value _ | seq _ | map _ | type _ | shape _ | schema _ =>
        cases b <;> simp [Arg.unowned] at hab
        all_goals first | rfl | rw [hab]

theorem requiredLiteral :
    n.requiredLiteral targetName name = m.requiredLiteral targetName name := by
  rw [Node.requiredLiteral, h.optionalLiteral name, h.kind, Node.requiredLiteral]

theorem unsupported : unsupported n name = unsupported m name := by
  rw [Engine.unsupported, h.kind, Engine.unsupported]

theorem wrongLiteral (expected : String) (v : Value) :
    wrongLiteral n name expected v = wrongLiteral m name expected v := by
  rw [Engine.wrongLiteral, h.kind, Engine.wrongLiteral]

theorem textLiteral : textLiteral n name = textLiteral m name := by
  simp only [Engine.textLiteral, h.requiredLiteral, h.wrongLiteral]

theorem intLiteral? : intLiteral? n name = intLiteral? m name := by
  simp only [Engine.intLiteral?, h.optionalLiteral, h.wrongLiteral]

theorem intLiteral : intLiteral n name = intLiteral m name := by
  simp only [Engine.intLiteral, h.intLiteral?, h.unsupported]

theorem countOf (k : Int64) : countOf n name k = countOf m name k := by
  simp only [Engine.countOf, negativeCount, h.kind]

theorem countLiteral : countLiteral n name = countLiteral m name := by
  simp only [Engine.countLiteral, h.intLiteral, h.countOf]

theorem constant? : constant? n name = constant? m name := by
  simp only [Engine.constant?, h.optionalLiteral]

omit name in
theorem lookup {α : Type} (table : List (NodeKind × α)) :
    lookup table n = lookup table m := by
  simp only [Engine.lookup, h.kind]

theorem childType : childType n name = childType m name := by
  unfold Engine.childType
  rcases map_eq_map.1 (Node.child_of_parts h.parts name)
    with ⟨e, hn, hm⟩ | ⟨a, b, hn, hm, hab⟩
  · rw [hn, hm]
    rfl
  · have htype : a.dataType? = b.dataType? := by
      rw [← Node.dataType?_unowned, hab, Node.dataType?_unowned]
    rw [hn, hm, h.kind]
    simp only [bind, Except.bind, htype]

end

end Alike

theorem callOf_ignores (f : Function) (fields : List String) : Ignores (callOf f fields) :=
  giving_ignores fun _ _ _ h => by simp only [h.exprsOf]

theorem callWith_ignores {read : Node → Except Error Function} (field : String)
    (hread : ∀ emit n m, Alike emit n m → read n = read m) : Ignores (callWith read field) :=
  giving_ignores fun emit n m h => by simp only [hread emit n m h, h.expr]

/-! ## Rules for values -/

theorem literalRule_ignores : Ignores literalRule := by
  refine giving_ignores fun emit n m h => ?_
  have hliteral : n.literal? = m.literal? := by
    rw [← Node.literal?_unownedParts, h.parts, Node.literal?_unownedParts]
  simp only [hliteral, Node.dataType?_of_parts h.parts]

/-- A field that cannot be read ends the rule. -/
theorem liftM_error_bind {α β : Type} (e : Error) (next : α → Lowering β) :
    (liftM (Except.error e : Except Error α) : Lowering α) >>= next = throw e := rfl

theorem castRule_ignores : Ignores castRule := by
  refine giving_ignores fun emit n m h => ?_
  rcases map_eq_map.1 (Node.field_of_parts h.parts "to")
    with ⟨e, hn, hm⟩ | ⟨a, b, hn, hm, hab⟩
  · simp only [hn, hm, liftM_error_bind]
  · have htype : a.type? = b.type? := by rw [← Arg.type?_unowned, hab, Arg.type?_unowned]
    have hlift : ∀ c : Arg, (liftM (Except.ok c : Except Error Arg) : Lowering Arg)
      = pure c := fun _ => rfl
    simp only [hn, hm, hlift, pure_bind, htype, h.expr]

theorem nullWhereEqual_congr {n m : Node} (h : n.outputType = m.outputType) :
    nullWhereEqual n = nullWhereEqual m := by
  funext e other
  rw [nullWhereEqual, nullOf, h, nullWhereEqual, nullOf]

theorem membership_ignores : Ignores membership :=
  fun _ _ _ h => by simp only [membership, h.expr, h.exprs]

theorem aliasRule_ignores : Ignores aliasRule :=
  giving_ignores fun _ _ _ h => by simp only [h.expr, h.stringField]

theorem fillRule_ignores : Ignores fillRule :=
  giving_ignores fun _ _ _ h => by simp only [h.expr]

theorem nullIfRule_ignores : Ignores nullIfRule :=
  giving_ignores fun _ _ _ h => by simp only [h.expr, nullWhereEqual_congr h.outputType]

theorem nullIfZeroRule_ignores : Ignores nullIfZeroRule :=
  giving_ignores fun _ _ _ h => by simp only [h.expr, nullWhereEqual_congr h.outputType]

theorem conditionRule_ignores : Ignores conditionRule :=
  giving_ignores fun _ _ _ h => by simp only [h.expr]

theorem simpleCaseRule_ignores : Ignores simpleCaseRule :=
  giving_ignores fun _ _ _ h => by simp only [h.expr, h.exprs]

theorem searchedCaseRule_ignores : Ignores searchedCaseRule :=
  giving_ignores fun _ _ _ h => by simp only [h.expr, h.exprs]

theorem betweenRule_ignores : Ignores betweenRule :=
  giving_ignores fun _ _ _ h => by simp only [h.expr]

/-- A column is the exception only because it doesn't have the field that others lack. -/
theorem genericRules_ignore : ∀ x ∈ genericRules, x.1 ≠ .tableColumn → Ignores x.2 := by
  have hkey : Ignores (giving fun emit n => expr emit n "expr") :=
    giving_ignores fun _ _ _ h => h.expr "expr"
  have hlist : Ignores fun emit n => return Lowered.exprs (← exprs emit n "values") :=
    fun _ _ _ h => by simp only [h.exprs]
  have hzero :
      Ignores (giving fun emit n => return .fillNull (← expr emit n "arg") (.ofInt 0)) :=
    giving_ignores fun _ _ _ h => by simp only [h.expr]
  have hnot : Ignores (giving fun emit n => return .unary .not (← membership emit n)) :=
    giving_ignores fun _ _ _ h => by simp only [membership_ignores _ _ _ h]
  have hitems : ∀ make : List Expr →
      Expr, Ignores (giving fun emit n => return make (← exprs emit n "arg")) :=
    fun make => giving_ignores fun _ _ _ h => by simp only [h.exprs]
  simp only [genericRules, List.forall_mem_cons, literalRule_ignores, aliasRule_ignores,
    castRule_ignores, hkey, hlist, fillRule_ignores, nullIfRule_ignores, hzero,
    nullIfZeroRule_ignores, conditionRule_ignores, simpleCaseRule_ignores,
    searchedCaseRule_ignores, betweenRule_ignores, giving_ignores membership_ignores, hnot,
    hitems .coalesce, hitems .greatest, hitems .least, ne_eq, not_true,
    false_imp_iff, implies_true, List.not_mem_nil, and_self]

theorem unaryRule_ignores : Ignores unaryRule :=
  giving_ignores fun _ _ _ h => by simp only [h.lookup, h.expr]

theorem binaryRule_ignores : Ignores binaryRule :=
  giving_ignores fun _ _ _ h => by simp only [h.lookup, h.expr]

theorem onDoubles_ignores (op : BinaryOp) : Ignores (onDoubles op) :=
  fun _ _ _ h => by simp only [onDoubles, h.expr]

theorem floorDivideRule_ignores : Ignores floorDivideRule :=
  giving_ignores fun _ _ _ h => by simp only [onDoubles_ignores _ _ _ _ h, h.outputType]

theorem operatorRules_ignore : ∀ x ∈ operatorRules, Ignores x.2 := by
  simp only [operatorRules, List.forall_mem_cons, unaryRule_ignores, binaryRule_ignores,
    giving_ignores (onDoubles_ignores _), floorDivideRule_ignores, List.not_mem_nil,
    false_imp_iff, implies_true, and_self]

theorem towardsRule_ignores (op : UnaryOp) : Ignores (towardsRule op) :=
  giving_ignores fun _ _ _ h => by simp only [h.expr]

theorem cotangentRule_ignores : Ignores cotangentRule :=
  giving_ignores fun _ _ _ h => by simp only [h.expr]

theorem scaledRule_ignores (factor : Float) : Ignores (scaledRule factor) :=
  giving_ignores fun _ _ _ h => by simp only [h.expr]

theorem roundRule_ignores : Ignores roundRule :=
  giving_ignores fun _ _ _ h => by simp only [h.expr, h.intLiteral?, h.outputType]

theorem clipRule_ignores : Ignores clipRule :=
  giving_ignores fun _ _ _ h => by simp only [h.expr, h.constant?, h.outputType]

theorem logarithmRule_ignores : Ignores logarithmRule :=
  giving_ignores fun _ _ _ h => by simp only [h.expr, h.optionalLiteral, h.wrongLiteral]

theorem numericRules_ignore : ∀ x ∈ numericRules, Ignores x.2 := by
  simp only [numericRules, List.forall_mem_cons, towardsRule_ignores, callOf_ignores,
    cotangentRule_ignores, scaledRule_ignores, roundRule_ignores, clipRule_ignores,
    logarithmRule_ignores, List.not_mem_nil, false_imp_iff, implies_true, and_self]

theorem reduced_ignores (f : Reduction) : Ignores (reduced f) :=
  fun _ _ _ h => by simp only [reduced, h.expr, h.expr?]

theorem spreadRule_ignores (make : Nat → Reduction) : Ignores (spreadRule make) :=
  giving_ignores fun _ _ _ h => by simp only [h.stringField, reduced_ignores _ _ _ _ h]

theorem reductionRules_ignore : ∀ x ∈ reductionRules, Ignores x.2 := by
  have hreduction :
      Ignores (giving fun emit n => do reduced (← lookup reductions n) emit n) :=
    giving_ignores fun _ _ _ h => by simp only [h.lookup, reduced_ignores _ _ _ _ h]
  have hrows : Ignores (giving fun emit n => return .countRows (← expr? emit n "where")) :=
    giving_ignores fun _ _ _ h => by simp only [h.expr?]
  simp only [reductionRules, List.forall_mem_cons, hreduction, spreadRule_ignores, hrows,
    List.not_mem_nil, false_imp_iff, implies_true, and_self]

/-! ## Rules for lists and texts -/

theorem listConcatRule_ignores : Ignores listConcatRule :=
  giving_ignores fun _ _ _ h => by simp only [h.outputType, h.expr]

theorem listFromColumnsRule_ignores : Ignores listFromColumnsRule :=
  giving_ignores fun _ _ _ h => by simp only [elementType, h.outputType, h.kind, h.exprs]

theorem listRules_ignore : ∀ x ∈ listRules, Ignores x.2 := by
  simp only [listRules, List.forall_mem_cons, callOf_ignores, listConcatRule_ignores,
    listFromColumnsRule_ignores, List.not_mem_nil, false_imp_iff, implies_true, and_self]

theorem lengthRule_ignores : Ignores lengthRule :=
  giving_ignores fun _ _ _ h => by simp only [h.expr]

theorem separatedRule_ignores : Ignores separatedRule :=
  giving_ignores fun _ _ _ h => by simp only [h.textLiteral, h.exprs]

theorem textOf?_unowned (a : Arg) : textOf? a.unowned = textOf? a := by
  cases a with
  | node n => rw [Arg.unowned, textOf?, Node.literal?_unowned, textOf?]
  | none | value _ | seq _ | map _ | type _ | shape _ | schema _ => rfl

section

variable {emit : Node → Lowering Lowered} {n m : Node} (h : Alike emit n m)

include h

theorem readFind_congr : readFind n = readFind m := by
  simp only [readFind, Node.isNone_of_parts h.parts, h.textLiteral, h.intLiteral?, h.countOf]

theorem readSet_congr : readSet n = readSet m := by
  unfold readSet
  rcases map_eq_map.1 (Node.field_of_parts h.parts "values")
    with ⟨e, hn, hm⟩ | ⟨a, b, hn, hm, hab⟩
  · rw [hn, hm]
    rfl
  · have htexts : ∀ a : Arg, a.unowned.seq?.bind (·.mapM textOf?) = a.seq?.bind
        (·.mapM textOf?) := by
      intro a
      cases a with
      | seq items =>
          show (Arg.unownedItems items).mapM textOf? = items.mapM textOf?
          induction items with
          | nil => rfl
          | cons item rest ih =>
              rw [Arg.unownedItems, List.mapM_cons, List.mapM_cons, textOf?_unowned, ih]
      | none | value _ | node _ | map _ | type _ | shape _ | schema _ => rfl
    have hsame : a.seq?.bind (·.mapM textOf?) = b.seq?.bind (·.mapM textOf?) := by
      rw [← htexts a, hab, htexts]
    rw [hn, hm]
    simp only [bind, Except.bind, h.unsupported]
    rw [hsame]

end

theorem textRules_ignore : ∀ x ∈ textRules, Ignores x.2 := by
  have hconcat :
      Ignores (giving fun emit n => return .call (.concat "") (← exprs emit n "arg")) :=
    giving_ignores fun _ _ _ h => by simp only [h.exprs]
  have hunary : Ignores (callWith (lookup textFunctions) "arg") :=
    callWith_ignores _ fun _ _ _ h => h.lookup _
  have hslice : Ignores (callWith readSlice "arg") :=
    callWith_ignores _ fun _ _ _ h => by simp only [readSlice, h.intLiteral, h.intLiteral?]
  have htext : ∀ make field of, Ignores (callWith (readText make field) of) :=
    fun make field of => callWith_ignores _ fun _ _ _ h =>
      by simp only [readText, h.textLiteral]
  have hcount : ∀ make field of, Ignores (callWith (readCount make field) of) :=
    fun make field of => callWith_ignores _ fun _ _ _ h =>
      by simp only [readCount, h.countLiteral]
  have hreplacement : ∀ make, Ignores (callWith (readReplacement make) "arg") :=
    fun make => callWith_ignores _ fun _ _ _ h =>
      by simp only [readReplacement, h.textLiteral]
  have hgroup : Ignores (callWith readGroup "arg") :=
    callWith_ignores _ fun _ _ _ h => by simp only [readGroup, h.textLiteral, h.countLiteral]
  have hpadding : ∀ make, Ignores (callWith (readPadding make) "arg") :=
    fun make => callWith_ignores _ fun _ _ _ h =>
      by simp only [readPadding, h.textLiteral, h.countLiteral]
  simp only [textRules, List.forall_mem_cons, hunary, lengthRule_ignores, hconcat,
    separatedRule_ignores, hslice, hcount,
    callWith_ignores "arg" fun _ _ _ h => readFind_congr h,
    callWith_ignores "needle" fun _ _ _ h => readSet_congr h, htext, hreplacement, hgroup,
    hpadding, List.not_mem_nil, false_imp_iff, implies_true, and_self]

/-! ## Rules for times -/

theorem extracted_ignores (field : TemporalField) : Ignores (extracted field) :=
  fun _ _ _ h => by simp only [extracted, h.expr]

theorem fieldRule_ignores : Ignores fieldRule :=
  giving_ignores fun _ _ _ h => by simp only [h.lookup, extracted_ignores _ _ _ _ h]

theorem weekdayNameRule_ignores : Ignores weekdayNameRule :=
  giving_ignores fun _ _ _ h => by simp only [extracted_ignores _ _ _ _ h]

theorem stepOf_congr {emit : Node → Lowering Lowered} {n m : Node} (h : Alike emit n m) :
    stepOf n = stepOf m := by
  simp only [stepOf, h.childType, h.unsupported]

theorem shiftTimestampRule_ignores (combine : Expr → Expr → Expr) :
    Ignores (shiftTimestampRule combine) :=
  giving_ignores fun _ _ _ h =>
    by simp only [timestampUnit, h.childType, h.kind, stepOf_congr h, h.expr]

theorem shiftDateRule_ignores (combine : Expr → Expr → Expr) :
    Ignores (shiftDateRule combine) :=
  giving_ignores fun _ _ _ h => by simp only [stepOf_congr h, h.expr]

theorem subtractIntervalRule_ignores : Ignores subtractIntervalRule :=
  giving_ignores fun _ _ _ h => by
    simp only [intervalUnit, intervalDifference, h.childType, stepOf_congr h,
      h.unsupported, h.expr]

theorem differenceRule_ignores (count : Expr → Expr) : Ignores (differenceRule count) :=
  giving_ignores fun _ _ _ h => by simp only [h.expr]

theorem truncateRule_ignores : Ignores truncateRule :=
  giving_ignores fun _ _ _ h => by simp only [h.stringField, h.expr]

theorem fromCountRule_ignores : Ignores fromCountRule :=
  giving_ignores fun _ _ _ h => by simp only [h.expr, h.outputType]

theorem timeRules_ignore : ∀ x ∈ timeRules, Ignores x.2 := by
  have hindex :
      Ignores (giving fun emit n => return .cast (← extracted .weekday emit n) .int32) :=
    giving_ignores fun _ _ _ h => by simp only [extracted_ignores _ _ _ _ h]
  have hdate : Ignores (giving fun emit n => return .cast (← expr emit n "arg") .date) :=
    giving_ignores fun _ _ _ h => by simp only [h.expr]
  have hformat : ∀ make, Ignores (callWith (readFormat make) "arg") :=
    fun make => callWith_ignores _ fun _ _ _ h => by simp only [readFormat, h.textLiteral]
  have hnow : Ignores nowRule := fun _ _ _ _ => rfl
  simp only [timeRules, List.forall_mem_cons, fieldRule_ignores, hindex,
    weekdayNameRule_ignores, callOf_ignores, shiftTimestampRule_ignores,
    shiftDateRule_ignores, subtractIntervalRule_ignores, differenceRule_ignores, hdate,
    hformat, truncateRule_ignores, fromCountRule_ignores, hnow, List.not_mem_nil,
    false_imp_iff, implies_true, and_self]

/-! ## All rules for values -/

/-- Rules for values, and for what else stands in fields of tables. -/
theorem rules_ignore {kind k : NodeKind} {rule : EngineRule} (htable : kind.isTable = false)
    (hcolumn : kind ≠ .tableColumn) (h : rules.resolve kind = .ok (k, rule)) :
    Ignores rule := by
  obtain ⟨hlineage, hmem⟩ := RuleTable.resolve_eq_ok h
  have hk : k.isTable = false ∧ k ≠ .tableColumn := by
    have habove : ∀ kind ∈ NodeKind.all, kind.isTable = false → kind ≠ .tableColumn →
        ∀ k ∈ kind.lineage, k.isTable = false ∧ k ≠ .tableColumn := by
          set_option maxRecDepth 2000 in decide
    exact habove kind kind.mem_all htable hcolumn k hlineage
  rcases RuleTable.mem_or_mem_of_registered hmem with hmem | hmem
  · simp only [List.mem_append, valueRules] at hmem
    rcases hmem with (((hmem | hmem) | hmem) | hmem) | hmem
    · rcases hmem with ((hmem | hmem) | hmem) | hmem
      · exact genericRules_ignore _ hmem hk.2
      · exact operatorRules_ignore _ hmem
      · exact numericRules_ignore _ hmem
      · exact reductionRules_ignore _ hmem
    · exact listRules_ignore _ hmem
    · exact textRules_ignore _ hmem
    · exact timeRules_ignore _ hmem
    · have htables : ∀ x ∈ tableRules, x.1.isTable = true := by
        simp only [tableRules, List.forall_mem_cons, List.not_mem_nil, false_imp_iff,
          implies_true, and_true]
        decide
      rw [htables _ hmem] at hk
      cases hk.1
  · cases List.mem_singleton.1 hmem
    intro emit n m h
    rw [RuleTable.refuse, RuleTable.refuse, h.kind]

theorem rules_resolve (kind : NodeKind) : ∃ k rule, rules.resolve kind = .ok (k, rule) := by
  have h : ∀ kind ∈ NodeKind.all, (rules.nearest? kind.lineage).isSome = true := by
    set_option maxRecDepth 2000 in decide
  obtain ⟨⟨k, rule⟩, hfound⟩ := Option.isSome_iff_exists.1 (h kind kind.mem_all)
  exact ⟨k, rule, by rw [RuleTable.resolve, hfound]⟩

/-- A column becomes its bare name. -/
theorem answer_column {n : Node} (h : n.Built) (hkind : n.kind = .tableColumn)
    (clock : Clock) :
    rules.answer clock n = n.name.map fun name => .expr (.column name) := by
  have hresolve : rules.resolve n.kind = .ok (.tableColumn, columnRule) := by rw [hkind]; rfl
  rw [answer_eq_result h clock hresolve, Node.name_of_given (Or.inr hkind),
    columnRule, giving]
  cases n.stringField "name" <;> rfl

/-- Values that differ only in the tables of columns become the same. -/
theorem answer_unowned (clock : Clock) : ∀ (depth : Nat) (a b : Node), a.depth ≤ depth →
    a.Built → b.Built →
    a.unowned = b.unowned → rules.answer clock a = rules.answer clock b := by
  intro depth
  induction depth with
  | zero =>
      intro a b hdepth
      have := a.depth_pos
      omega
  | succ depth ih =>
      intro a b hdepth ha hb hab
      have hkind := Node.kind_of_unowned hab
      by_cases htable : a.kind.isTable = true
      · rw [← Node.unowned_of_isTable htable, hab, Node.unowned_of_isTable (hkind ▸ htable)]
      by_cases hcolumn : a.kind = .tableColumn
      · rw [answer_column ha hcolumn, answer_column hb (hkind ▸ hcolumn), ← a.name_unowned,
          hab, b.name_unowned]
      · rw [Bool.not_eq_true] at htable
        obtain ⟨k, rule, hresolve⟩ := rules_resolve a.kind
        rw [answer_eq_result ha clock hresolve, answer_eq_result hb clock (hkind ▸ hresolve)]
        refine congrArg (Emission.result clock)
          (rules_ignore htable hcolumn hresolve _ a b ⟨ha, hb, ?_, ?_⟩)
        · rw [← Node.unowned_of_value htable hcolumn, hab,
            Node.unowned_of_value (hkind ▸ htable) (hkind ▸ hcolumn)]
        · intro c d hc hd hcd
          have hanswer :=
            ih c d (by have := hc.depth_lt; omega) (hc.built ha) (hd.built hb) hcd
          rw [lowered, lowered, hanswer]

/-! ## Rules for tables of one table -/

section

variable {emit : Node → Lowering Lowered} {n m : Node}

theorem exprOf_congr {a b : Node} (h : emit a = emit b) : exprOf emit a = exprOf emit b := by
  rw [exprOf, h, exprOf]

theorem named_congr {a b : Node} (h : emit a = emit b) (hab : a.unowned = b.unowned) :
    named emit a = named emit b := by
  have hkind := Node.kind_of_unowned hab
  have hname : a.name = b.name := by rw [← a.name_unowned, hab, b.name_unowned]
  rw [named, exprOf_congr h, hkind, hname, named]

variable {ns ms : List Node} (h : Alike emit n m)
  (hnm : List.Forall₂ (fun a b => a.Under n ∧ b.Under m ∧ a.unowned = b.unowned) ns ms)

include h hnm

theorem namedEach_congr : namedEach emit ns = namedEach emit ms := by
  induction hnm with
  | nil => rfl
  | cons hab _ ih =>
      rw [namedEach, namedEach, named_congr (h.same _ _ hab.1 hab.2.1 hab.2.2) hab.2.2, ih]

theorem selected_congr : selected emit ns = selected emit ms := by
  induction hnm with
  | nil => rfl
  | @cons a b _ _ hab _ ih =>
      obtain ⟨ha, hb, hab⟩ := hab
      have hkind := Node.kind_of_unowned hab
      rw [selected, selected, hkind, Node.outputSchema_of_unowned hab,
        named_congr (h.same a b ha hb hab) hab, ih]

/-- A key to sort by is opened on the spot, and what is in it stands below the same table. -/
theorem sortKeys_congr (hkeys : ∀ key ∈ ns, key.kind = .sortKey) :
    sortKeys emit ns = sortKeys emit ms := by
  induction hnm with
  | nil => rfl
  | @cons a b _ _ hab _ ih =>
      obtain ⟨ha, hb, hab⟩ := hab
      have hkind := Node.kind_of_unowned hab
      have hkey := hkeys a List.mem_cons_self
      have hparts : a.unownedParts = b.unownedParts := by
        rw [← Node.unowned_of_value (by rw [hkey]; rfl) (by rw [hkey]; nofun), hab,
          Node.unowned_of_value (by rw [← hkind, hkey]; rfl) (by rw [← hkind, hkey]; nofun)]
      have halike : Alike emit a b := ⟨ha.built h.built, hb.built h.built', hparts,
        fun c d hc hd hcd => h.same c d (hc.trans ha) (hd.trans hb) hcd⟩
      rw [sortKeys, sortKeys, halike.expr, Node.boolField_of_parts hparts,
        ih fun key hkey => hkeys key (List.mem_cons_of_mem _ hkey)]

omit h in
theorem nodeNames_congr : nodeNames ns = nodeNames ms := by
  induction hnm with
  | nil => rfl
  | @cons a b _ _ hab _ ih =>
      rw [nodeNames, nodeNames, ← a.name_unowned, hab.2.2, b.name_unowned, ih]

end

theorem distinctRule_ignores :
    Ignores fun emit n => return Lowered.plan (.unique (← plan emit n "table")) :=
  fun _ _ _ h => by simp only [h.plan]

theorem limitRule_ignores : Ignores limitRule :=
  fun _ _ _ h => by simp only [limitRule, countField, h.intField, h.countOf, h.plan]

theorem aggregationRule_ignores : Ignores aggregationRule := by
  intro emit n m h
  unfold aggregationRule
  rw [h.plan, h.exprs]
  refine congrArg (plan emit m "table" >>= ·) (funext fun input => ?_)
  refine congrArg (exprs emit m "predicates" >>= ·) (funext fun predicates => ?_)
  refine h.childList_bind "by" fun ns ms _ _ hby => ?_
  rw [namedEach_congr h hby]
  refine congrArg (namedEach emit ms >>= ·) (funext fun keys => ?_)
  refine h.childList_bind "metrics" fun ns ms _ _ hmetrics => ?_
  rw [namedEach_congr h hmetrics]

theorem dropNullsRule_ignores : Ignores dropNullsRule := by
  intro emit n m h
  have hrest : (do
      let input ← plan emit n "table"
      if ((n.get? "subset").getD .none).isNone then
        return Lowered.plan (.dropNulls input none)
      else
        let names ← nodeNames (← n.childList "subset")
        return .plan (if names.isEmpty then input else .dropNulls input (some names)))
    = (do
      let input ← plan emit m "table"
      if ((m.get? "subset").getD .none).isNone then
        return Lowered.plan (.dropNulls input none)
      else
        let names ← nodeNames (← m.childList "subset")
        return .plan (if names.isEmpty then input else .dropNulls input (some names))) := by
    rw [h.plan, Node.isNone_of_parts h.parts]
    refine congrArg (plan emit m "table" >>= ·) (funext fun input => ?_)
    split
    · rfl
    · refine h.childList_bind "subset" fun ns ms _ _ hnm => ?_
      rw [nodeNames_congr hnm]
  unfold dropNullsRule
  rw [h.stringField, h.unsupported]
  simp only [hrest]

theorem replacement_unowned (n : Node) (a : Arg) :
    replacement n a.unowned = replacement n a := by
  cases a with
  | node k => rw [Arg.unowned, replacement, replacement, Node.literal?_unowned]
  | none | value _ | seq _ | map _ | type _ | shape _ | schema _ => rfl

theorem namedFills_unowned (n : Node) (s : Schema) (entries : List (String × Arg)) :
    namedFills n s (Arg.unownedFields entries) = namedFills n s entries := by
  induction entries with
  | nil => rfl
  | cons entry rest ih =>
      obtain ⟨name, a⟩ := entry
      rw [Arg.unownedFields, namedFills, namedFills, replacement_unowned, ih]

theorem fills_unowned (n : Node) (s : Schema) (a : Arg) :
    fills n s a.unowned = fills n s a := by
  cases a with
  | map entries => exact namedFills_unowned n s entries
  | node k =>
      show (replacement n (Arg.node k).unowned >>= fun v => _)
        = (replacement n (.node k) >>= fun v => _)
      rw [replacement_unowned]
  | none | value _ | seq _ | type _ | shape _ | schema _ => rfl

theorem fills_congr {n m : Node} (h : unsupported n = unsupported m) :
    fills n = fills m := by
  have hreplacement : replacement n = replacement m := by
    funext a
    unfold replacement
    rw [h]
  have hnamed : namedFills n = namedFills m := by
    funext s entries
    induction entries with
    | nil => rfl
    | cons entry rest ih => rw [namedFills, namedFills, hreplacement, ih]
  funext s a
  simp only [fills, hreplacement, hnamed]

theorem fillNullsRule_ignores : Ignores fillNullsRule := by
  intro emit n m h
  refine h.child_bind "table" fun a b _ _ hab => ?_
  rw [Node.outputSchema_of_unowned hab]
  refine congrArg (liftM b.outputSchema >>= ·) (funext fun schema => ?_)
  rcases map_eq_map.1 (Node.field_of_parts h.parts "replacements")
    with ⟨e, hn, hm⟩ | ⟨c, d, hn, hm, hcd⟩
  · simp only [hn, hm, liftM_error_bind]
  · rw [hn, hm, h.plan]
    have hfills : fills n schema c = fills m schema d := by
      rw [← fills_unowned n, hcd, fills_unowned, fills_congr (funext h.unsupported)]
    show ((liftM (fills n schema c) : Lowering _) >>= fun found => _)
      = liftM (fills m schema d) >>= fun found => _
    rw [hfills]

theorem selectionRule_congr {emit : Node → Lowering Lowered} {n m : Node}
    (h : Alike emit n m) (hkind : n.kind = .selection) :
    selectionRule emit n = selectionRule emit m := by
  unfold selectionRule
  rw [h.plan, h.exprs]
  refine congrArg (plan emit m "table" >>= ·) (funext fun input => ?_)
  refine congrArg (exprs emit m "predicates" >>= ·) (funext fun predicates => ?_)
  refine h.childList_bind "sort_keys" fun ns ms hns _ hnm => ?_
  have hkeys : ∀ key ∈ ns, key.kind = .sortKey := by
    intro key hkey
    have hvalidator : n.kind.validator? "sort_keys"
      = some (.tupleOf .sortKey) := by rw [hkind]; rfl
    obtain ⟨raw, before, hvalid⟩ := h.built.validate_of_mem_childList hvalidator hns hkey
    exact Validator.kind_of_sortKey hvalid
  rw [sortKeys_congr h hnm hkeys]
  refine congrArg (sortKeys emit ms >>= ·) (funext fun keys => ?_)
  refine h.childList_bind "selections" fun ns ms _ _ hselections => ?_
  have hempty : ns.isEmpty = ms.isEmpty := by
    cases hselections <;> rfl
  rw [selected_congr h hselections, hempty]

end Engine

/-- The kinds of tables that are made of one other table. -/
def NodeKind.oneTable : List NodeKind :=
  [selection, aggregation, limit, distinct, dropNa, fillNa]

theorem NodeKind.mem_oneTable {k : NodeKind} :
    k ∈ oneTable ↔ k = selection ∨ k = aggregation ∨ k = limit ∨ k = distinct ∨ k = dropNa
      ∨ k = fillNa := by
  simp [oneTable]

namespace Engine

variable {n m : Node}

theorem alike_lowered (hn : n.Built) (hm : m.Built) (h : n.unownedParts = m.unownedParts)
    (clock : Clock) :
    Alike (lowered clock) n m := by
  refine ⟨hn, hm, h, fun a b ha hb hab => ?_⟩
  rw [lowered, lowered,
    answer_unowned clock a.depth a b (Nat.le_refl _) (ha.built hn) (hb.built hm) hab]

/-- Tables of one other table that differ only in the tables of columns are
executed to the same batch. -/
theorem execute_unowned (hn : n.Built) (hm : m.Built) (hkind : n.kind ∈ NodeKind.oneTable)
    (h : n.unownedParts = m.unownedParts) (config : Config) (clock : Clock)
    (catalog : Catalog) :
    execute config clock n catalog = execute config clock m catalog := by
  have halike := alike_lowered hn hm h clock
  have hplan : ∀ {k : NodeKind} {rule : EngineRule}, rules.resolve n.kind = .ok (k, rule) →
      rule (lowered clock) n = rule (lowered clock) m → planOf clock n = planOf clock m := by
    intro k rule hresolve hrule
    rw [planOf_eq_result hn clock hresolve,
      planOf_eq_result hm clock (halike.kind ▸ hresolve), hrule]
  have hsame : planOf clock n = planOf clock m := by
    rcases NodeKind.mem_oneTable.1 hkind with hkind | hkind | hkind | hkind | hkind | hkind
    · exact hplan (by rw [hkind]; rfl) (selectionRule_congr halike hkind)
    · exact hplan (by rw [hkind]; rfl) (aggregationRule_ignores _ _ _ halike)
    · exact hplan (by rw [hkind]; rfl) (limitRule_ignores _ _ _ halike)
    · exact hplan (by rw [hkind]; rfl) (distinctRule_ignores _ _ _ halike)
    · exact hplan (by rw [hkind]; rfl) (dropNullsRule_ignores _ _ _ halike)
    · exact hplan (by rw [hkind]; rfl) (fillNullsRule_ignores _ _ _ halike)
  rw [execute_eq hn, execute_eq hm, hsame]

end Engine

end TypedQuery

/-! ## Values that are selected -/

namespace TypedQuery.Engine

variable {clock : Clock} {n m : Node} {name : String} {e : Expr}

theorem answer_alias (h : n.Built) (hkind : n.kind = .renamed) (harg : n.child "arg" = .ok m)
    (hname : n.stringField "name" = .ok name) (he : rules.answer clock m = .ok (.expr e)) :
    rules.answer clock n = .ok (.expr (.named e name)) := by
  have hresolve : rules.resolve n.kind = .ok (.renamed, aliasRule) := by rw [hkind]; rfl
  rw [answer_eq_result h clock hresolve, aliasRule, giving]
  simp only [expr, Emission.field, harg, hname]
  show Emission.result clock
    (((lowered clock m >>= fun output => liftM output.toExpr) >>= fun e => _)
      >>= fun e => _) = _
  rw [lowered, he]
  rfl

/-- Selecting a single value evaluates it over the table, under its new name. -/
theorem execute_selectAs {table value : Node} (h : n.Built)
    (hn : Node.selectAs table value name = .ok n)
    (he : rules.answer clock value = .ok (.expr e)) (config : Config) (catalog : Catalog) :
    execute config clock n catalog
      = execute config clock table catalog >>= fun b => b.select [.named e name] := by
  obtain ⟨item, hitem, hkind, htable, hselections, hpredicates, hkeys⟩ :=
    Node.selectAs_eq_ok hn
  obtain ⟨hrenamed, harg, hname⟩ := Node.rename_eq_ok hitem
  have bitem : item.Built :=
    h.of_mem_children (h.mem_children_of_childList hselections List.mem_cons_self)
  have btable : table.Built := h.of_mem_children (h.mem_children_of_child htable)
  have hanswer := answer_alias bitem hrenamed harg hname he
  have hresolve : rules.resolve n.kind
    = .ok (.selection, selectionRule) := by rw [hkind]; rfl
  have hinput : Emission.result clock (plan (lowered clock) n "table")
      = planOf clock table := by
    rw [result_plan, htable]
    rfl
  have hplan : planOf clock n = planOf clock table >>= fun p =>
      .ok (.select p [.named e name]) := by
    rw [planOf_eq_result h clock hresolve, selectionRule, exprs, Emission.sequence,
      hpredicates, hkeys, hselections,
      Emission.result_bind ((plan_lowers "table").still h clock), hinput]
    cases planOf clock table with
    | error e => rfl
    | ok p =>
        have hexpr : exprOf (lowered clock) item = pure (.named e name) := by
          rw [exprOf, lowered, hanswer]
          rfl
        have hnamed : named (lowered clock) item = pure (.named e name) := by
          rw [named, hexpr, pure_bind, if_pos (Or.inl hrenamed)]
        show Emission.result clock (selected (lowered clock) [item] >>= fun items => _)
          >>= Lowered.toPlan = _
        rw [selected, if_neg (by rw [hrenamed]; decide), hnamed]
        rfl
  rw [execute_eq h, execute_eq btable, hplan]
  cases planOf clock table <;> rfl

end TypedQuery.Engine
