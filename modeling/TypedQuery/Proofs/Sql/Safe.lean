import TypedQuery.Proofs.Node.Held
import TypedQuery.Proofs.Scoping

/-!
# SQL is written or refused

No rule of SQL fails internally for a node that builds. Every rule reads fields that its
kind has, in a way that their validators make possible; and the scope that is closed after
a subquery is the one that was opened for it, whatever became of the subquery.
-/

namespace TypedQuery.Sql

open Emission

abbrev SafeStep {α : Type} (step : Writing α) : Prop := Safe (fun _ => True) step

/-- Asking for the text of any node in the fields is safe. -/
structure SafeBelow (n : Node) (emit : Node → Writing String) : Prop where
  built : n.Built
  text : ∀ m ∈ n.children, SafeStep (emit m)

/-- The rule for a kind is safe if asking for other texts is. -/
def SafeRule (kind : NodeKind) (rule : SqlRule) : Prop :=
  ∀ n emit, n.kind = kind → SafeBelow n emit → SafeStep (rule emit n)

namespace SafeBelow

variable {n : Node} {emit : Node → Writing String} (h : SafeBelow n emit) {name : String}

include h

theorem field (hk : n.kind.hasNode name = true) : SafeStep (Emission.field emit n name) := by
  obtain ⟨m, hm, hmem⟩ := h.built.exists_child _ hk
  exact .ok_bind hm (h.text m hmem)

theorem field? : SafeStep (Emission.field? emit n name) := by
  unfold Emission.field?
  split
  · next m hm =>
      exact .bind (h.text m (h.built.mem_children_of_child? hm)) fun _ _ => .pure trivial
  · exact .pure trivial

theorem each {ms : List Node} (hms : ∀ m ∈ ms, m ∈ n.children) :
    SafeStep (Emission.each emit ms) :=
  (Safe.each fun m hm => h.text m (hms m hm)).mono fun _ _ => trivial

theorem sequence (hk : n.kind.hasNodes name = true) :
    SafeStep (Emission.sequence emit n name) := by
  obtain ⟨ms, hms, hmem⟩ := h.built.exists_childList _ hk
  exact .ok_bind hms (h.each hmem)

theorem fieldTexts {fields : List String} (hk : fields.all n.kind.hasNode = true) :
    SafeStep (fieldTexts emit n fields) := by
  induction fields with
  | nil => exact .pure trivial
  | cons name rest ih =>
      rw [List.all_cons, Bool.and_eq_true] at hk
      obtain ⟨hname, hrest⟩ := hk
      exact .bind (h.field hname) fun _ _ => .bind (ih hrest) fun _ _ => .pure trivial

end SafeBelow

/-! ## The shapes of rules -/

section

variable {kind : NodeKind}

theorem callOf_safe (name : String) {fields : List String}
    (hk : fields.all kind.hasNode = true) :
    SafeRule kind (callOf name fields) := by
  rintro n emit rfl h
  exact .bind (h.fieldTexts hk) fun _ _ => .pure trivial

theorem callOfAll_safe (name : String) {field : String} (hk : kind.hasNodes field = true) :
    SafeRule kind (callOfAll name field) := by
  rintro n emit rfl h
  exact .bind (h.sequence hk) fun _ _ => .pure trivial

theorem operator_safe (symbol : String) (hl : kind.hasNode "left" = true)
    (hr : kind.hasNode "right" = true) :
    SafeRule kind (operator symbol) := by
  rintro n emit rfl h
  exact .bind (h.field hl) fun _ _ => .bind (h.field hr) fun _ _ => .pure trivial

theorem around_safe (before after : String) {field : String}
    (hk : kind.hasNode field = true) :
    SafeRule kind (around before field after) := by
  rintro n emit rfl h
  exact .bind (h.field hk) fun _ _ => .pure trivial

end

/-! ## Constants, columns and conditions -/

/-- Only dates and timestamps outside the calendar are refused. -/
theorem proper_dateText (days : Int32) : Proper (fun _ => True) (dateText days) := by
  unfold dateText
  split
  · trivial
  · rfl

theorem proper_timestampText (ticks : Int64) (unit : TimeUnit) :
    Proper (fun _ => True) (timestampText ticks unit) := by
  unfold timestampText
  simp only []
  split
  · trivial
  · rfl

mutual

theorem proper_literal : ∀ v : Value, Proper (fun _ => True) (literal v)
  | .date days => by
      unfold literal
      exact (proper_dateText days).map fun _ _ => trivial
  | .timestamp ticks unit => by
      unfold literal
      exact (proper_timestampText ticks unit).map fun _ _ => trivial
  | .array items => by
      unfold literal
      exact (proper_literals items).map fun _ _ => trivial
  | .null | .bool _ | .int64 _ | .float64 _ | .string _ | .binary _ | .interval _ _ => by
      unfold literal
      trivial

theorem proper_literals : ∀ items : List Value, Proper (fun _ => True) (literals items)
  | [] => trivial
  | v :: rest => by
      unfold literals
      exact (proper_literal v).bind fun _ _ _ =>
        (proper_literals rest).bind fun _ _ _ => trivial

end

theorem proper_typeName (t : DataType) : Proper (fun _ => True) (typeName t) := by
  induction t with
  | array element ih => exact ih.map fun _ _ => trivial
  | null | interval _ => rfl
  | _ => trivial

theorem Statement.proper_column (s : Statement) (table : Node) (name : String) :
    Proper (fun _ => True) (s.column table name) := by
  rw [column_eq]
  split
  · trivial
  · trivial
  · rfl

theorem literalRule_safe : SafeRule .literal literalRule := by
  intro n emit hkind h
  obtain ⟨v, hv⟩ := h.built.exists_literal hkind
  unfold literalRule
  rw [hv]
  exact .lift (proper_literal v)

theorem columnRule_safe : SafeRule .tableColumn columnRule := by
  intro n emit hkind h
  obtain ⟨table, htable, -⟩ := h.built.exists_child "table" (by rw [hkind]; rfl)
  obtain ⟨name, hname⟩ := h.built.exists_text "name" (by rw [hkind]; rfl)
  exact .target_bind fun s =>
    .ok_bind htable (.ok_bind hname (.lift (s.proper_column table name)))

theorem castRule_safe : SafeRule .cast castRule := by
  intro n emit hkind h
  obtain ⟨a, t, ha, ht⟩ := h.built.exists_typeHeld "to" (by rw [hkind]; rfl)
  refine .ok_bind ha ?_
  rw [ht]
  refine .bind (h.field (by rw [hkind]; rfl)) fun _ _ => ?_
  exact .lift_bind (proper_typeName t) fun _ _ _ => .pure trivial

theorem caseText_safe {n : Node} {emit : Node → Writing String} (h : SafeBelow n emit)
    (subject : String) (hcases : n.kind.hasNodes "cases" = true)
    (hresults : n.kind.hasNodes "results" = true)
    (hdefault : n.kind.hasNode "default" = true) : SafeStep (caseText emit n subject) :=
  .bind (h.sequence hcases) fun _ _ => .bind (h.sequence hresults) fun _ _ =>
    .bind (h.field hdefault) fun _ _ =>
    .pure trivial

theorem simpleCaseRule_safe : SafeRule .simpleCase simpleCaseRule := by
  intro n emit hkind h
  refine .bind (h.field (by rw [hkind]; rfl)) fun base _ => ?_
  exact caseText_safe h _ (by rw [hkind]; rfl) (by rw [hkind]; rfl) (by rw [hkind]; rfl)

theorem searchedCaseRule_safe : SafeRule .searchedCase fun emit n => caseText emit n "" := by
  intro n emit hkind h
  exact caseText_safe h _ (by rw [hkind]; rfl) (by rw [hkind]; rfl) (by rw [hkind]; rfl)

theorem betweenRule_safe : SafeRule .between betweenRule := by
  intro n emit hkind h
  refine .bind (h.field (by rw [hkind]; rfl)) fun _ _ => ?_
  refine .bind (h.field (by rw [hkind]; rfl)) fun _ _ => ?_
  exact .bind (h.field (by rw [hkind]; rfl)) fun _ _ => .pure trivial

theorem membershipRule_safe {kind : NodeKind} (keyword : String)
    (hvalue : kind.hasNode "value" = true) (hoptions : kind.hasNodes "options" = true) :
    SafeRule kind (membershipRule keyword) := by
  rintro n emit rfl h
  exact .bind (h.field hvalue) fun _ _ =>
    .bind (h.sequence hoptions) fun _ _ => .pure trivial

theorem genericRules_safe : ∀ x ∈ genericRules, SafeRule x.1 x.2 := by
  simp only [genericRules, List.forall_mem_cons]
  refine ⟨literalRule_safe, columnRule_safe, ?_, castRule_safe, callOf_safe _ rfl,
    callOf_safe _ rfl, callOf_safe _ rfl, simpleCaseRule_safe, searchedCaseRule_safe,
    betweenRule_safe, membershipRule_safe _ rfl rfl,
    membershipRule_safe _ rfl rfl, fun _ hx => absurd hx List.not_mem_nil⟩
  intro n emit hkind h
  exact h.field (by rw [hkind]; rfl)

/-! ## Operators and reductions -/

/-- A rule that reads two fields. -/
theorem ofTwo_safe {kind : NodeKind} {first second : String}
    (make : String → String → String) (hfirst : kind.hasNode first = true)
    (hsecond : kind.hasNode second = true) :
    SafeRule kind fun emit n => do
      let a ← field emit n first
      let b ← field emit n second
      return make a b := by
  rintro n emit rfl h
  exact .bind (h.field hfirst) fun _ _ => .bind (h.field hsecond) fun _ _ => .pure trivial

theorem roundRule_safe : SafeRule .round roundRule := by
  intro n emit hkind h
  exact .bind (h.field (by rw [hkind]; rfl)) fun _ _ =>
    .bind h.field? fun _ _ => .pure trivial

theorem clipRule_safe : SafeRule .clip clipRule := by
  intro n emit hkind h
  refine .bind (h.field (by rw [hkind]; rfl)) fun _ _ => .bind h.field? fun _ _ =>
    .bind h.field? fun _ _ => ?_
  exact .ite (fun _ => .throw rfl) fun _ => .pure trivial

theorem logRule_safe : SafeRule .log logRule := by
  intro n emit hkind h
  refine .bind (h.field (by rw [hkind]; rfl)) fun _ _ => .bind h.field? fun base _ => ?_
  cases base <;> exact .pure trivial

theorem operatorRules_safe : ∀ x ∈ operatorRules, SafeRule x.1 x.2 := by
  have hbinary : ∀ y ∈ binaryOperators ++ binaryFunctions, y.1.hasNode "left" = true
      ∧ y.1.hasNode "right" = true := by
    set_option maxRecDepth 2000 in decide
  have hunary : ∀ y ∈ unaryFunctions, y.1.hasNode "arg" = true := by
    set_option maxRecDepth 2000 in decide
  have hvariadic : ∀ y ∈ variadicFunctions, y.1.hasNodes "arg" = true := by
    set_option maxRecDepth 2000 in decide
  intro x hx
  simp only [operatorRules, List.mem_append, List.mem_map, List.mem_cons,
    List.not_mem_nil, or_false] at hx
  rcases hx with (((⟨y, hy, rfl⟩ | ⟨y, hy, rfl⟩) | ⟨y, hy, rfl⟩) | ⟨y, hy, rfl⟩) | hx
  · obtain ⟨hl, hr⟩ := hbinary y (List.mem_append_left _ hy)
    exact operator_safe _ hl hr
  · obtain ⟨hl, hr⟩ := hbinary y (List.mem_append_right _ hy)
    exact callOf_safe _ (by simp [hl, hr])
  · exact callOf_safe _ (by simp [hunary y hy])
  · exact callOfAll_safe _ (hvariadic y hy)
  · rcases hx with rfl | rfl | rfl | rfl | rfl | rfl | rfl | rfl | rfl | rfl | rfl | rfl
    · exact ofTwo_safe _ rfl rfl
    · exact ofTwo_safe _ rfl rfl
    · exact around_safe _ _ rfl
    · exact around_safe _ _ rfl
    · exact around_safe _ _ rfl
    · exact around_safe _ _ rfl
    · exact around_safe _ _ rfl
    · exact around_safe _ _ rfl
    · exact callOfAll_safe _ rfl
    · exact roundRule_safe
    · exact clipRule_safe
    · exact logRule_safe

theorem filteredArg_safe {n : Node} {emit : Node → Writing String} (h : SafeBelow n emit)
    (hk : n.kind.hasNode "arg" = true) : SafeStep (filteredArg emit n) := by
  refine .bind (h.field hk) fun _ _ => .bind h.field? fun condition _ => ?_
  cases condition <;> exact .pure trivial

theorem reductionRule_safe {kind : NodeKind} (name : String)
    (hk : kind.hasNode "arg" = true) :
    SafeRule kind (reductionRule name) := by
  rintro n emit rfl h
  exact .bind (filteredArg_safe h hk) fun _ _ => .pure trivial

theorem countDistinctRule_safe : SafeRule .countDistinct countDistinctRule := by
  intro n emit hkind h
  exact .bind (filteredArg_safe h (by rw [hkind]; rfl)) fun _ _ => .pure trivial

theorem countRowsRule_safe : SafeRule .countStar countRowsRule := by
  intro n emit _ h
  refine .bind h.field? fun condition _ => ?_
  cases condition <;> exact .pure trivial

theorem deviationRule_safe {kind : NodeKind} (name : String)
    (hhow : kind.hasText "how" = true) (hk : kind.hasNode "arg" = true) :
    SafeRule kind (deviationRule name) := by
  rintro n emit rfl h
  obtain ⟨how, hhow⟩ := h.built.exists_text _ hhow
  exact .ok_bind hhow (.bind (filteredArg_safe h hk) fun _ _ => .pure trivial)

theorem reductionRules_safe : ∀ x ∈ reductionRules, SafeRule x.1 x.2 := by
  simp only [reductionRules, List.forall_mem_cons]
  exact ⟨reductionRule_safe _ rfl, reductionRule_safe _ rfl,
    reductionRule_safe _ rfl, reductionRule_safe _ rfl,
    reductionRule_safe _ rfl, reductionRule_safe _ rfl,
    reductionRule_safe _ rfl, countDistinctRule_safe, countRowsRule_safe,
    deviationRule_safe _ rfl rfl,
    deviationRule_safe _ rfl rfl, fun _ hx => absurd hx List.not_mem_nil⟩

/-! ## Text -/

theorem substringRule_safe : SafeRule .substring substringRule := by
  intro n emit hkind h
  refine .target_bind fun s => .bind (h.field (by rw [hkind]; rfl)) fun _ _ => ?_
  exact .bind (h.field (by rw [hkind]; rfl)) fun _ _ =>
    .bind h.field? fun _ _ => .pure trivial

/-- The field is asked for only if it holds an expression that is no constant. -/
theorem searchStart_safe {n : Node} {emit : Node → Writing String}
    (hkind : n.kind = .stringFind) (h : SafeBelow n emit) (offset : Int) :
    SafeStep (searchStart emit n offset) := by
  unfold searchStart
  split
  · exact .pure trivial
  · exact .pure trivial
  · next hnone _ =>
      have hv : n.kind.validator? "start" = some (.optional Catalogue.integral) := by
        rw [hkind]; rfl
      obtain ⟨raw, before, a, -, hvalid, -, hget⟩ := h.built.get?_eq hv
      rcases Validator.optional_eq_ok hvalid with ⟨-, rfl⟩ | ⟨-, hvalid⟩
      · exact absurd (by rw [Node.optionalLiteral, hget]) hnone
      · obtain ⟨m, rfl⟩ := Validator.node_of_givesNode rfl hvalid
        have hchild : n.child "start" = .ok m := Node.fieldAs_of_get? hget rfl
        refine .bind (.ok_bind hchild (h.text m (h.built.mem_children_of_child hchild)))
          fun _ _ => .pure trivial

theorem findRule_safe : SafeRule .stringFind findRule := by
  intro n emit hkind h
  refine .ite (fun _ => .throw rfl) fun _ => .target_bind fun s => ?_
  refine .bind (h.field (by rw [hkind]; rfl)) fun _ _ => ?_
  refine .bind (h.field (by rw [hkind]; rfl)) fun _ _ => ?_
  exact .bind (searchStart_safe hkind h _) fun _ _ => .pure trivial

theorem proper_constantTexts (nodes : List Node) :
    Proper (fun _ => True) (constantTexts nodes) := by
  refine (Proper.mapM (Q := fun _ => True) fun m _ => ?_).mono fun _ _ _ => trivial
  unfold constantText
  split
  · trivial
  · rfl

theorem findInSetRule_safe : SafeRule .findInSet findInSetRule := by
  intro n emit hkind h
  obtain ⟨ms, hms, -⟩ := h.built.exists_childList "values" (by rw [hkind]; rfl)
  refine .bind (h.field (by rw [hkind]; rfl)) fun _ _ => .ok_bind hms ?_
  exact .lift_bind (proper_constantTexts ms) fun _ _ _ => .target_bind fun _ => .pure trivial

theorem joinTextsRule_safe : SafeRule .stringJoin joinTextsRule := by
  intro n emit hkind h
  refine .bind (h.field (by rw [hkind]; rfl)) fun _ _ => ?_
  exact .bind (h.sequence (by rw [hkind]; rfl)) fun _ _ => .pure trivial

theorem parseUrlRule_safe : SafeRule .parseUrl parseUrlRule := by
  intro n emit hkind h
  obtain ⟨part, hpart⟩ := h.built.exists_text "extract" (by rw [hkind]; rfl)
  refine .bind (h.field (by rw [hkind]; rfl)) fun _ _ => .ok_bind hpart ?_
  exact .bind h.field? fun _ _ => .pure trivial

theorem textRules_safe : ∀ x ∈ textRules, SafeRule x.1 x.2 := by
  simp only [textRules, List.forall_mem_cons]
  refine ⟨?_, ?_, ?_, ?_, ?_, ?_, ?_, ?_, ?_, ?_, ?_, ?_, ?_, ?_, ?_, ?_, ?_,
    substringRule_safe, findRule_safe, findInSetRule_safe, joinTextsRule_safe, ?_, ?_, ?_,
    ?_, parseUrlRule_safe, fun _ hx => absurd hx List.not_mem_nil⟩
  iterate 17 exact callOf_safe _ rfl
  iterate 4 exact ofTwo_safe _ rfl rfl

/-! ## Time -/

theorem proper_truncationUnit (code : String) :
    Proper (fun _ => True) (truncationUnit code) := by
  unfold truncationUnit
  split <;> trivial

theorem truncateRule_safe {kind : NodeKind} (hunit : kind.hasText "unit" = true)
    (hk : kind.hasNode "arg" = true) :
    SafeRule kind truncateRule := by
  rintro n emit rfl h
  obtain ⟨code, hcode⟩ := h.built.exists_text _ hunit
  refine .ok_bind hcode (.lift_bind (proper_truncationUnit code) fun _ _ _ => ?_)
  exact .bind (h.field hk) fun _ _ => .pure trivial

theorem fromUnixRule_safe : SafeRule .timestampFromUnix fromUnixRule := by
  intro n emit hkind h
  obtain ⟨unit, hunit⟩ := h.built.exists_text "unit" (by rw [hkind]; rfl)
  exact .bind (h.field (by rw [hkind]; rfl)) fun _ _ => .ok_bind hunit (.pure trivial)

theorem intervalRule_safe : SafeRule .intervalFromInteger intervalRule := by
  intro n emit hkind h
  obtain ⟨code, hcode⟩ := h.built.exists_text "unit" (by rw [hkind]; rfl)
  refine .ok_bind hcode ?_
  cases IntervalUnit.ofCode? code with
  | none => exact .throw rfl
  | some unit => exact .bind (h.field (by rw [hkind]; rfl)) fun _ _ => .pure trivial

theorem timeRules_safe : ∀ x ∈ timeRules, SafeRule x.1 x.2 := by
  have hnow : SafeRule .timestampNow fun _ _ => return "now()" :=
    fun _ _ _ _ => .pure trivial
  simp only [timeRules, sharing, extraction, List.map_cons, List.map_nil,
    List.forall_mem_append, List.forall_mem_cons, List.not_mem_nil, false_imp_iff,
    implies_true, and_true]
  refine ⟨⟨⟨⟨⟨⟨?_, ?_, ?_, ?_, ?_, ?_, ?_, ?_, ?_, ?_, ?_, ?_, ?_, ?_⟩, ?_, ?_⟩, ?_, ?_, ?_⟩,
    ?_, ?_, ?_, ?_⟩, ?_, ?_⟩, ?_, ?_, fromUnixRule_safe, hnow, intervalRule_safe⟩
  iterate 7 exact around_safe _ _ rfl
  iterate 5 exact callOf_safe _ rfl
  iterate 2 exact around_safe _ _ rfl
  iterate 5 exact operator_safe _ rfl rfl
  · exact ofTwo_safe _ rfl rfl
  iterate 3 exact callOf_safe _ rfl
  iterate 2 exact truncateRule_safe rfl rfl
  iterate 2 exact callOf_safe _ rfl

theorem sortKeyRule_safe : SafeRule .sortKey sortKeyRule := by
  intro n emit hkind h
  obtain ⟨ascending, hascending⟩ := h.built.exists_bool "ascending" (by rw [hkind]; rfl)
  exact .bind (h.field (by rw [hkind]; rfl)) fun _ _ => .ok_bind hascending (.pure trivial)

theorem plainRules_safe : ∀ x ∈ plainRules, SafeRule x.1 x.2 := by
  intro x hx
  simp only [plainRules, List.mem_append, List.mem_singleton] at hx
  rcases hx with ((((hx | hx) | hx) | hx) | hx) | rfl
  · exact genericRules_safe x hx
  · exact operatorRules_safe x hx
  · exact reductionRules_safe x hx
  · exact textRules_safe x hx
  · exact timeRules_safe x hx
  · exact sortKeyRule_safe

/-! ## Items of tables -/

theorem update_safe (f : Statement → Statement) : SafeStep (update f) := fun _ => trivial

theorem bind_safe (table : Node) : SafeStep (change fun s => s.bind table) := by
  refine .change fun s => ?_
  unfold Statement.bind
  split
  · rfl
  · trivial

/-- The scope that is closed after a subquery is there, since a subquery keeps
the scopes around it. -/
theorem fromItem_safe {emit : Node → Writing String} {table : Node} (htable : table.Built)
    (hsafe : SafeStep (emit table)) (hkeeps : KeepsOuter (emit table)) :
    SafeStep (fromItem emit table) := by
  unfold fromItem
  split
  · next hstored =>
      obtain ⟨name, hname⟩ := htable.exists_text "name" (by rw [hstored]; rfl)
      exact .ok_bind hname
        (.target_bind fun s => .bind (bind_safe table) fun _ _ => .pure trivial)
  · intro s
    have hopen : (update Statement.openScope).run s
      = (.ok (), { s with target := s.target.openScope }) := rfl
    rw [run_bind, hopen]
    simp only []
    rw [run_bind, run_attempt_isolated]
    have houter := hkeeps ⟨s.target.openScope, s.memo.map fun _ => []⟩
    have htext := hsafe ⟨s.target.openScope, s.memo.map fun _ => []⟩
    generalize (emit table).run ⟨s.target.openScope, s.memo.map fun _ => []⟩
      = run at houter htext
    obtain ⟨result, inner⟩ := run
    simp only []
    rw [run_bind, change, run_target_bind, Statement.closeScope_eq houter]
    refine Safe.lift_bind htext (fun text _ _ => .bind (bind_safe table) fun label _ => ?_) _
    exact .ite (fun _ => .bind (update_safe _) fun _ _ => .pure trivial)
      fun _ => .pure trivial

theorem selectItem_safe {emit : Node → Writing String} {n : Node} (h : n.Built)
    (hemit : SafeStep (emit n)) :
    SafeStep (selectItem emit n) := by
  refine .bind hemit fun text _ => .lift_bind (Node.proper_name h) fun name _ _ =>
    .target_bind fun s => ?_
  refine .ite (fun hcolumn => ?_) fun _ =>
    .bind (.pure (P := fun _ => True) trivial) fun _ _ => .pure trivial
  obtain ⟨table, htable, -⟩ := h.exists_child "table" (by rw [hcolumn]; rfl)
  obtain ⟨name, hname⟩ := h.exists_text "name" (by rw [hcolumn]; rfl)
  exact .ok_bind htable
    (.ok_bind hname (.bind (.pure (P := fun _ => True) trivial) fun _ _ => .pure trivial))

theorem proper_expandColumns (s : Statement) (table : Node) :
    Proper (fun _ => True) (expandColumns s table) := by
  refine table.proper_outputSchema.bind fun schema _ _ => ?_
  refine (Proper.mapM (Q := fun _ => True) fun column _ => ?_).mono fun _ _ _ => trivial
  exact (s.proper_column table column.name).bind fun _ _ _ => trivial

theorem expand_safe (table : Node) : SafeStep (expand table) := by
  refine .target_bind fun s => ?_
  split
  · exact .pure trivial
  · exact .lift (proper_expandColumns s table)
  · exact .throw rfl

theorem selectionItems_safe {emit : Node → Writing String} {ms : List Node}
    (hms : ∀ m ∈ ms, m.Built ∧ SafeStep (emit m)) : SafeStep (selectionItems emit ms) := by
  induction ms with
  | nil => exact .pure trivial
  | cons m rest ih =>
      obtain ⟨⟨hm, hemit⟩, hrest⟩ := List.forall_mem_cons.1 hms
      refine .ite (fun _ => .bind (expand_safe m) fun _ _ => ?_) fun _ =>
        .bind (selectItem_safe hm hemit) fun _ _ => ?_
      · exact .bind (ih hrest) fun _ _ => .pure trivial
      · exact .bind (.pure (P := fun _ => True) trivial) fun _ _ =>
          .bind (ih hrest) fun _ _ => .pure trivial

theorem valueItems_safe {emit : Node → Writing String} {ms : List Node}
    (hms : ∀ m ∈ ms, m.Built ∧ SafeStep (emit m)) : SafeStep (valueItems emit ms) := by
  induction ms with
  | nil => exact .pure trivial
  | cons m rest ih =>
      obtain ⟨⟨hm, hemit⟩, hrest⟩ := List.forall_mem_cons.1 hms
      exact .bind (selectItem_safe hm hemit) fun _ _ =>
        .bind (ih hrest) fun _ _ => .pure trivial

theorem filledItems_safe {emit : Node → Writing String} {replacements : Arg} (label : String)
    (hvalues : replacements.AllNodes fun m => SafeStep (emit m))
    (columns : List ColumnInfo) :
    SafeStep (filledItems emit label replacements columns) := by
  induction columns with
  | nil => exact .pure trivial
  | cons column rest ih =>
      refine .target_bind fun s => ?_
      split
      · next value hvalue =>
          refine .bind (hvalues value (mem_nodes_of_replacementFor hvalue)) fun _ _ => ?_
          exact .bind (.pure (P := fun _ => True) trivial) fun _ _ =>
            .bind ih fun _ _ => .pure trivial
      · exact .bind (.pure (P := fun _ => True) trivial) fun _ _ =>
          .bind ih fun _ _ => .pure trivial

/-! ## Stored rows -/

theorem proper_cell (s : Statement) (column : ColumnInfo) (value : Option Value) :
    Proper (fun _ => True) (cell s column value) := by
  have htype := proper_typeName column.dataType
  cases value with
  | some v => exact (proper_literal v).bind fun _ _ _ => htype.bind fun _ _ _ => trivial
  | none =>
      exact Proper.bind (P := fun _ => True) trivial fun _ _ _ =>
        htype.bind fun _ _ _ => trivial

theorem proper_cells (s : Statement) (columns : List ColumnInfo)
    (values : List (Option Value)) :
    Proper (fun _ => True) (cells s columns values) := by
  induction columns generalizing values with
  | nil => trivial
  | cons column rest ih =>
      cases values with
      | nil => trivial
      | cons value values =>
          exact (proper_cell s column value).bind fun _ _ _ =>
            (ih values).bind fun _ _ _ => trivial

theorem proper_rowText (s : Statement) (columns : List ColumnInfo)
    (values : List (Option Value)) :
    Proper (fun _ => True) (rowText s columns values) :=
  (proper_cells s columns values).bind fun _ _ _ => trivial

theorem storedRows_proper {n : Node} (h : n.Built) (hkind : n.kind = .inMemoryTable)
    (s : Statement) :
    Proper (fun _ => True) (storedRows s n) := by
  refine n.proper_outputSchema.bind fun schema _ _ => ?_
  obtain ⟨raw, before, a, -, hvalid, -, hget⟩ :=
    h.get?_eq (show n.kind.validator? "data" = some (.rowsOf "schema") by rw [hkind]; rfl)
  obtain ⟨rfl, -, rows, -, hrows, -⟩ := Validator.rows_eq_ok hvalid
  rw [Node.field_of_get? hget]
  refine Proper.bind (P := (· = a)) rfl fun data _ hdata => ?_
  rw [hdata, hrows]
  cases rows with
  | nil => exact (proper_rowText _ _ _).bind fun _ _ _ => trivial
  | cons row rest =>
      refine Proper.bind (P := fun _ => True) ?_ fun _ _ _ => trivial
      exact (Proper.mapM (Q := fun _ => True) fun row _ => proper_rowText _ _ _).mono
        fun _ _ _ => trivial

/-! ## Tables -/

section

variable {n : Node} {emit : Node → Writing String} (h : SafeBelow n emit)
  (hkeeps : ∀ m ∈ n.children, KeepsOuter (emit m))

include h

theorem SafeBelow.values {ms : List Node} (hms : ∀ m ∈ ms, m ∈ n.children) :
    ∀ m ∈ ms, m.Built ∧ SafeStep (emit m) :=
  fun m hm => ⟨h.built.of_mem_children (hms m hm), h.text m (hms m hm)⟩

include hkeeps

/-- The table in a field can be put into the FROM clause. -/
theorem SafeBelow.item (name : String) (hv : n.kind.validator? name = some .table) :
    ∃ table, n.child name = .ok table ∧ SafeStep (fromItem emit table) := by
  obtain ⟨table, htable, -, hmem⟩ := h.built.child_eq hv
  exact ⟨table, htable,
    fromItem_safe (h.built.of_mem_children hmem) (h.text table hmem) (hkeeps table hmem)⟩

theorem selectionRule_safe (hk : n.kind = .selection) : SafeStep (selectionRule emit n) := by
  obtain ⟨table, htable, hitem⟩ := h.item hkeeps "table" (by rw [hk]; rfl)
  obtain ⟨ms, hms, hmem⟩ := h.built.exists_childList "selections" (by rw [hk]; rfl)
  refine .ok_bind htable (.bind hitem fun _ _ =>
    .ok_bind hms (.bind (selectionItems_safe (h.values hmem)) fun items _ => ?_))
  refine .bind (h.sequence (by rw [hk]; rfl)) fun _ _ => ?_
  refine .bind (h.sequence (by rw [hk]; rfl)) fun _ _ => ?_
  exact .ite (fun _ => .pure trivial) fun _ => .bind (update_safe _) fun _ _ => .pure trivial

theorem aggregationRule_safe (hk : n.kind = .aggregation) :
    SafeStep (aggregationRule emit n) := by
  obtain ⟨table, htable, hitem⟩ := h.item hkeeps "table" (by rw [hk]; rfl)
  obtain ⟨keys, hkeys, hkeysMem⟩ := h.built.exists_childList "by" (by rw [hk]; rfl)
  obtain ⟨metrics, hmetrics, hmetricsMem⟩ :=
    h.built.exists_childList "metrics" (by rw [hk]; rfl)
  refine .ok_bind htable (.bind hitem fun _ _ =>
    .ok_bind hkeys (.bind (valueItems_safe (h.values hkeysMem)) fun _ _ => ?_))
  refine .ok_bind hmetrics (.bind (valueItems_safe (h.values hmetricsMem)) fun _ _ => ?_)
  exact .bind (h.sequence (by rw [hk]; rfl)) fun _ _ => .pure trivial

theorem limitRule_safe (hk : n.kind = .limit) : SafeStep (limitRule emit n) := by
  obtain ⟨table, htable, hitem⟩ := h.item hkeeps "table" (by rw [hk]; rfl)
  obtain ⟨count, hcount⟩ := h.built.exists_int "n" (by rw [hk]; rfl)
  obtain ⟨offset, hoffset⟩ := h.built.exists_int "offset" (by rw [hk]; rfl)
  exact .ok_bind htable
    (.bind hitem fun _ _ => .ok_bind hcount (.ok_bind hoffset (.pure trivial)))

theorem distinctRule_safe (hk : n.kind = .distinct) : SafeStep (distinctRule emit n) := by
  obtain ⟨table, htable, hitem⟩ := h.item hkeeps "table" (by rw [hk]; rfl)
  exact .ok_bind htable (.bind hitem fun _ _ => .pure trivial)

theorem dropNullsRule_safe (hk : n.kind = .dropNa) : SafeStep (dropNullsRule emit n) := by
  obtain ⟨table, htable, hitem⟩ := h.item hkeeps "table" (by rw [hk]; rfl)
  obtain ⟨how, hhow⟩ := h.built.exists_text "how" (by rw [hk]; rfl)
  have hrest : ∀ (label source : String) (subset : List String), SafeStep (do
      let items := [label ++ ".*"]
      if subset.isEmpty then
        return Select.render { source, items }
      else
        let how ← n.stringField "how"
        let checks := subset.map (· ++ " IS NOT NULL")
        let filter :=
          if how = "all" then "(" ++ " OR ".intercalate checks ++ ")"
            else " AND ".intercalate checks
        return Select.render { source, items, filters := [filter] } : Writing String) :=
        fun label source subset =>
    .ite (fun _ => .pure trivial) fun _ => .ok_bind hhow (.pure trivial)
  refine .ok_bind htable (.bind hitem fun item _ => .target_bind fun s => ?_)
  simp only []
  split
  · exact .bind (h.sequence (by rw [hk]; rfl)) fun subset _ => hrest _ _ subset
  · refine .lift_bind table.proper_outputSchema fun schema _ _ => ?_
    exact .bind (.pure (P := fun _ => True) trivial) fun subset _ => hrest _ _ subset

theorem fillNullsRule_safe (hk : n.kind = .fillNa) : SafeStep (fillNullsRule emit n) := by
  obtain ⟨table, htable, hitem⟩ := h.item hkeeps "table" (by rw [hk]; rfl)
  obtain ⟨raw, before, replacements, -, -, -, hget⟩ := h.built.get?_eq
    (show n.kind.validator? "replacements" = some (.either
      (.mapOf .scalarValue) .scalarValue) by rw [hk]; rfl)
  refine .ok_bind htable (.lift_bind table.proper_outputSchema fun schema _ _ =>
    .ok_bind (Node.field_of_get? hget) ?_)
  simp only []
  split
  · exact .throw rfl
  · refine .bind hitem fun item _ =>
      .bind (filledItems_safe _ (fun m hm => ?_) _) fun _ _ => .pure trivial
    exact h.text m (h.built.mem_children_of_get? hget hm)

theorem joinRule_safe (kind : NodeKind) (keyword : String)
    (hleft : n.kind.validator? "left" = some .table)
    (hright : n.kind.validator? "right" = some .table)
    (hpredicates : n.kind.hasNodes "predicates" = true) :
    SafeStep (joinRule kind keyword emit n) := by
  obtain ⟨left, hl, hleftItem⟩ := h.item hkeeps _ hleft
  obtain ⟨right, hr, hrightItem⟩ := h.item hkeeps _ hright
  refine .ok_bind hl
    (.ok_bind hr (.bind hleftItem fun _ _ => .bind hrightItem fun _ _ => ?_))
  refine .bind (h.sequence hpredicates) fun _ _ => .ite (fun _ => .pure trivial) fun _ => ?_
  refine .lift_bind left.proper_outputSchema fun _ _ _ =>
    .lift_bind right.proper_outputSchema fun _ _ _ => ?_
  exact .target_bind fun _ => .bind (update_safe _) fun _ _ => .pure trivial

theorem tableRules_safe {rule : SqlRule} (hrule : (n.kind, rule) ∈ tableRules)
    (hk : n.kind ≠ .sortKey) :
    SafeStep (rule emit n) := by
  simp only [tableRules, List.mem_cons, Prod.mk.injEq, List.not_mem_nil, or_false] at hrule
  rcases hrule with ⟨hk, rfl⟩ | ⟨hk, rfl⟩ | ⟨hk', -⟩ | ⟨hk, rfl⟩ | ⟨hk, rfl⟩ | ⟨hk, rfl⟩
    | ⟨hk, rfl⟩ | ⟨hk, rfl⟩ | ⟨hk, rfl⟩ | ⟨hk, rfl⟩ | ⟨hk, rfl⟩ | ⟨hk, rfl⟩ | ⟨hk, rfl⟩
    | ⟨hk, rfl⟩ | ⟨hk, rfl⟩
  · obtain ⟨name, hname⟩ := h.built.exists_text "name" (by rw [hk]; rfl)
    exact .target_bind fun _ => .ok_bind hname (.pure trivial)
  · exact .target_bind fun s => .lift (storedRows_proper h.built hk s)
  · exact absurd hk' hk
  · exact selectionRule_safe h hkeeps hk
  · exact aggregationRule_safe h hkeeps hk
  · exact limitRule_safe h hkeeps hk
  · exact distinctRule_safe h hkeeps hk
  · exact dropNullsRule_safe h hkeeps hk
  · exact fillNullsRule_safe h hkeeps hk
  all_goals exact joinRule_safe h hkeeps _ _ (by rw [hk]; rfl) (by
    rw [hk]; rfl) (by rw [hk]; rfl)

end

/-! ## All nodes -/

/-- Writing a node that builds never fails internally, if the walk may go as deep as the
node. -/
theorem emitWithin_safe {n : Node} (hn : n.Built) {depth : Nat} (hdepth : n.depth ≤ depth) :
    SafeStep (rules.emitWithin depth n) := by
  induction depth generalizing n with
  | zero => exact absurd n.depth_pos (Nat.not_lt.2 hdepth)
  | succ depth ih =>
      have hbelow : SafeBelow n (rules.emitWithin depth) :=
        ⟨hn, fun m hm => ih (hn.of_mem_children hm)
          (Nat.lt_succ_iff.1 (Nat.lt_of_lt_of_le (Node.depth_of_mem_children hm) hdepth))⟩
      obtain ⟨⟨k, rule⟩, hresolve⟩ :=
        RuleTable.exists_resolve (show rules.rule? .node = some _ from rfl) n.kind
      have hrule : SafeStep (rule (rules.emitWithin depth) n) := by
        obtain ⟨hlineage, hmem | ⟨hmem, hne⟩ | heq⟩ := mem_of_resolve hresolve
        · have hleaf : ∀ kind ∈ NodeKind.all, ∀ k ∈ kind.lineage, k ∈ plainRules.map (·.1) →
            kind = k := by set_option maxRecDepth 2000 in decide
          have hkind :=
            hleaf n.kind n.kind.mem_all k hlineage (List.mem_map_of_mem (f := (·.1)) hmem)
          exact plainRules_safe _ hmem n _ hkind hbelow
        · obtain rfl := eq_of_mem_tableRules hlineage hmem
          exact tableRules_safe hbelow
            (fun m hm => emitWithin_keepsOuter (hn.of_mem_children hm) depth) hmem hne
        · cases heq
          exact .throw rfl
      have hknown : SafeStep (known? n : Writing (Option String)) := fun _ => trivial
      refine .bind hknown fun found _ => ?_
      cases found with
      | some text => exact .pure trivial
      | none =>
          refine .ok_bind hresolve (.bind hrule fun text _ => ?_)
          exact .bind (P := fun _ => True) (fun _ => trivial) fun _ _ => .pure trivial

theorem compile_proper {n : Node} (hn : n.Built) (config : Config) :
    Proper (fun _ => True) (compile config n) :=
  emitWithin_safe hn (Nat.le_refl _) _

end TypedQuery.Sql
