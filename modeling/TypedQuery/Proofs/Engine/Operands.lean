import TypedQuery.Proofs.Engine.Names

/-!
# Operands of compiled values

What a value is compiled to is put together from what the values in its fields are
compiled to. One lemma for each shape of rule tells which fields these are. The other way
round, where the operands are known to compile, a rule is run on them and its result is
what the value is compiled to.
-/

namespace TypedQuery.Engine

variable {clock : Clock} {n : Node} {field : String} {e : Expr}
    {s after : Session Clock Lowered}

/-- The expression that a value is compiled to. -/
def Compiled (clock : Clock) (m : Node) (e : Expr) : Prop :=
  rules.answer clock m = .ok (.expr e)

theorem Compiled.unique {m : Node} {e' : Expr} (h : Compiled clock m e)
    (h' : Compiled clock m e') : e = e' :=
  Lowered.expr.inj (Except.ok.inj (h.symm.trans h'))

/-- The expression that the value in a field is compiled to. -/
def Operand (clock : Clock) (n : Node) (field : String) (e : Expr) : Prop :=
  ∃ m, n.child field = .ok m ∧ Compiled clock m e

/-- The expressions that the values of a sequence are compiled to. -/
def Operands (clock : Clock) (n : Node) (field : String) (es : List Expr) : Prop :=
  ∃ ms, n.childList field = .ok ms ∧ List.Forall₂ (Compiled clock) ms es

theorem all_compiled_unique {ms : List Node} {es es' : List Expr}
    (h : List.Forall₂ (Compiled clock) ms es) (h' : List.Forall₂ (Compiled clock) ms es') :
    es = es' := by
  induction h generalizing es' with
  | nil =>
      cases h'
      rfl
  | cons he _ ih =>
      cases h' with
      | cons he' hrest => rw [he.unique he', ih hrest]

theorem Operand.unique {m : Node} {e' : Expr} (h : Operand clock n field e)
    (hm : n.child field = .ok m) (he' : Compiled clock m e') : e = e' := by
  obtain ⟨m', hm', he⟩ := h
  cases hm.symm.trans hm'
  exact he.unique he'

theorem Operands.unique {ms : List Node} {es es' : List Expr} (h : Operands clock n field es)
    (hms : n.childList field = .ok ms) (hes' : List.Forall₂ (Compiled clock) ms es') :
    es = es' := by
  obtain ⟨ms', hms', hes⟩ := h
  cases hms.symm.trans hms'
  exact all_compiled_unique hes hes'

/-! ## Reading fields -/

theorem compiled_of_toExpr {m : Node} {output : Lowered}
    (houtput : rules.answer clock m = .ok output) (h : output.toExpr = .ok e) :
    Compiled clock m e := by
  cases output with
  | expr e' => cases h; exact houtput
  | plan p => cases h
  | exprs items => cases h

theorem run_expr_eq_ok (h : (expr (lowered clock) n field).run s = (.ok e, after)) :
    Operand clock n field e ∧ after = s := by
  obtain ⟨output, middle, hfield, h⟩ := Emission.run_bind_eq_ok h
  obtain ⟨m, hm, hfield⟩ := Emission.run_lift_bind_eq_ok hfield
  rw [lowered, Emission.run_lift] at hfield
  rw [Emission.run_lift] at h
  obtain ⟨hanswer, rfl⟩ := Prod.mk.inj hfield
  obtain ⟨hexpr, rfl⟩ := Prod.mk.inj h
  exact ⟨⟨m, hm, compiled_of_toExpr hanswer hexpr⟩, rfl⟩

theorem run_each_eq_ok {ms : List Node} {outputs : List Lowered} {es : List Expr}
    (h : (Emission.each (lowered clock) ms).run s = (.ok outputs, after))
    (hes : Lowered.toExprEach outputs = .ok es) :
    List.Forall₂ (Compiled clock) ms es ∧ after = s := by
  induction ms generalizing outputs es s after with
  | nil =>
      cases h
      cases hes
      exact ⟨.nil, rfl⟩
  | cons m rest ih =>
      obtain ⟨output, middle, houtput, h⟩ := Emission.run_bind_eq_ok h
      obtain ⟨more, last, hmore, h⟩ := Emission.run_bind_eq_ok h
      cases h
      rw [lowered, Emission.run_lift] at houtput
      obtain ⟨hanswer, rfl⟩ := Prod.mk.inj houtput
      obtain ⟨e, he, hes⟩ := bind_eq_ok.1 hes
      obtain ⟨es, hrest, hes⟩ := bind_eq_ok.1 hes
      cases hes
      obtain ⟨hall, rfl⟩ := ih hmore hrest
      exact ⟨.cons (compiled_of_toExpr hanswer he) hall, rfl⟩

theorem run_exprs_eq_ok {es : List Expr}
    (h : (exprs (lowered clock) n field).run s = (.ok es, after)) :
    Operands clock n field es ∧ after = s := by
  obtain ⟨outputs, middle, hsequence, h⟩ := Emission.run_bind_eq_ok h
  obtain ⟨ms, hms, heach⟩ := Emission.run_lift_bind_eq_ok hsequence
  rw [Emission.run_lift] at h
  obtain ⟨hes, rfl⟩ := Prod.mk.inj h
  obtain ⟨hall, rfl⟩ := run_each_eq_ok heach hes
  exact ⟨⟨ms, hms, hall⟩, rfl⟩

theorem run_each {ms : List Node} {es : List Expr} (h : List.Forall₂ (Compiled clock) ms es)
    (s : Session Clock Lowered) :
    (Emission.each (lowered clock) ms).run s = (.ok (es.map Lowered.expr), s) := by
  induction h with
  | nil => rfl
  | @cons m e _ _ he _ ih =>
      have hm : (lowered clock m).run s = (.ok (.expr e), s) := Prod.ext he rfl
      rw [Emission.each, Emission.run_bind_of_ok hm, Emission.run_bind_of_ok ih]
      rfl

theorem toExprEach_exprs (es : List Expr) :
    Lowered.toExprEach (es.map Lowered.expr) = .ok es := by
  induction es with
  | nil => rfl
  | cons e rest ih =>
      rw [List.map_cons, Lowered.toExprEach, ih]
      rfl

theorem run_exprs {es : List Expr} (h : Operands clock n field es)
    (s : Session Clock Lowered) :
    (exprs (lowered clock) n field).run s = (.ok es, s) := by
  obtain ⟨ms, hms, hes⟩ := h
  have hsequence : (Emission.sequence (lowered clock) n field).run s
      = (.ok (es.map Lowered.expr), s) := by
    rw [Emission.sequence, hms]
    exact run_each hes s
  rw [exprs, Emission.run_bind_of_ok hsequence, toExprEach_exprs]
  rfl

/-- What the rule for a value gave. -/
theorem run_of_compiled (h : n.Built) {k : NodeKind}
    {rule : (Node → Lowering Lowered) → Node → Lowering Expr}
    (hresolve : rules.resolve n.kind = .ok (k, giving rule)) (he : Compiled clock n e) :
    ∃ after, (rule (lowered clock) n).run ⟨clock, none⟩ = (.ok e, after) := by
  obtain ⟨after, hrun⟩ := run_of_answer h hresolve he
  exact ⟨after, run_giving_eq_ok hrun⟩

/-! ## Constants, operators, choices and membership -/

theorem compiled_literal (h : n.Built) (hkind : n.kind = .literal)
    (he : Compiled clock n e) :
    ∃ v, n.literal? = some v ∧ e = .literal v (n.dataType?.getD v.dataType) := by
  obtain ⟨_, hrun⟩ := run_of_compiled h (k := .literal) (resolve_of_kind hkind rfl) he
  split at hrun
  · next v hv => cases hrun; exact ⟨v, hv, rfl⟩
  · cases hrun

theorem compiled_binary (h : n.Built)
    (hresolve : rules.resolve n.kind = .ok (.binary, binaryRule)) (he : Compiled clock n e) :
    ∃ op l r, lookup binaryOps n = .ok op ∧ Operand clock n "left" l
      ∧ Operand clock n "right" r
      ∧ e = .binary l op r := by
  obtain ⟨_, hrun⟩ := run_of_compiled h hresolve he
  obtain ⟨op, hop, hrun⟩ := Emission.run_lift_bind_eq_ok hrun
  obtain ⟨l, _, hl, hrun⟩ := Emission.run_bind_eq_ok hrun
  obtain ⟨r, _, hr, hrun⟩ := Emission.run_bind_eq_ok hrun
  cases hrun
  exact ⟨op, l, r, hop, (run_expr_eq_ok hl).1, (run_expr_eq_ok hr).1, rfl⟩

theorem compiled_between (h : n.Built) (hkind : n.kind = .between)
    (he : Compiled clock n e) :
    ∃ v low high, Operand clock n "arg" v ∧ Operand clock n "lower_bound" low
      ∧ Operand clock n "upper_bound" high
      ∧ e = .between v low high := by
  obtain ⟨_, hrun⟩ := run_of_compiled h (k := .between) (resolve_of_kind hkind rfl) he
  obtain ⟨v, _, hv, hrun⟩ := Emission.run_bind_eq_ok hrun
  obtain ⟨low, _, hlow, hrun⟩ := Emission.run_bind_eq_ok hrun
  obtain ⟨high, _, hhigh, hrun⟩ := Emission.run_bind_eq_ok hrun
  cases hrun
  exact ⟨v, low, high, (run_expr_eq_ok hv).1, (run_expr_eq_ok hlow).1,
    (run_expr_eq_ok hhigh).1, rfl⟩

theorem run_membership_eq_ok (h : (membership (lowered clock) n).run s = (.ok e, after)) :
    ∃ v options, Operand clock n "value" v ∧ Operands clock n "options" options
      ∧ e = .isIn v options := by
  obtain ⟨v, _, hv, h⟩ := Emission.run_bind_eq_ok h
  obtain ⟨options, _, hoptions, h⟩ := Emission.run_bind_eq_ok h
  cases h
  exact ⟨v, options, (run_expr_eq_ok hv).1, (run_exprs_eq_ok hoptions).1, rfl⟩

theorem compiled_contains (h : n.Built) (hkind : n.kind = .contains)
    (he : Compiled clock n e) :
    ∃ v options, Operand clock n "value" v ∧ Operands clock n "options" options
      ∧ e = .isIn v options := by
  obtain ⟨_, hrun⟩ := run_of_compiled h (k := .contains) (resolve_of_kind hkind rfl) he
  exact run_membership_eq_ok hrun

theorem compiled_notContains (h : n.Built) (hkind : n.kind = .notContains)
    (he : Compiled clock n e) :
    ∃ v options, Operand clock n "value" v ∧ Operands clock n "options" options
      ∧ e = .unary .not (.isIn v options) := by
  obtain ⟨_, hrun⟩ := run_of_compiled h (k := .notContains) (resolve_of_kind hkind rfl) he
  obtain ⟨_, _, hmember, hrun⟩ := Emission.run_bind_eq_ok hrun
  cases hrun
  obtain ⟨v, options, hv, hoptions, rfl⟩ := run_membership_eq_ok hmember
  exact ⟨v, options, hv, hoptions, rfl⟩

theorem compiled_coalesce (h : n.Built) (hkind : n.kind = .coalesce)
    (he : Compiled clock n e) :
    ∃ es, Operands clock n "arg" es ∧ e = .coalesce es := by
  obtain ⟨_, hrun⟩ := run_of_compiled h (k := .coalesce) (resolve_of_kind hkind rfl) he
  obtain ⟨es, _, hes, hrun⟩ := Emission.run_bind_eq_ok hrun
  cases hrun
  exact ⟨es, (run_exprs_eq_ok hes).1, rfl⟩

theorem compiled_least (h : n.Built) (hkind : n.kind = .least) (he : Compiled clock n e) :
    ∃ es, Operands clock n "arg" es ∧ e = .least es := by
  obtain ⟨_, hrun⟩ := run_of_compiled h (k := .least) (resolve_of_kind hkind rfl) he
  obtain ⟨es, _, hes, hrun⟩ := Emission.run_bind_eq_ok hrun
  cases hrun
  exact ⟨es, (run_exprs_eq_ok hes).1, rfl⟩

theorem compiled_greatest (h : n.Built) (hkind : n.kind = .greatest)
    (he : Compiled clock n e) :
    ∃ es, Operands clock n "arg" es ∧ e = .greatest es := by
  obtain ⟨_, hrun⟩ := run_of_compiled h (k := .greatest) (resolve_of_kind hkind rfl) he
  obtain ⟨es, _, hes, hrun⟩ := Emission.run_bind_eq_ok hrun
  cases hrun
  exact ⟨es, (run_exprs_eq_ok hes).1, rfl⟩

theorem compiled_ifNull (h : n.Built) (hkind : n.kind = .ifNull) (he : Compiled clock n e) :
    ∃ arg fill, Operand clock n "arg" arg ∧ Operand clock n "ifnull_expr" fill
      ∧ e = .fillNull arg fill := by
  obtain ⟨_, hrun⟩ := run_of_compiled h (k := .ifNull) (resolve_of_kind hkind rfl) he
  obtain ⟨fill, _, hfill, hrun⟩ := Emission.run_bind_eq_ok hrun
  obtain ⟨arg, _, harg, hrun⟩ := Emission.run_bind_eq_ok hrun
  cases hrun
  exact ⟨arg, fill, (run_expr_eq_ok harg).1, (run_expr_eq_ok hfill).1, rfl⟩

theorem compiled_ifElse (h : n.Built) (hkind : n.kind = .ifElse) (he : Compiled clock n e) :
    ∃ p a b, Operand clock n "bool_expr" p ∧ Operand clock n "true_expr" a
      ∧ Operand clock n "false_null_expr" b
      ∧ e = .choose p a b := by
  obtain ⟨_, hrun⟩ := run_of_compiled h (k := .ifElse) (resolve_of_kind hkind rfl) he
  obtain ⟨p, _, hp, hrun⟩ := Emission.run_bind_eq_ok hrun
  obtain ⟨a, _, ha, hrun⟩ := Emission.run_bind_eq_ok hrun
  obtain ⟨b, _, hb, hrun⟩ := Emission.run_bind_eq_ok hrun
  cases hrun
  exact ⟨p, a, b, (run_expr_eq_ok hp).1, (run_expr_eq_ok ha).1, (run_expr_eq_ok hb).1, rfl⟩

theorem compiled_simpleCase (h : n.Built) (hkind : n.kind = .simpleCase)
    (he : Compiled clock n e) :
    ∃ base cases results default, Operand clock n "base" base
      ∧ Operands clock n "cases" cases
      ∧ Operands clock n "results" results ∧ Operand clock n "default" default
      ∧ e = firstCase default ((cases.map base.equals).zip results) := by
  obtain ⟨_, hrun⟩ := run_of_compiled h (k := .simpleCase) (resolve_of_kind hkind rfl) he
  obtain ⟨base, _, hbase, hrun⟩ := Emission.run_bind_eq_ok hrun
  obtain ⟨cases, _, hcases, hrun⟩ := Emission.run_bind_eq_ok hrun
  obtain ⟨results, _, hresults, hrun⟩ := Emission.run_bind_eq_ok hrun
  obtain ⟨default, _, hdefault, hrun⟩ := Emission.run_bind_eq_ok hrun
  cases hrun
  exact ⟨base, cases, results, default, (run_expr_eq_ok hbase).1, (run_exprs_eq_ok hcases).1,
    (run_exprs_eq_ok hresults).1, (run_expr_eq_ok hdefault).1, rfl⟩

theorem compiled_searchedCase (h : n.Built) (hkind : n.kind = .searchedCase)
    (he : Compiled clock n e) :
    ∃ cases results default, Operands clock n "cases" cases
      ∧ Operands clock n "results" results
      ∧ Operand clock n "default" default ∧ e = firstCase default (cases.zip results) := by
  obtain ⟨_, hrun⟩ := run_of_compiled h (k := .searchedCase) (resolve_of_kind hkind rfl) he
  obtain ⟨cases, _, hcases, hrun⟩ := Emission.run_bind_eq_ok hrun
  obtain ⟨results, _, hresults, hrun⟩ := Emission.run_bind_eq_ok hrun
  obtain ⟨default, _, hdefault, hrun⟩ := Emission.run_bind_eq_ok hrun
  cases hrun
  exact ⟨cases, results, default, (run_exprs_eq_ok hcases).1, (run_exprs_eq_ok hresults).1,
    (run_expr_eq_ok hdefault).1, rfl⟩

/-! ## Running the rules -/

variable {m d : Node}

theorem run_expr (h : Operand clock n field e) (s : Session Clock Lowered) :
    (expr (lowered clock) n field).run s = (.ok e, s) := by
  obtain ⟨m, hm, he⟩ := h
  have hfield : (Emission.field (lowered clock) n field).run s = (.ok (.expr e), s) := by
    rw [Emission.field, hm]
    exact Prod.ext he rfl
  rw [expr, Emission.run_bind_of_ok hfield]
  rfl

theorem run_exprsOf {fields : List String} {es : List Expr}
    (h : List.Forall₂ (Operand clock n) fields es) (s : Session Clock Lowered) :
    (exprsOf (lowered clock) n fields).run s = (.ok es, s) := by
  induction h with
  | nil => rfl
  | cons he _ ih =>
      rw [exprsOf, Emission.run_bind_of_ok (run_expr he s), Emission.run_bind_of_ok ih]
      rfl

/-- What the rule for a value gives is what the value is compiled to. -/
theorem compiled_of_run (h : n.Built) {k : NodeKind}
    {rule : (Node → Lowering Lowered) → Node → Lowering Expr}
    (hresolve : rules.resolve n.kind = .ok (k, giving rule))
    (hrun : (rule (lowered clock) n).run ⟨clock, none⟩ = (.ok e, ⟨clock, none⟩)) :
    Compiled clock n e := by
  rw [Compiled, answer_eq_result h clock hresolve, Emission.result, giving,
    Emission.run_bind_of_ok hrun]
  rfl

/-- A function of one operand, with what the node says of it. -/
theorem compiled_callWith (h : n.Built) {k : NodeKind}
    {read : Node → Except Error Function} {f : Function}
    (hresolve : rules.resolve n.kind = .ok (k, callWith read field))
    (hread : read n = .ok f) (harg : Operand clock n field e) :
    Compiled clock n (e.callOne f) := by
  refine compiled_of_run h hresolve ?_
  rw [hread]
  show ((expr (lowered clock) n field >>= _).run _) = _
  rw [Emission.run_bind_of_ok (run_expr harg _)]
  rfl

/-- A function of several fields. -/
theorem compiled_callOf (h : n.Built) {k : NodeKind} {f : Function} {fields : List String}
    {es : List Expr} (hresolve : rules.resolve n.kind = .ok (k, callOf f fields))
    (hes : List.Forall₂ (Operand clock n) fields es) :
    Compiled clock n (.call f es) := by
  refine compiled_of_run h hresolve ?_
  rw [Emission.run_bind_of_ok (run_exprsOf hes _)]
  rfl

/-! ## Constants -/

/-- A constant in a field is read from it. -/
theorem optionalLiteral_of_child {target : String} {v : Value} (hm : n.child field = .ok m)
    (hv : m.literal? = some v) :
    n.optionalLiteral target field = .ok (some v) := by
  obtain ⟨a, ha, hm⟩ := Node.fieldAs_eq_ok hm
  obtain rfl : a = .node m := by
    cases a <;> cases hm
    rfl
  have hliteral : m.isLiteral = true := by
    unfold Node.literal? at hv
    split at hv
    · assumption
    · cases hv
  rw [Node.optionalLiteral, ha]
  show (if m.isLiteral then Except.ok m.literal? else _) = _
  rw [if_pos hliteral, hv]

theorem textLiteral_eq {text : String} (hm : n.child field = .ok m)
    (hv : m.literal? = some (.string text)) :
    textLiteral n field = .ok text := by
  rw [textLiteral, Node.requiredLiteral, optionalLiteral_of_child hm hv]
  rfl

/-! ## Timestamps -/

theorem childType_of_child {t : DataType} (hm : n.child field = .ok m)
    (ht : m.dataType? = some t) :
    childType n field = .ok t :=
  bind_eq_ok.2 ⟨m, hm, by rw [ht]⟩

/-- A timestamp that is moved by an interval of fixed length. -/
theorem compiled_shift (h : n.Built) {k : NodeKind} {combine : Expr → Expr → Expr}
    (hresolve : rules.resolve n.kind = .ok (k, shiftTimestampRule combine)) {u : TimeUnit}
    {v : IntervalUnit} {step : Int} (hm : n.child "left" = .ok m)
    (hu : m.dataType? = some (.timestamp u)) (hd : n.child "right" = .ok d)
    (hv : d.dataType? = some (.interval v)) (hstep : v.fixedNanos = some step)
    {base delta : Expr} (hbase : Compiled clock m base) (hdelta : Compiled clock d delta) :
    Compiled clock n
      (.cast (shift combine (.cast base .int64) (.cast delta .int64) u.nanos step)
        (.timestamp u)) := by
  have hunit : timestampUnit n "left" = .ok u := by
    rw [timestampUnit, childType_of_child hm hu]
    rfl
  have hlength : stepOf n = .ok (v, step) :=
    bind_eq_ok.2 ⟨_, childType_of_child hd hv, by simp only [hstep]⟩
  refine compiled_of_run h hresolve ?_
  rw [hunit, hlength]
  show ((expr (lowered clock) n "left" >>= _).run _) = _
  rw [Emission.run_bind_of_ok (run_expr ⟨m, hm, hbase⟩ _),
    Emission.run_bind_of_ok (run_expr ⟨d, hd, hdelta⟩ _)]
  rfl

/-- A difference of counts. -/
theorem compiled_difference (h : n.Built) {k : NodeKind} {count : Expr → Expr}
    (hresolve : rules.resolve n.kind = .ok (k, differenceRule count)) {l r : Expr}
    (hl : Operand clock n "left" l) (hr : Operand clock n "right" r) :
    Compiled clock n (.subtract (count l) (count r)) := by
  refine compiled_of_run h hresolve ?_
  rw [Emission.run_bind_of_ok (run_expr hl _), Emission.run_bind_of_ok (run_expr hr _)]
  rfl

end TypedQuery.Engine
