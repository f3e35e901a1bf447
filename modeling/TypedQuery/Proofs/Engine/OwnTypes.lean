import TypedQuery.Proofs.Engine.Operands
import TypedQuery.Proofs.Expr.Types
import TypedQuery.Proofs.Node.Types

/-!
# Values of one type

Most kinds of values have one type, whatever their operands are (`NodeKind.ownType?`). So
have the expressions that they are compiled to: an operator, a function or a reduction
decides its result by itself, or it is cast at the end. The steps of a rule are followed
only as far as the type takes it, which is what `Gives` is for: it holds of a step if
everything has the property that the step may give.
-/

namespace TypedQuery

namespace Engine

variable {α β : Type} {clock : Clock} {b : Batch} {n : Node} {e : Expr} {t : DataType}
    {u : Physical} {field : String}

/-! ## What steps give -/

/-- Whatever the step gives has the property. -/
def Gives (P : α → Prop) (step : Lowering α) : Prop :=
  ∀ s a after, step.run s = (.ok a, after) → P a

namespace Gives

variable {P : α → Prop} {Q : β → Prop} {step : Lowering α} {next : α → Lowering β}

theorem pure {a : α} (h : P a) : Gives P (pure a) := by
  intro s b after hb
  obtain ⟨rfl, -⟩ := Emission.run_pure_eq_ok hb
  exact h

theorem bind (h : Gives P step) (hnext : ∀ a, P a → Gives Q (next a)) :
    Gives Q (step >>= next) := by
  intro s b after hb
  obtain ⟨a, middle, ha, hb⟩ := Emission.run_bind_eq_ok hb
  exact hnext a (h _ _ _ ha) _ _ _ hb

/-- A step of which nothing need be known. -/
theorem bind_any (hnext : ∀ a, Gives Q (next a)) : Gives Q (step >>= next) :=
  .bind (P := fun _ => True) (fun _ _ _ _ => trivial) fun a _ => hnext a

theorem lift {x : Except Error α} (h : ∀ a, x = .ok a → P a) :
    Gives P (liftM x : Lowering α) := by
  intro s a after ha
  rw [Emission.run_lift] at ha
  exact h a (Prod.mk.inj ha).1

theorem lift_bind {x : Except Error α} (hnext : ∀ a, x = .ok a → Gives Q (next a)) :
    Gives Q ((liftM x : Lowering α) >>= next) :=
  .bind (P := fun a => x = .ok a) (.lift fun _ h => h) hnext

theorem error (e : Error) : Gives P (throw e : Lowering α) := fun _ _ _ h => by cases h

theorem mono {P' : α → Prop} (h : Gives P step) (hP : ∀ a, P a → P' a) : Gives P' step :=
  fun s a after ha => hP a (h s a after ha)

end Gives

/-- An expression of the type. -/
abbrev GivesType (b : Batch) (u : Physical) : Lowering Expr → Prop :=
  Gives fun e => e.HasType b u

theorem Compiled.hasType (h : n.Built) (he : Compiled clock n e) {k : NodeKind}
    {rule : (Node → Lowering Lowered) → Node → Lowering Expr}
    (hresolve : rules.resolve n.kind = .ok (k, giving rule))
    (hrule : GivesType b u (rule (lowered clock) n)) : e.HasType b u := by
  obtain ⟨_, hrun⟩ := run_of_compiled h hresolve he
  exact hrule _ _ _ hrun

theorem mem_of_lookup {table : List (NodeKind × α)} {a : α} (h : lookup table n = .ok a) :
    (n.kind, a) ∈ table := by
  unfold lookup at h
  split at h
  · next k a' hfind =>
      cases h
      have hk := List.find?_some hfind
      rw [← of_decide_eq_true hk]
      exact List.mem_of_find?_eq_some hfind
  · cases h

/-! ## Operators with one type of result -/

/-- Arithmetic on doubles. -/
theorem hasType_doubles {l r : Expr} (hl : l.HasType b .float64) (hr : r.HasType b .float64)
    (op : Column.Arithmetic) : (Expr.binary l (.arithmetic op) r).HasType b .float64 :=
  hl.binary hr fun _ ht => (Except.ok.inj ht).symm

theorem hasType_float64 (x : Double) : (Expr.constant (.float64 x)).HasType b .float64 :=
  .constant (.inr fun h => by cases h)

section

variable (h : n.Built) (he : Compiled clock n e)

include h he

theorem hasType_unaryOwn (hresolve : rules.resolve n.kind = .ok (.unary, unaryRule))
    (hown : n.kind.ownType? = some t) : e.HasType b (.ofLogical t) := by
  refine he.hasType h hresolve (.lift_bind fun op hop => .bind_any fun _ => .pure ?_)
  have hops : ∀ x ∈ unaryOps, ∀ t, x.1.ownType? = some t →
      x.2 ≠ .abs ∧ ∀ u, x.2.resultType u = .ofLogical t := by
    simp only [unaryOps, List.forall_mem_cons, List.not_mem_nil, false_imp_iff,
      implies_true, and_true]
    repeat' apply And.intro
    all_goals
      intro t ht
      cases ht
    all_goals exact ⟨by decide, fun _ => rfl⟩
  obtain ⟨hne, hresult⟩ := hops _ (mem_of_lookup hop) t hown
  exact .unary_of_result hne hresult

theorem hasType_binaryOwn (hresolve : rules.resolve n.kind = .ok (.binary, binaryRule))
    (hown : n.kind.ownType? = some t) : e.HasType b (.ofLogical t) := by
  refine he.hasType h hresolve
    (.lift_bind fun op hop => .bind_any fun _ => .bind_any fun _ => .pure ?_)
  have hops : ∀ x ∈ binaryOps, ∀ t, x.1.ownType? = some t →
      ∀ u, x.2.resultType u = .ofLogical t := by
    simp only [binaryOps, List.forall_mem_cons, List.not_mem_nil, false_imp_iff,
      implies_true, and_true]
    repeat' apply And.intro
    all_goals
      intro t ht
      cases ht
    all_goals exact fun _ => rfl
  exact .binary_of_result (hops _ (mem_of_lookup hop) t hown)

theorem hasType_condition (hk : n.kind ∈ [.between, .contains, .notContains]) :
    e.HasType b .boolean := by
  have hmembership : GivesType b .boolean (membership (lowered clock) n) :=
    .bind_any fun _ => .bind_any fun _ => .pure .isIn
  simp only [List.mem_cons, List.not_mem_nil, or_false] at hk
  rcases hk with hk | hk | hk
  · refine he.hasType h (k := .between) (resolve_of_kind hk rfl) ?_
    exact .bind_any fun _ => .bind_any fun _ => .bind_any fun _ => .pure .between
  · exact he.hasType h (k := .contains) (resolve_of_kind hk rfl) hmembership
  · refine he.hasType h (k := .notContains) (resolve_of_kind hk rfl) ?_
    exact .bind_any fun _ => .pure (.unary_of_result (by decide) fun _ => rfl)

theorem hasType_float
    (hk : n.kind ∈ [.divide, .power, .atan2, .cot, .radians, .degrees, .log]) :
    e.HasType b .float64 := by
  have hscaled (factor : Double) : GivesType b .float64 (do
      return Expr.multiply (.cast (← expr (lowered clock) n "arg") .float64)
          (.constant (.float64 factor))) :=
    .bind_any fun e =>
      .pure (hasType_doubles (.cast e .float64) (hasType_float64 _) .multiply)
  have hln (e : Expr) : (Expr.unary .ln e).HasType b .float64 :=
    .unary_of_result (by decide) fun _ => rfl
  simp only [List.mem_cons, List.not_mem_nil, or_false] at hk
  rcases hk with hk | hk | hk | hk | hk | hk | hk
  · refine he.hasType h (k := .divide) (resolve_of_kind hk rfl) ?_
    exact .bind_any fun l => .bind_any fun r =>
      .pure (hasType_doubles (.cast l .float64) (.cast r .float64) _)
  · refine he.hasType h (k := .power) (resolve_of_kind hk rfl) ?_
    exact .bind_any fun l => .bind_any fun r => .pure (.binary_of_result fun _ => rfl)
  · refine he.hasType h (k := .atan2) (resolve_of_kind hk rfl) ?_
    exact .bind_any fun _ => .pure (.call_of_result fun _ => rfl)
  · refine he.hasType h (k := .cot) (resolve_of_kind hk rfl) ?_
    exact .bind_any fun e =>
      .pure (hasType_doubles (.unary_of_result (by decide) fun _ => rfl)
      (.unary_of_result (by decide) fun _ => rfl) _)
  · exact he.hasType h (k := .radians) (resolve_of_kind hk rfl) (hscaled _)
  · exact he.hasType h (k := .degrees) (resolve_of_kind hk rfl) (hscaled _)
  · refine he.hasType h (k := .log) (resolve_of_kind hk rfl) ?_
    refine .bind_any fun e => .lift_bind fun base _ => ?_
    split
    · exact .pure (hln e)
    · exact .pure (hln e)
    · split
      · exact .pure (hasType_doubles (hln e) (hasType_float64 _) _)
      · exact .error _

/-- Counts that are converted to their type. -/
theorem hasType_count (hk : n.kind ∈ [.ceil, .floor, .stringLength, .dayOfWeekIndex, .date])
    (hown : n.kind.ownType? = some t) : e.HasType b (.ofLogical t) := by
  simp only [List.mem_cons, List.not_mem_nil, or_false] at hk
  rcases hk with hk | hk | hk | hk | hk <;> (rw [hk] at hown; cases hown)
  · refine he.hasType h (k := .ceil) (resolve_of_kind hk rfl) ?_
    exact .bind_any fun _ => .pure (.cast _ _)
  · refine he.hasType h (k := .floor) (resolve_of_kind hk rfl) ?_
    exact .bind_any fun _ => .pure (.cast _ _)
  · refine he.hasType h (k := .stringLength) (resolve_of_kind hk rfl) ?_
    exact .bind_any fun _ => .pure (.cast _ _)
  · refine he.hasType h (k := .dayOfWeekIndex) (resolve_of_kind hk rfl) ?_
    exact .bind_any fun _ => .pure (.cast _ _)
  · refine he.hasType h (k := .date) (resolve_of_kind hk rfl) ?_
    exact .bind_any fun _ => .pure (.cast _ _)

theorem hasType_field
    (hresolve : rules.resolve n.kind = .ok (.extractTemporalField, fieldRule)) :
    e.HasType b .int32 := by
  refine he.hasType h hresolve ?_
  exact .lift_bind fun _ _ => .bind_any fun _ => .pure (.cast _ _)

/-! ## Functions -/

theorem hasType_callOf {k : NodeKind} {f : Function} {fields : List String}
    (hresolve : rules.resolve n.kind = .ok (k, callOf f fields))
    (hresult : ∀ t, f.resultType t = u) :
    e.HasType b u := by
  refine he.hasType h hresolve ?_
  exact .bind_any fun _ => .pure (.call_of_result hresult)

theorem hasType_callWith {k : NodeKind} {read : Node → Except Error Function}
    {field : String} (hresolve : rules.resolve n.kind = .ok (k, callWith read field))
    (hresult : Yields (fun f => ∀ t, f.resultType t = u) (read n)) : e.HasType b u := by
  refine he.hasType h hresolve ?_
  exact .lift_bind fun f hf => .bind_any fun _ => .pure (.call_of_result (hresult f hf))

theorem hasType_edited
    (hresolve : rules.resolve n.kind
      = .ok (.stringUnary, callWith (lookup textFunctions) "arg")) :
    e.HasType b .text := by
  refine hasType_callWith h he hresolve fun f hf => ?_
  have hall : ∀ x ∈ textFunctions, ∀ t, x.2.resultType t = .text := by
    simp only [textFunctions, List.forall_mem_cons, List.not_mem_nil, false_imp_iff,
      implies_true, and_true, Function.resultType]
  exact hall _ (mem_of_lookup hf)

theorem hasType_text
    (hk : n.kind
      ∈ [.substring, .strRight, .stringReplace, .regexReplace, .regexExtract, .lPad, .rPad,
    .repeated, .strftime]) : e.HasType b .text := by
  simp only [List.mem_cons, List.not_mem_nil, or_false] at hk
  rcases hk with hk | hk | hk | hk | hk | hk | hk | hk | hk
  · exact hasType_callWith h he (k := .substring) (resolve_of_kind hk rfl)
      (.bind_any fun _ _ => .bind_any fun _ _ => .ok fun _ => rfl)
  · exact hasType_callWith h he (k := .strRight) (resolve_of_kind hk rfl)
      (.bind_any fun _ _ => .ok fun _ => rfl)
  · exact hasType_callWith h he (k := .stringReplace) (resolve_of_kind hk rfl)
      (.bind_any fun _ _ => .bind_any fun _ _ => .ok fun _ => rfl)
  · exact hasType_callWith h he (k := .regexReplace) (resolve_of_kind hk rfl)
      (.bind_any fun _ _ => .bind_any fun _ _ => .ok fun _ => rfl)
  · exact hasType_callWith h he (k := .regexExtract) (resolve_of_kind hk rfl)
      (.bind_any fun _ _ => .bind_any fun _ _ => .ok fun _ => rfl)
  · exact hasType_callWith h he (k := .lPad) (resolve_of_kind hk rfl)
      (.bind_any fun _ _ => .bind_any fun _ _ => .ok fun _ => rfl)
  · exact hasType_callWith h he (k := .rPad) (resolve_of_kind hk rfl)
      (.bind_any fun _ _ => .bind_any fun _ _ => .ok fun _ => rfl)
  · exact hasType_callWith h he (k := .repeated) (resolve_of_kind hk rfl)
      (.bind_any fun _ _ => .ok fun _ => rfl)
  · exact hasType_callWith h he (k := .strftime) (resolve_of_kind hk rfl)
      (.bind_any fun _ _ => .ok fun _ => rfl)

theorem hasType_match
    (hk : n.kind ∈ [.regexSearch, .startsWith, .endsWith, .stringContains]) :
    e.HasType b .boolean := by
  simp only [List.mem_cons, List.not_mem_nil, or_false] at hk
  rcases hk with hk | hk | hk | hk
  · exact hasType_callWith h he (k := .regexSearch) (resolve_of_kind hk rfl)
      (.bind_any fun _ _ => .ok fun _ => rfl)
  · exact hasType_callWith h he (k := .startsWith) (resolve_of_kind hk rfl)
      (.bind_any fun _ _ => .ok fun _ => rfl)
  · exact hasType_callWith h he (k := .endsWith) (resolve_of_kind hk rfl)
      (.bind_any fun _ _ => .ok fun _ => rfl)
  · exact hasType_callWith h he (k := .stringContains) (resolve_of_kind hk rfl)
      (.bind_any fun _ _ => .ok fun _ => rfl)

theorem hasType_found (hk : n.kind = .stringFind ∨ n.kind = .findInSet) :
    e.HasType b .int64 := by
  rcases hk with hk | hk
  · refine hasType_callWith h he (k := .stringFind) (resolve_of_kind hk rfl) ?_
    unfold readFind
    split
    · exact .error _
    · refine .bind_any fun _ _ => .bind_any fun _ _ => ?_
      split
      · exact .ok fun _ => rfl
      · exact .bind_any fun _ _ => .ok fun _ => rfl
  · refine hasType_callWith h he (k := .findInSet) (resolve_of_kind hk rfl)
      (.bind_any fun _ _ => ?_)
    split
    · exact .ok fun _ => rfl
    · exact .error _

theorem hasType_joined (hk : n.kind = .stringConcat ∨ n.kind = .stringJoin) :
    e.HasType b .text := by
  rcases hk with hk | hk
  · refine he.hasType h (k := .stringConcat) (resolve_of_kind hk rfl) ?_
    exact .bind_any fun _ => .pure (.call_of_result fun _ => rfl)
  · refine he.hasType h (k := .stringJoin) (resolve_of_kind hk rfl) ?_
    exact .lift_bind fun _ _ => .bind_any fun _ => .pure (.call_of_result fun _ => rfl)

/-! ## Dates -/

omit h he in
theorem hasType_nameOfDay (index : Expr) (day : Int) (names : List String) :
    (nameOfDay index day names).HasType b .text := by
  induction names generalizing day with
  | nil => exact .literal (.inl rfl)
  | cons name rest ih => exact .choose_same (.constant (.inr fun h => by cases h)) (ih _)

theorem hasType_dayName (hk : n.kind = .dayOfWeekName) : e.HasType b .text := by
  refine he.hasType h (k := .dayOfWeekName) (resolve_of_kind hk rfl) ?_
  exact .bind_any fun index => .pure (hasType_nameOfDay index 0 _)

theorem hasType_shiftedDate (hk : n.kind = .dateAdd ∨ n.kind = .dateSub) :
    e.HasType b .date := by
  have hshift (combine : Expr → Expr → Expr) {k : NodeKind}
      (hresolve : rules.resolve n.kind = .ok (k, shiftDateRule combine)) :
        e.HasType b .date := by
    refine he.hasType h hresolve (.lift_bind fun p _ => ?_)
    obtain ⟨unit, step⟩ := p
    dsimp only
    split
    · exact .error _
    · exact .bind_any fun _ => .bind_any fun _ => .pure (.cast _ _)
  rcases hk with hk | hk
  · exact hshift .add (k := .dateAdd) (resolve_of_kind hk rfl)
  · exact hshift .subtract (k := .dateSub) (resolve_of_kind hk rfl)

/-- Differences are taken of counts. -/
theorem hasType_difference (hk : n.kind = .timestampDiff ∨ n.kind = .dateDiff) :
    e.HasType b .int64 := by
  have hdifference {count : Expr → Expr}
      (hcount : ∀ e, (count e).HasType b .int64) {k : NodeKind}
      (hresolve : rules.resolve n.kind = .ok (k, differenceRule count)) :
          e.HasType b .int64 := by
    refine he.hasType h hresolve ?_
    exact .bind_any fun l => .bind_any fun r => .pure
      ((hcount l).binary (hcount r) fun _ ht => (Except.ok.inj ht).symm)
  rcases hk with hk | hk
  · exact hdifference (fun _ => .cast _ _) (k := .timestampDiff) (resolve_of_kind hk rfl)
  · exact hdifference (fun _ => .cast _ _) (k := .dateDiff) (resolve_of_kind hk rfl)

theorem hasType_now (hk : n.kind = .timestampNow) :
    e.HasType b (.timestamp .nanosecond) := by
  refine he.hasType h (k := .timestampNow) (resolve_of_kind hk rfl) ?_
  exact .bind_any fun _ => .pure (.constant (.inr fun h => by cases h))

/-! ## Reductions -/

theorem hasType_counted (hk : n.kind ∈ [.count, .countDistinct, .mean, .approxMedian])
    (hown : n.kind.ownType? = some t) : e.HasType b (.ofLogical t) := by
  have hresolve : rules.resolve n.kind
      = .ok (.reduction,
        giving fun emit n => do reduced (← lookup reductions n) emit n) := by
    simp only [List.mem_cons, List.not_mem_nil, or_false] at hk
    rcases hk with hk | hk | hk | hk <;> (rw [hk]; rfl)
  refine he.hasType h hresolve
    (.lift_bind fun f hf => .bind_any fun _ => .bind_any fun _ => .pure ?_)
  have hall : ∀ x ∈ reductions, ∀ t, x.1.ownType? = some t →
      ∀ u, x.2.resultType u = .ofLogical t := by
    simp only [reductions, List.forall_mem_cons, List.not_mem_nil, false_imp_iff,
      implies_true, and_true]
    repeat' apply And.intro
    all_goals
      intro t ht
      cases ht
    all_goals exact fun _ => rfl
  exact .reduce_of_result (hall _ (mem_of_lookup hf) t hown)

theorem hasType_spread (hk : n.kind = .standardDev ∨ n.kind = .variance) :
    e.HasType b .float64 := by
  rcases hk with hk | hk
  · refine he.hasType h (k := .standardDev) (resolve_of_kind hk rfl) ?_
    exact .lift_bind fun _ _ => .bind_any fun _ => .bind_any fun _ =>
      .pure (.reduce_of_result fun _ => rfl)
  · refine he.hasType h (k := .variance) (resolve_of_kind hk rfl) ?_
    exact .lift_bind fun _ _ => .bind_any fun _ => .bind_any fun _ =>
      .pure (.reduce_of_result fun _ => rfl)

theorem hasType_countStar (hk : n.kind = .countStar) : e.HasType b .int64 := by
  refine he.hasType h (k := .countStar) (resolve_of_kind hk rfl) ?_
  exact .bind_any fun _ => .pure .countRows

/-! ## All of them -/

/-- A value of a kind that has a type of its own, whatever the types of its operands. -/
theorem hasType_own (hk : n.kind ≠ .dateTruncate) (hown : n.kind.ownType? = some t) :
    e.HasType b (.ofLogical t) := by
  cases hkind : n.kind with
  | not | isNull | notNull | isNan | isInf | exp | ln | log2 | log10 | sqrt | acos | asin
  | atan | cos | sin | tan =>
      exact hasType_unaryOwn h he (resolve_of_kind hkind rfl) hown
  | equals | notEquals | greater | greaterEqual | less | lessEqual | and | or | xor =>
      exact hasType_binaryOwn h he (resolve_of_kind hkind rfl) hown
  | extractYear | extractQuarter | extractMonth | extractWeekOfYear | extractDayOfYear
  | extractDay | extractHour
    | extractMinute | extractSecond | extractMillisecond =>
      rw [hkind] at hown
      cases hown
      exact hasType_field h he (resolve_of_kind hkind rfl)
  | lowercase | uppercase | strip | lStrip | rStrip | capitalize | reverse =>
      rw [hkind] at hown
      cases hown
      exact hasType_edited h he (resolve_of_kind hkind rfl)
  | ceil | floor | stringLength | dayOfWeekIndex | date =>
      exact hasType_count h he (by rw [hkind]; decide) hown
  | count | countDistinct | mean | approxMedian =>
      exact hasType_counted h he (by rw [hkind]; decide) hown
  | arrayLength | extractEpochSeconds | dateFromYmd | timestampFromYmdhms =>
      rw [hkind] at hown
      cases hown
      exact hasType_callOf h he (resolve_of_kind hkind rfl) fun _ => rfl
  | stringSplit | stringToTimestamp =>
      rw [hkind] at hown
      cases hown
      exact hasType_callWith h he (resolve_of_kind hkind rfl)
        (.bind_any fun _ _ => .ok fun _ => rfl)
  | between | contains | notContains =>
      rw [hkind] at hown
      cases hown
      exact hasType_condition h he (by rw [hkind]; decide)
  | divide | power | atan2 | cot | radians | degrees | log =>
      rw [hkind] at hown
      cases hown
      exact hasType_float h he (by rw [hkind]; decide)
  | substring | strRight | stringReplace | regexReplace | regexExtract | lPad | rPad
  | repeated | strftime =>
      rw [hkind] at hown
      cases hown
      exact hasType_text h he (by rw [hkind]; decide)
  | regexSearch | startsWith | endsWith | stringContains =>
      rw [hkind] at hown
      cases hown
      exact hasType_match h he (by rw [hkind]; decide)
  | stringFind | findInSet =>
      rw [hkind] at hown
      cases hown
      exact hasType_found h he (by rw [hkind]; decide)
  | stringConcat | stringJoin =>
      rw [hkind] at hown
      cases hown
      exact hasType_joined h he (by rw [hkind]; decide)
  | dateAdd | dateSub =>
      rw [hkind] at hown
      cases hown
      exact hasType_shiftedDate h he (by rw [hkind]; decide)
  | timestampDiff | dateDiff =>
      rw [hkind] at hown
      cases hown
      exact hasType_difference h he (by rw [hkind]; decide)
  | standardDev | variance =>
      rw [hkind] at hown
      cases hown
      exact hasType_spread h he (by rw [hkind]; decide)
  | dayOfWeekName =>
      rw [hkind] at hown
      cases hown
      exact hasType_dayName h he hkind
  | timestampNow =>
      rw [hkind] at hown
      cases hown
      exact hasType_now h he hkind
  | countStar =>
      rw [hkind] at hown
      cases hown
      exact hasType_countStar h he hkind
  | dateTruncate => exact absurd hkind hk
  | _ =>
      rw [hkind] at hown
      cases hown

end

end Engine

end TypedQuery
