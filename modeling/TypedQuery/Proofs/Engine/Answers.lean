import TypedQuery.Proofs.Engine.Reading
import TypedQuery.Proofs.Plan.Join

/-!
# What nodes become on the engine

What a node becomes follows from what its rule makes of the answers for other nodes. The
rules look at no session, so a step of a rule can be read as a computation that may fail:
`Emission.result` is that reading, and it goes through sequences (`result_bind`). Executing
a table is executing its plan, and what plans the rules for tables end with is said once
(`Planned`), with one lemma for each rule.
-/

namespace TypedQuery

variable {σ ω α β : Type}

/-! ## Steps as results -/

namespace Emission

/-- What a step gives in a session that keeps nothing. -/
def result (τ : σ) (step : Emission σ ω α) : Except Error α := (step.run ⟨τ, none⟩).1

/-- The step leaves such a session as it is. -/
def Still (τ : σ) (step : Emission σ ω α) : Prop := (step.run ⟨τ, none⟩).2 = ⟨τ, none⟩

theorem result_bind {τ : σ} {step : Emission σ ω α} {next : α → Emission σ ω β}
    (h : Still τ step) :
    result τ (step >>= next) = result τ step >>= fun a => result τ (next a) := by
  unfold result
  rw [run_bind]
  unfold Still at h
  rcases hs : step.run ⟨τ, none⟩ with ⟨result, after⟩
  rw [hs] at h
  subst h
  cases result <;> rfl

/-- Run in some session, the step gives the value. -/
def CanGive (step : Emission σ ω α) (a : α) : Prop := ∃ s after, step.run s = (.ok a, after)

theorem run_bind_of_ok {step : Emission σ ω α} {next : α → Emission σ ω β}
    {s after : Session σ ω} {a : α} (h : step.run s = (.ok a, after)) :
    (step >>= next).run s = (next a).run after := by
  rw [run_bind, h]

theorem result_lift_bind {τ : σ} {x : Except Error α} {next : α → Emission σ ω β} :
    result τ ((liftM x : Emission σ ω α) >>= next) = x >>= fun a => result τ (next a) :=
  result_bind rfl

end Emission

theorem Consults.still {looks : Prop} {S : Node → Prop}
    {step : (Node → Emission σ ω ω) → Emission σ ω α} (h : Consults looks S step) (τ : σ)
    (answer : Node → Except Error ω) :
    Emission.Still τ (step fun m => liftM (answer m)) := by
  induction h with
  | pure a => rfl
  | throw e => rfl
  | ask hm => rfl
  | look hlooks => rfl
  | @bind _ _ step next _ _ ihFirst ihAfter =>
      unfold Emission.Still at ihFirst ihAfter ⊢
      rw [Emission.run_bind]
      rcases hs : (step fun m => liftM (answer m)).run ⟨τ, none⟩ with ⟨result, after⟩
      rw [hs] at ihFirst
      subst ihFirst
      cases result with
      | error e => rfl
      | ok a => exact ihAfter a

namespace Engine

/-! ## Compiling -/

/-- Compiling gives what the rules give without any output kept. -/
theorem compile_eq_answer {n : Node} (h : n.Built) (config : Config) (clock : Clock) :
    compile config clock n = rules.answer clock n := by
  have hagrees : Agrees (rules.Right Node.Built clock) clock
      (rules.walk (fun _ o => return o) n.depth n) (rules.answer clock n) :=
    RuleTable.walk_agrees True (T := (· = clock)) rfl (fun _ _ _ ha hb => ha.trans hb.symm)
      rules_consult (fun _ _ hn hm => hn.eq_of_beq hm)
      (fun _ _ _ _ _ => .of_run fun _ => rfl) h
      (Nat.le_refl _) rfl
  obtain ⟨after, -, -, hrun⟩ :=
    hagrees (if config.compiler.memoize then some [] else none) (by
    split
    · exact keeps_nil _
    · exact keeps_none _)
  unfold compile RuleTable.emit Session.start
  rw [RuleTable.emitWithin_eq_walk, hrun]

/-- Without the present time in it, the clock does not matter. -/
theorem answer_timeless {n : Node} (h : n.Built) (hnow : n.holds .timestampNow = false)
    (clock clock' : Clock) : rules.answer clock n = rules.answer clock' n := by
  have hagrees :
      Agrees (rules.Right (fun n => n.Built ∧ n.holds .timestampNow = false) clock')
      clock (rules.walk (fun _ o => return o) n.depth n) (rules.answer clock' n) :=
    RuleTable.walk_agrees False (T := fun _ => True) trivial (fun h => h.elim)
      rules_consult_timeless (fun _ _ hn hm => hn.1.eq_of_beq hm.1)
      (fun _ _ _ _ _ => .of_run fun _ => rfl) ⟨h, hnow⟩ (Nat.le_refl _) trivial
  obtain ⟨after, -, -, hrun⟩ := hagrees none (keeps_none _)
  rw [RuleTable.answer, RuleTable.emit, RuleTable.emitWithin_eq_walk, hrun]

/-- Finding what other nodes become. -/
def lowered (clock : Clock) : Node → Lowering Lowered :=
  fun m => liftM (rules.answer clock m)

theorem answer_eq_result {n : Node} (h : n.Built) (clock : Clock) {k : NodeKind}
    {rule : EngineRule} (hresolve : rules.resolve n.kind = .ok (k, rule)) :
    rules.answer clock n = Emission.result clock (rule (lowered clock) n) :=
  RuleTable.answer_eq (T := (· = clock)) rfl (fun (_ : True) _ _ ha hb => ha.trans hb.symm)
    rules_consult (fun _ _ hn hm => hn.eq_of_beq hm) h hresolve

/-- What a node becomes is what its rule gives, when run. -/
theorem run_of_answer {n : Node} (h : n.Built) {clock : Clock} {k : NodeKind}
    {rule : EngineRule} (hresolve : rules.resolve n.kind = .ok (k, rule)) {o : Lowered}
    (ho : rules.answer clock n = .ok o) :
    ∃ after, (rule (lowered clock) n).run ⟨clock, none⟩ = (.ok o, after) := by
  rw [answer_eq_result h clock hresolve] at ho
  exact ⟨_, Prod.ext ho rfl⟩

theorem Lowers.still {step : (Node → Lowering Lowered) → Node → Lowering α}
    (h : Lowers step) {n : Node} (hn : n.Built) (clock : Clock) :
    Emission.Still clock (step (lowered clock) n) :=
  (h n hn).still clock _

/-! ## Plans -/

/-- The plan of a table. -/
def planOf (clock : Clock) (n : Node) : Except Error Plan :=
  rules.answer clock n >>= Lowered.toPlan

theorem execute_eq {n : Node} (h : n.Built) (config : Config) (clock : Clock)
    (catalog : Catalog) :
    execute config clock n catalog = planOf clock n >>= fun p => p.execute catalog := by
  rw [execute, compile_eq_answer h, planOf]
  cases rules.answer clock n <;> rfl

theorem result_plan (clock : Clock) (n : Node) (field : String) :
    Emission.result clock (plan (lowered clock) n field)
      = n.child field >>= planOf clock := by
  unfold plan Emission.field
  cases n.child field with
  | error e => rfl
  | ok m =>
      show Emission.result clock (lowered clock m >>= fun output => liftM output.toPlan)
        = planOf clock m
      rw [lowered, Emission.result_lift_bind]
      rfl

theorem planOf_eq_result {n : Node} (h : n.Built) (clock : Clock) {k : NodeKind}
    {rule : EngineRule} (hresolve : rules.resolve n.kind = .ok (k, rule)) :
    planOf clock n = Emission.result clock (rule (lowered clock) n) >>= Lowered.toPlan := by
  rw [planOf, answer_eq_result h clock hresolve]

theorem answer_of_planOf {clock : Clock} {n : Node} {p : Plan} (h : planOf clock n = .ok p) :
    rules.answer clock n = .ok (.plan p) := by
  obtain ⟨output, houtput, h⟩ := bind_eq_ok.1 h
  cases output with
  | plan q => cases h; exact houtput
  | expr e => cases h
  | exprs items => cases h

theorem run_plan_eq_ok {clock : Clock} {n : Node} {field : String} {p : Plan}
    {s after : Session Clock Lowered}
    (h : (plan (lowered clock) n field).run s = (.ok p, after)) :
    ∃ m, n.child field = .ok m ∧ planOf clock m = .ok p ∧ after = s := by
  obtain ⟨output, middle, hfield, h⟩ := Emission.run_bind_eq_ok h
  obtain ⟨m, hm, hfield⟩ := Emission.run_lift_bind_eq_ok hfield
  rw [lowered, Emission.run_lift] at hfield
  rw [Emission.run_lift] at h
  obtain ⟨hanswer, rfl⟩ := Prod.mk.inj hfield
  obtain ⟨hplan, rfl⟩ := Prod.mk.inj h
  exact ⟨m, hm, by rw [planOf, hanswer]; exact hplan, rfl⟩

theorem run_plan {clock : Clock} {n m : Node} {field : String} {p : Plan}
    (hm : n.child field = .ok m) (hp : planOf clock m = .ok p) (s : Session Clock Lowered) :
    (plan (lowered clock) n field).run s = (.ok p, s) := by
  have hfield : (Emission.field (lowered clock) n field).run s = (.ok (.plan p), s) := by
    rw [Emission.field, hm]
    exact Prod.ext (answer_of_planOf hp) rfl
  rw [plan, Emission.run_bind_of_ok hfield]
  rfl

/-! ## Joins -/

/-- The pairs of keys that the two sides of a join are matched by. -/
def keysOf (clock : Clock) (n : Node) : Except Error (List (Expr × Expr)) :=
  Emission.result clock (joinKeys (lowered clock) n)

section

variable {n left right : Node} (h : n.Built) (clock : Clock)
    (hleft : n.child "left" = .ok left)
  (hright : n.child "right" = .ok right)

include h hleft hright

/-- Both kinds of rules for joins have the plans of both sides first, and then the keys. -/
theorem result_sides {α : Type} (next : Plan → Plan → List (Expr × Expr) → Lowering α) :
    Emission.result clock (do
      let l ← plan (lowered clock) n "left"
      let r ← plan (lowered clock) n "right"
      let keys ← joinKeys (lowered clock) n
      next l r keys)
    = (do
      let l ← planOf clock left
      let r ← planOf clock right
      let keys ← keysOf clock n
      Emission.result clock (next l r keys)) := by
  rw [Emission.result_bind ((plan_lowers "left").still h clock), result_plan, hleft]
  refine congrArg (planOf clock left >>= ·) (funext fun l => ?_)
  rw [Emission.result_bind ((plan_lowers "right").still h clock), result_plan, hright]
  refine congrArg (planOf clock right >>= ·) (funext fun r => ?_)
  rw [Emission.result_bind (joinKeys_lowers.still h clock)]
  rfl

theorem planOf_join {k : NodeKind} {kind : JoinKind}
    (hresolve : rules.resolve n.kind = .ok (k, joinRule kind)) :
    planOf clock n = (do
      let l ← planOf clock left
      let r ← planOf clock right
      let keys ← keysOf clock n
      .ok (.join l r (keys.map (·.1)) (keys.map (·.2)) kind Rules.rightMark)) := by
  rw [planOf_eq_result h clock hresolve, joinRule, result_sides h clock hleft hright]
  cases planOf clock left <;> cases planOf clock right <;> cases keysOf clock n <;> rfl

theorem planOf_rightJoin {l r : Schema} (hkind : n.kind = .rightJoin)
    (hl : left.outputSchema = .ok l) (hr : right.outputSchema = .ok r) :
    planOf clock n = (do
      let leftPlan ← planOf clock left
      let rightPlan ← planOf clock right
      let keys ← keysOf clock n
      .ok (.select
        (.join rightPlan leftPlan (keys.map (·.2)) (keys.map (·.1)) .left Rules.rightMark)
          (rightJoinLayout l r))) := by
  have hresolve : rules.resolve n.kind
    = .ok (.rightJoin, rightJoinRule) := by rw [hkind]; rfl
  have hrule : rightJoinRule (lowered clock) n = (do
      let leftPlan ← plan (lowered clock) n "left"
      let rightPlan ← plan (lowered clock) n "right"
      let keys ← joinKeys (lowered clock) n
      return .plan
        (.select (.join rightPlan leftPlan (keys.map (·.2))
          (keys.map (·.1)) .left Rules.rightMark)
        (rightJoinLayout l r))) := by
    rw [rightJoinRule, hleft, hright]
    show ((liftM left.outputSchema : Lowering Schema) >>= fun leftSchema =>
      (liftM right.outputSchema : Lowering Schema) >>= fun rightSchema => _) = _
    rw [hl, hr]
    rfl
  rw [planOf_eq_result h clock hresolve, hrule, result_sides h clock hleft hright]
  cases planOf clock left <;> cases planOf clock right <;> cases keysOf clock n <;> rfl

end

/-! ## Plans of all tables -/

/-- The plan of the table in a field for tables. -/
def PlanIn (clock : Clock) (n : Node) (field : String) (p : Plan) : Prop :=
  n.kind.validator? field = some .table ∧ ∃ m, n.child field = .ok m ∧ planOf clock m = .ok p

/-- Rows in the order of the keys, if there are any. -/
def sortedBy (p : Plan) (keys : List (Expr × Bool)) : Plan :=
  if keys.isEmpty then p else .sort p (keys.map (·.1)) (keys.map (·.2))

/-- Columns with constants for what is missing, if any are filled. -/
def filledBy (p : Plan) (filled : List (ColumnInfo × Value)) : Plan :=
  if filled.isEmpty then p
    else .extend p (filled.map fun (column, v) => filledColumn column v)

/-- The kinds of tables whose plans are joins of the plans of both sides, as these stand. -/
def plainJoins : List (NodeKind × JoinKind) :=
  [(.innerJoin, .inner), (.leftJoin, .left), (.outerJoin, .outer), (.leftSemiJoin, .semi),
    (.leftAntiJoin, .anti)]

/-- What the plan of a table is made of: one case for each plan that a rule can end with. -/
inductive Planned (clock : Clock) (n : Node) : Plan → Prop
  | stored {name : String} (hk : n.kind = .databaseTable)
    (hname : n.stringField "name" = .ok name) :
      Planned clock n (.scan name)
  | given {t : Schema} {rows : List (List Value)} {batch : Batch} {name : String}
      (hk : n.kind = .inMemoryTable) (ht : n.outputSchema = .ok t)
      (hrows : rowsOf n = .ok rows) (hbatch : Batch.ofRows t rows = .ok batch)
      (hname : n.stringField "name" = .ok name) : Planned clock n (.rows name batch)
  | whole {input : Plan} {predicates : List Expr} {keys : List (Expr × Bool)}
      (hk : n.kind = .selection)
      (hinput : PlanIn clock n "table" input) (hms : n.childList "selections" = .ok []) :
      Planned clock n (sortedBy (filtered input predicates) keys)
  | selection {input : Plan} {predicates items : List Expr} {keys : List (Expr × Bool)}
      {ms : List Node} (hk : n.kind = .selection) (hinput : PlanIn clock n "table" input)
      (hms : n.childList "selections" = .ok ms) (hne : ms ≠ [])
      (hitems : Emission.CanGive (selected (lowered clock) ms) items) :
      Planned clock n (.select (sortedBy (filtered input predicates) keys) items)
  | aggregation {input : Plan} {predicates keys metrics : List Expr} {ks ms : List Node}
      (hk : n.kind = .aggregation) (hinput : PlanIn clock n "table" input)
      (hks : n.childList "by" = .ok ks)
      (hkeys : Emission.CanGive (namedEach (lowered clock) ks) keys)
      (hms : n.childList "metrics" = .ok ms)
      (hmetrics : Emission.CanGive (namedEach (lowered clock) ms) metrics) :
      Planned clock n (.aggregate (filtered input predicates) keys metrics)
  | limit {input : Plan} {count offset : Nat} (hk : n.kind = .limit)
      (hcount : countField n "n" = .ok count) (hoffset : countField n "offset" = .ok offset)
      (hinput : PlanIn clock n "table" input) :
      Planned clock n (.slice input offset (some count))
  | distinct {input : Plan} (hk : n.kind = .distinct)
    (hinput : PlanIn clock n "table" input) :
      Planned clock n (.unique input)
  | dropNulls {input : Plan} {names : Option (List String)} (hk : n.kind = .dropNa)
      (hhow : n.stringField "how" = .ok "any") (hinput : PlanIn clock n "table" input) :
      Planned clock n (.dropNulls input names)
  | undropped {input : Plan} {ms : List Node} (hk : n.kind = .dropNa)
      (hhow : n.stringField "how" = .ok "any") (hinput : PlanIn clock n "table" input)
      (hms : n.childList "subset" = .ok ms) (hnames : nodeNames ms = .ok []) :
      Planned clock n input
  | fillNulls {m : Node} {t : Schema} {a : Arg} {filled : List (ColumnInfo × Value)}
      {input : Plan} (hk : n.kind = .fillNa) (hm : n.child "table" = .ok m)
      (ht : m.outputSchema = .ok t) (ha : n.field "replacements" = .ok a)
      (hfilled : fills n t a = .ok filled) (hinput : planOf clock m = .ok input) :
      Planned clock n (filledBy input filled)
  | join {l r : Plan} {keys : List (Expr × Expr)} {kind : JoinKind}
      (hk : (n.kind, kind) ∈ plainJoins) (hl : PlanIn clock n "left" l)
      (hr : PlanIn clock n "right" r) (hkeys : keysOf clock n = .ok keys) :
      Planned clock n (.join l r (keys.map (·.1)) (keys.map (·.2)) kind Rules.rightMark)
  | rightJoin {left right : Node} {ls rs : Schema} {l r : Plan} {keys : List (Expr × Expr)}
      (hk : n.kind = .rightJoin) (hleft : n.child "left" = .ok left)
      (hls : left.outputSchema = .ok ls) (hright : n.child "right" = .ok right)
      (hrs : right.outputSchema = .ok rs) (hl : planOf clock left = .ok l)
      (hr : planOf clock right = .ok r) (hkeys : keysOf clock n = .ok keys) :
      Planned clock n
        (.select (.join r l (keys.map (·.2)) (keys.map (·.1)) .left Rules.rightMark)
        (rightJoinLayout ls rs))

section

variable {n : Node} {clock : Clock} {p : Plan} (h : n.Built) (hp : planOf clock n = .ok p)

include h hp

theorem planned_databaseTable (hk : n.kind = .databaseTable) : Planned clock n p := by
  have hresolve : rules.resolve n.kind
      = .ok (.databaseTable, fun _ n => do return .plan (.scan (← n.stringField "name"))) :=
    resolve_of_kind hk rfl
  obtain ⟨_, hrun⟩ := run_of_answer h hresolve (answer_of_planOf hp)
  obtain ⟨name, hname, hrun⟩ := Emission.run_lift_bind_eq_ok hrun
  cases hrun
  exact .stored hk hname

theorem planned_inMemoryTable (hk : n.kind = .inMemoryTable) : Planned clock n p := by
  have hresolve : rules.resolve n.kind = .ok (.inMemoryTable, givenRowsRule) :=
    resolve_of_kind hk rfl
  obtain ⟨_, hrun⟩ := run_of_answer h hresolve (answer_of_planOf hp)
  obtain ⟨t, ht, hrun⟩ := Emission.run_lift_bind_eq_ok hrun
  obtain ⟨rows, hrows, hrun⟩ := Emission.run_lift_bind_eq_ok hrun
  obtain ⟨batch, hbatch, hrun⟩ := Emission.run_lift_bind_eq_ok hrun
  obtain ⟨name, hname, hrun⟩ := Emission.run_lift_bind_eq_ok hrun
  cases hrun
  exact .given hk ht hrows hbatch hname

theorem planned_selection (hk : n.kind = .selection) : Planned clock n p := by
  have hresolve : rules.resolve n.kind = .ok (.selection, selectionRule) :=
    resolve_of_kind hk rfl
  obtain ⟨_, hrun⟩ := run_of_answer h hresolve (answer_of_planOf hp)
  obtain ⟨input, _, hinput, hrun⟩ := Emission.run_bind_eq_ok hrun
  obtain ⟨m, hm, hplan, -⟩ := run_plan_eq_ok hinput
  obtain ⟨predicates, _, -, hrun⟩ := Emission.run_bind_eq_ok hrun
  obtain ⟨keyNodes, -, hrun⟩ := Emission.run_lift_bind_eq_ok hrun
  obtain ⟨keys, _, -, hrun⟩ := Emission.run_bind_eq_ok hrun
  obtain ⟨ms, hms, hrun⟩ := Emission.run_lift_bind_eq_ok hrun
  split at hrun
  · next hempty =>
      cases hrun
      obtain rfl := List.isEmpty_iff.1 hempty
      exact .whole hk ⟨by rw [hk]; rfl, m, hm, hplan⟩ hms
  · next hempty =>
      obtain ⟨items, _, hitems, hrun⟩ := Emission.run_bind_eq_ok hrun
      cases hrun
      exact .selection hk ⟨by rw [hk]; rfl, m, hm, hplan⟩ hms
        (fun hnil => hempty (List.isEmpty_iff.2 hnil)) ⟨_, _, hitems⟩

theorem planned_aggregation (hk : n.kind = .aggregation) : Planned clock n p := by
  have hresolve : rules.resolve n.kind = .ok (.aggregation, aggregationRule) :=
    resolve_of_kind hk rfl
  obtain ⟨_, hrun⟩ := run_of_answer h hresolve (answer_of_planOf hp)
  obtain ⟨input, _, hinput, hrun⟩ := Emission.run_bind_eq_ok hrun
  obtain ⟨m, hm, hplan, -⟩ := run_plan_eq_ok hinput
  obtain ⟨predicates, _, -, hrun⟩ := Emission.run_bind_eq_ok hrun
  obtain ⟨ks, hks, hrun⟩ := Emission.run_lift_bind_eq_ok hrun
  obtain ⟨keys, _, hkeys, hrun⟩ := Emission.run_bind_eq_ok hrun
  obtain ⟨ms, hms, hrun⟩ := Emission.run_lift_bind_eq_ok hrun
  obtain ⟨metrics, _, hmetrics, hrun⟩ := Emission.run_bind_eq_ok hrun
  cases hrun
  exact .aggregation hk ⟨by rw [hk]; rfl, m, hm, hplan⟩ hks ⟨_, _, hkeys⟩ hms
    ⟨_, _, hmetrics⟩

theorem planned_limit (hk : n.kind = .limit) : Planned clock n p := by
  have hresolve : rules.resolve n.kind = .ok (.limit, limitRule) := resolve_of_kind hk rfl
  obtain ⟨_, hrun⟩ := run_of_answer h hresolve (answer_of_planOf hp)
  obtain ⟨count, hcount, hrun⟩ := Emission.run_lift_bind_eq_ok hrun
  obtain ⟨offset, hoffset, hrun⟩ := Emission.run_lift_bind_eq_ok hrun
  obtain ⟨input, _, hinput, hrun⟩ := Emission.run_bind_eq_ok hrun
  obtain ⟨m, hm, hplan, -⟩ := run_plan_eq_ok hinput
  cases hrun
  exact .limit hk hcount hoffset ⟨by rw [hk]; rfl, m, hm, hplan⟩

theorem planned_distinct (hk : n.kind = .distinct) : Planned clock n p := by
  have hresolve : rules.resolve n.kind
      = .ok (.distinct, fun emit n => return .plan (.unique (← plan emit n "table"))) :=
    resolve_of_kind hk rfl
  obtain ⟨_, hrun⟩ := run_of_answer h hresolve (answer_of_planOf hp)
  obtain ⟨input, _, hinput, hrun⟩ := Emission.run_bind_eq_ok hrun
  obtain ⟨m, hm, hplan, -⟩ := run_plan_eq_ok hinput
  cases hrun
  exact .distinct hk ⟨by rw [hk]; rfl, m, hm, hplan⟩

theorem planned_dropNa (hk : n.kind = .dropNa) : Planned clock n p := by
  have hresolve : rules.resolve n.kind = .ok (.dropNa, dropNullsRule) :=
    resolve_of_kind hk rfl
  obtain ⟨_, hrun⟩ := run_of_answer h hresolve (answer_of_planOf hp)
  obtain ⟨how, hhow, hrun⟩ := Emission.run_lift_bind_eq_ok hrun
  simp only [] at hrun
  split at hrun
  · cases hrun
  · next hany =>
      obtain rfl := not_not.1 hany
      obtain ⟨input, _, hinput, hrun⟩ := Emission.run_bind_eq_ok hrun
      obtain ⟨m, hm, hplan, -⟩ := run_plan_eq_ok hinput
      split at hrun
      · cases hrun
        exact .dropNulls hk hhow ⟨by rw [hk]; rfl, m, hm, hplan⟩
      · obtain ⟨ms, hms, hrun⟩ := Emission.run_lift_bind_eq_ok hrun
        obtain ⟨names, hnames, hrun⟩ := Emission.run_lift_bind_eq_ok hrun
        cases hrun
        split
        · next hempty =>
            obtain rfl := List.isEmpty_iff.1 hempty
            exact .undropped hk hhow ⟨by rw [hk]; rfl, m, hm, hplan⟩ hms hnames
        · exact .dropNulls hk hhow ⟨by rw [hk]; rfl, m, hm, hplan⟩

theorem planned_fillNa (hk : n.kind = .fillNa) : Planned clock n p := by
  have hresolve : rules.resolve n.kind = .ok (.fillNa, fillNullsRule) :=
    resolve_of_kind hk rfl
  obtain ⟨_, hrun⟩ := run_of_answer h hresolve (answer_of_planOf hp)
  obtain ⟨m, hm, hrun⟩ := Emission.run_lift_bind_eq_ok hrun
  obtain ⟨t, ht, hrun⟩ := Emission.run_lift_bind_eq_ok hrun
  obtain ⟨a, ha, hrun⟩ := Emission.run_lift_bind_eq_ok hrun
  obtain ⟨filled, hfilled, hrun⟩ := Emission.run_lift_bind_eq_ok hrun
  obtain ⟨input, _, hinput, hrun⟩ := Emission.run_bind_eq_ok hrun
  obtain ⟨m', hm', hplan, -⟩ := run_plan_eq_ok hinput
  cases hm.symm.trans hm'
  cases hrun
  exact .fillNulls hk hm ht ha hfilled hplan

theorem planned_join (kind : JoinKind) (hk : (n.kind, kind) ∈ plainJoins) :
    Planned clock n p := by
  obtain ⟨⟨k, hresolve⟩, hvl, hvr⟩ : (∃ k, rules.resolve n.kind = .ok (k, joinRule kind))
      ∧ n.kind.validator? "left" = some .table
      ∧ n.kind.validator? "right" = some .table := by
    simp only [plainJoins, List.mem_cons, List.not_mem_nil, or_false, Prod.mk.injEq] at hk
    rcases hk with ⟨hk, rfl⟩ | ⟨hk, rfl⟩ | ⟨hk, rfl⟩ | ⟨hk, rfl⟩ | ⟨hk, rfl⟩ <;>
      exact ⟨⟨_, resolve_of_kind hk rfl⟩, by rw [hk]; rfl, by rw [hk]; rfl⟩
  obtain ⟨left, hleft, -, -⟩ := h.child_eq hvl
  obtain ⟨right, hright, -, -⟩ := h.child_eq hvr
  rw [planOf_join h clock hleft hright hresolve] at hp
  obtain ⟨l, hl, hp⟩ := bind_eq_ok.1 hp
  obtain ⟨r, hr, hp⟩ := bind_eq_ok.1 hp
  obtain ⟨keys, hkeys, hp⟩ := bind_eq_ok.1 hp
  cases hp
  exact .join hk ⟨hvl, left, hleft, hl⟩ ⟨hvr, right, hright, hr⟩ hkeys

theorem planned_rightJoin (hk : n.kind = .rightJoin) : Planned clock n p := by
  obtain ⟨left, right, ls, rs, s, hj⟩ := h.joins (by rw [hk]; decide)
  rw [planOf_rightJoin h clock hj.left_eq hj.right_eq hk hj.leftSchema hj.rightSchema] at hp
  obtain ⟨l, hl, hp⟩ := bind_eq_ok.1 hp
  obtain ⟨r, hr, hp⟩ := bind_eq_ok.1 hp
  obtain ⟨keys, hkeys, hp⟩ := bind_eq_ok.1 hp
  cases hp
  exact .rightJoin hk hj.left_eq hj.leftSchema hj.right_eq hj.rightSchema hl hr hkeys

/-- Every plan of a table is one that a rule for tables ends with. -/
theorem planned (htable : n.kind.isTable = true) : Planned clock n p := by
  have hk := NodeKind.mem_tables htable h.not_abstract
  simp only [NodeKind.tables, List.mem_cons, List.not_mem_nil, or_false] at hk
  rcases hk with hk | hk | hk | hk | hk | hk | hk | hk | hk | hk | hk | hk | hk | hk
  · exact planned_databaseTable h hp hk
  · exact planned_inMemoryTable h hp hk
  · exact planned_selection h hp hk
  · exact planned_aggregation h hp hk
  · exact planned_limit h hp hk
  · exact planned_distinct h hp hk
  · exact planned_dropNa h hp hk
  · exact planned_fillNa h hp hk
  · exact planned_join h hp .inner (by rw [hk]; decide)
  · exact planned_join h hp .left (by rw [hk]; decide)
  · exact planned_rightJoin h hp hk
  · exact planned_join h hp .outer (by rw [hk]; decide)
  · exact planned_join h hp .semi (by rw [hk]; decide)
  · exact planned_join h hp .anti (by rw [hk]; decide)

end

end Engine

end TypedQuery

/-!
## Executed joins

Executing a join whose sides have the columns of their schemas finds pairs of rows and then
makes a batch of them, with the columns of the left side before those of the right. For a
right join this takes that no names clash; when they do, it never succeeds.
-/

namespace TypedQuery.Engine

/-- The pairs of rows that a join makes of two batches. Those of a right join are found
with the sides swapped. -/
def rowPairs (clock : Clock) (nullsMatch : Bool) (n : Node) (left right : Batch) :
    Except Error (List Join.RowPair) := do
  let keys ← keysOf clock n
  match n.kind with
  | .leftJoin => left.pairing right (keys.map (·.1)) (keys.map (·.2)) .left nullsMatch
  | .outerJoin => left.pairing right (keys.map (·.1)) (keys.map (·.2)) .outer nullsMatch
  | .rightJoin =>
    (right.pairing left (keys.map (·.2)) (keys.map (·.1)) .left nullsMatch).map
      (·.map Prod.swap)
  | _ => left.pairing right (keys.map (·.1)) (keys.map (·.2)) .inner nullsMatch

section

variable {n left right : Node} {l r s : Schema} {config : Config} {clock : Clock}
    {catalog : Catalog}
  {lb rb : Batch}

theorem execute_eq_ok {b : Batch} (h : n.Built) :
    execute config clock n catalog = .ok b
      ↔ ∃ p, planOf clock n = .ok p ∧ p.execute catalog = .ok b := by
  rw [execute_eq h]
  exact bind_eq_ok

theorem execute_join (h : n.Joins left right l r s) {k : NodeKind} (kind : JoinKind)
    (hresolve : rules.resolve n.kind = .ok (k, joinRule kind))
    (hkind : kind ≠ .semi ∧ kind ≠ .anti)
    (hleft : execute config clock left catalog = .ok lb)
    (hright : execute config clock right catalog = .ok rb) :
    execute config clock n catalog = (keysOf clock n >>= fun keys =>
      lb.pairing rb (keys.map (·.1))
        (keys.map (·.2)) kind catalog.config.nullJoinKeysMatch).map
        (lb.paired rb) := by
  obtain ⟨lp, hlp, hlb⟩ := (execute_eq_ok h.left_built).1 hleft
  obtain ⟨rp, hrp, hrb⟩ := (execute_eq_ok h.right_built).1 hright
  rw [execute_eq h.built, planOf_join h.built clock h.left_eq h.right_eq hresolve, hlp, hrp]
  cases keysOf clock n with
  | error e => rfl
  | ok keys =>
      show Plan.execute catalog (.join lp rp _ _ kind Rules.rightMark) = _
      rw [Plan.execute, hlb, hrb]
      exact Batch.join_eq lb rb _ _ kind _ hkind

/-- A right join is selected from the swapped left join. -/
theorem execute_swapped (h : n.Joins left right l r s) (hkind : n.kind = .rightJoin)
    (hleft : execute config clock left catalog = .ok lb)
    (hright : execute config clock right catalog = .ok rb) :
    execute config clock n catalog = (do
      let keys ← keysOf clock n
      let pairs ← rb.pairing lb (keys.map (·.2))
        (keys.map (·.1)) .left catalog.config.nullJoinKeysMatch
      (rb.paired lb pairs).select (rightJoinLayout l r)) := by
  obtain ⟨lp, hlp, hlb⟩ := (execute_eq_ok h.left_built).1 hleft
  obtain ⟨rp, hrp, hrb⟩ := (execute_eq_ok h.right_built).1 hright
  rw [execute_eq h.built,
    planOf_rightJoin h.built clock h.left_eq h.right_eq hkind h.leftSchema h.rightSchema,
    hlp, hrp]
  cases keysOf clock n with
  | error e => rfl
  | ok keys =>
      show Plan.execute catalog (.select (.join rp lp _ _ .left Rules.rightMark) _) = _
      rw [Plan.execute, Plan.execute, hlb, hrb]
      show rb.join lb _ _ .left Rules.rightMark catalog.config.nullJoinKeysMatch >>= _ = _
      rw [Batch.join_eq rb lb _ _ .left _ ⟨nofun, nofun⟩, map_bind]
      rfl

/-- A join that succeeds has executed both sides. -/
theorem execute_sides (h : n.Joins left right l r s) {b : Batch}
    (hb : execute config clock n catalog = .ok b) :
    ∃ lb rb, execute config clock left catalog = .ok lb
      ∧ execute config clock right catalog = .ok rb := by
  obtain ⟨p, hp, hb⟩ := (execute_eq_ok h.built).1 hb
  have hplain : ∀ {k : NodeKind} {kind : JoinKind},
      rules.resolve n.kind = .ok (k, joinRule kind) →
      ∃ lb rb, execute config clock left catalog = .ok lb
        ∧ execute config clock right catalog = .ok rb := by
    intro k kind hresolve
    rw [planOf_join h.built clock h.left_eq h.right_eq hresolve] at hp
    obtain ⟨lp, hlp, hp⟩ := bind_eq_ok.1 hp
    obtain ⟨rp, hrp, hp⟩ := bind_eq_ok.1 hp
    obtain ⟨keys, -, hp⟩ := bind_eq_ok.1 hp
    cases hp
    obtain ⟨lb, hlb, hb⟩ := bind_eq_ok.1 hb
    obtain ⟨rb, hrb, hb⟩ := bind_eq_ok.1 hb
    exact ⟨lb, rb, (execute_eq_ok h.left_built).2 ⟨lp, hlp, hlb⟩,
      (execute_eq_ok h.right_built).2 ⟨rp, hrp, hrb⟩⟩
  rcases NodeKind.mem_wideJoins.1 h.kind with hkind | hkind | hkind | hkind
  · exact hplain (k := .innerJoin) (resolve_of_kind hkind rfl)
  · exact hplain (k := .leftJoin) (resolve_of_kind hkind rfl)
  · rw [planOf_rightJoin h.built clock h.left_eq h.right_eq hkind h.leftSchema
      h.rightSchema] at hp
    obtain ⟨lp, hlp, hp⟩ := bind_eq_ok.1 hp
    obtain ⟨rp, hrp, hp⟩ := bind_eq_ok.1 hp
    obtain ⟨keys, -, hp⟩ := bind_eq_ok.1 hp
    cases hp
    obtain ⟨swapped, hb, -⟩ := bind_eq_ok.1 hb
    obtain ⟨rb, hrb, hb⟩ := bind_eq_ok.1 hb
    obtain ⟨lb, hlb, hb⟩ := bind_eq_ok.1 hb
    exact ⟨lb, rb, (execute_eq_ok h.left_built).2 ⟨lp, hlp, hlb⟩,
      (execute_eq_ok h.right_built).2 ⟨rp, hrp, hrb⟩⟩
  · exact hplain (k := .outerJoin) (resolve_of_kind hkind rfl)

/-- The batch of a join has the columns of both sides, at the pairs of rows that the join
makes. -/
theorem execute_wideJoin (h : n.Joins left right l r s)
    (hleft : execute config clock left catalog = .ok lb)
    (hright : execute config clock right catalog = .ok rb) (hl : lb.names = l.names)
    (hr : rb.names = r.names)
    (hclash : n.kind = .rightJoin → ¬ Rules.Clash l.names r.names) :
    execute config clock n catalog
      = (rowPairs clock catalog.config.nullJoinKeysMatch n lb rb).map (lb.paired rb) := by
  rcases NodeKind.mem_wideJoins.1 h.kind with hkind | hkind | hkind | hkind
  · rw [execute_join h .inner (resolve_of_kind hkind rfl) ⟨nofun, nofun⟩ hleft hright,
      rowPairs, hkind]
  · rw [execute_join h .left (resolve_of_kind hkind rfl) ⟨nofun, nofun⟩ hleft hright,
      rowPairs, hkind]
  · rw [execute_swapped h hkind hleft hright, rowPairs, hkind]
    cases keysOf clock n with
    | error e => rfl
    | ok keys =>
        show rb.pairing lb (keys.map (·.2)) (keys.map (·.1)) .left _ >>= _
          = ((rb.pairing lb (keys.map (·.2)) (keys.map (·.1)) .left _).map _).map _
        cases rb.pairing lb (keys.map (·.2))
          (keys.map (·.1)) .left catalog.config.nullJoinKeysMatch with
        | error e => rfl
        | ok pairs =>
            exact Batch.select_rightJoinLayout hl hr h.left_nodup
              h.right_nodup (hclash hkind)
              h.not_clash_swapped pairs
  · rw [execute_join h .outer (resolve_of_kind hkind rfl) ⟨nofun, nofun⟩ hleft hright,
      rowPairs, hkind]

/-- Whatever becomes of a join, its names are those that the left side decides on. -/
theorem names_wideJoin (h : n.Joins left right l r s)
    (hleft : execute config clock left catalog = .ok lb)
    (hright : execute config clock right catalog = .ok rb) (hl : lb.names = l.names)
    (hr : rb.names = r.names) {b : Batch} (hb : execute config clock n catalog = .ok b) :
    b.names = Rules.markedNames l.names r.names ∧ (n.kind = .rightJoin → b.names.Nodup) := by
  by_cases hkind : n.kind = .rightJoin
  · rw [execute_swapped h hkind hleft hright] at hb
    obtain ⟨keys, -, hb⟩ := bind_eq_ok.1 hb
    obtain ⟨pairs, -, hb⟩ := bind_eq_ok.1 hb
    obtain ⟨hnames, hnodup⟩ := Batch.select_eq_ok hb
    exact ⟨hnames.trans (Batch.outputName_rightJoinLayout l r), fun _ => hnodup⟩
  · rw [execute_wideJoin h hleft hright hl hr fun hright => absurd hright hkind] at hb
    obtain ⟨pairs, -, rfl⟩ := map_eq_ok.1 hb
    rw [Batch.names_paired, hl, hr]
    exact ⟨rfl, fun hright => absurd hright hkind⟩

end

end TypedQuery.Engine
