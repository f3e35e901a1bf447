import TypedQuery.Proofs.Memoization
import TypedQuery.Proofs.Node.Calls
import TypedQuery.Proofs.Sql.Written

/-!
# Scopes of a statement

Writing a table opens a scope. However that ends, the scopes around are then what they
were. In the text that results, every label is introduced once, and is referred to only
from the `SELECT` that introduces it.
-/

namespace TypedQuery

namespace Sql

open Emission

/-! ## The scopes around -/

/-- However the step ends, all scopes but the innermost one are what they were. -/
def KeepsOuter {α : Type} (step : Writing α) : Prop :=
  ∀ s : Session Statement String, (step.run s).2.target.outer = s.target.outer

/-- The scope around a subquery that kept what is around it is the one that was there
before. -/
theorem Statement.closeScope_eq {s t : Statement} (h : t.outer = s.scope :: s.outer) :
    t.closeScope = .ok (t.scope, { t with scope := s.scope, outer := s.outer }) := by
  rw [closeScope, h]

namespace KeepsOuter

variable {α β : Type}

theorem pure (a : α) : KeepsOuter (Pure.pure a : Writing α) := fun _ => rfl

theorem throw (e : Error) : KeepsOuter (MonadExcept.throw e : Writing α) := fun _ => rfl

theorem lift (x : Except Error α) : KeepsOuter (liftM x : Writing α) := fun _ => rfl

theorem target : KeepsOuter (Emission.target : Writing Statement) := fun _ => rfl

theorem bind {step : Writing α} {next : α → Writing β} (h : KeepsOuter step)
    (hnext : ∀ a, KeepsOuter (next a)) :
    KeepsOuter (step >>= next) := by
  intro s
  have hs := h s
  rw [run_bind]
  generalize step.run s = run at hs
  obtain ⟨result | a, after⟩ := run
  · exact hs
  · exact (hnext a after).trans hs

theorem lift_bind {x : Except Error α} {next : α → Writing β}
    (h : ∀ a, x = .ok a → KeepsOuter (next a)) :
    KeepsOuter ((liftM x : Writing α) >>= next) := by
  cases x with
  | error e => exact .throw e
  | ok a => exact h a rfl

theorem update {f : Statement → Statement} (h : ∀ s, (f s).outer = s.outer) :
    KeepsOuter (update f) := fun s => h s.target

theorem bindTable (table : Node) : KeepsOuter (change fun s => s.bind table) := by
  intro s
  rw [change, run_target_bind]
  cases h : s.target.bind table with
  | error e => rfl
  | ok found =>
      obtain ⟨label, t⟩ := found
      obtain ⟨-, -, rfl⟩ := Statement.bind_eq_ok h
      rfl

theorem of_consults {looks : Prop} {S : Node → Prop}
    {step : (Node → Writing String) → Writing α} (h : Consults looks S step)
    {emit : Node → Writing String} (hemit : ∀ m, S m → KeepsOuter (emit m)) :
    KeepsOuter (step emit) := by
  induction h with
  | pure a => exact .pure a
  | throw e => exact .throw e
  | ask h => exact hemit _ h
  | look _ => exact .target
  | bind _ _ ih ihNext => exact .bind ih ihNext

/-- The scope that is opened for a subquery is closed even if the subquery fails. -/
theorem fromItem {emit : Node → Writing String} {table : Node}
    (h : KeepsOuter (emit table)) :
    KeepsOuter (fromItem emit table) := by
  unfold Sql.fromItem
  split
  · exact .lift_bind fun _ _ => .bind .target fun _ =>
      .bind (bindTable table) fun _ => .pure _
  · intro s
    have hopen : (Sql.update Statement.openScope).run s
      = (.ok (), { s with target := s.target.openScope }) := rfl
    rw [run_bind, hopen]
    simp only []
    rw [run_bind, run_attempt_isolated]
    have houter := h ⟨s.target.openScope, s.memo.map fun _ => []⟩
    generalize (emit table).run ⟨s.target.openScope, s.memo.map fun _ => []⟩ = run at houter
    obtain ⟨result, inner⟩ := run
    simp only []
    rw [run_bind, change, run_target_bind, Statement.closeScope_eq houter]
    refine lift_bind (fun text _ => .bind (bindTable table) fun label => ?_) _
    split
    · exact .bind (.update fun _ => rfl) fun _ => .pure _
    · exact .pure _

end KeepsOuter

/-! ## The rules for tables -/

section

variable {n : Node} {emit : Node → Writing String} (h : n.Built)
    (hemit : ∀ m : Node, m.Built → KeepsOuter (emit m))

include h hemit

theorem keepsOuter_item {name : String} {table : Node} (htable : n.child name = .ok table) :
    KeepsOuter (fromItem emit table) :=
  .fromItem (hemit table (h.of_mem_children (h.mem_children_of_child htable)))

omit h in
theorem keepsOuter_values {α : Type} {step : (Node → Writing String) → Writing α}
    (hstep : Consults True (Below n) step) :
    KeepsOuter (step emit) :=
  .of_consults hstep fun m hm => hemit m hm.1.1

theorem selectionRule_keepsOuter (hk : n.kind = .selection) :
    KeepsOuter (selectionRule emit n) := by
  have hselections : n.kind.validator? "selections"
    = some (.tupleOf (.either .table .value)) := by rw [hk]; rfl
  have hpredicates : n.kind.validator? "predicates"
    = some (.tupleOf Catalogue.condition) := by rw [hk]; rfl
  have hkeys : n.kind.validator? "sort_keys" = some (.tupleOf .sortKey) := by rw [hk]; rfl
  refine .lift_bind fun table htable => .bind (keepsOuter_item h hemit htable) fun item => ?_
  refine .lift_bind fun selected hselected => ?_
  have hbelow := selections_below h hselections hselected
  refine .bind (keepsOuter_values hemit (selectionItems_consults hbelow)) fun items => ?_
  refine .bind (keepsOuter_values hemit (sequence_below h hpredicates rfl)) fun filters => ?_
  refine .bind (keepsOuter_values hemit
    (.lift_bind fun _ hms => .each (sortKeys_below h hkeys hms))) fun orderBy => ?_
  split
  · exact .pure _
  · exact .bind (.update fun _ => rfl) fun _ => .pure _

theorem aggregationRule_keepsOuter (hk : n.kind = .aggregation) :
    KeepsOuter (aggregationRule emit n) := by
  have hkeys : n.kind.validator? "by" = some (.tupleOf .value) := by rw [hk]; rfl
  have hmetrics : n.kind.validator? "metrics"
    = some (.tupleOf .scalarValue) := by rw [hk]; rfl
  have hpredicates : n.kind.validator? "predicates"
    = some (.tupleOf Catalogue.condition) := by rw [hk]; rfl
  refine .lift_bind fun table htable => .bind (keepsOuter_item h hemit htable) fun item => ?_
  refine .lift_bind fun keys hby => ?_
  refine .bind (keepsOuter_values hemit
    (valueItems_consults (childList_below h hkeys rfl hby))) fun keyItems => ?_
  refine .lift_bind fun metrics hms => ?_
  refine .bind (keepsOuter_values hemit
    (valueItems_consults (childList_below h hmetrics rfl hms))) fun metricItems => ?_
  exact .bind (keepsOuter_values hemit (sequence_below h hpredicates rfl))
    fun filters => .pure _

theorem limitRule_keepsOuter : KeepsOuter (limitRule emit n) :=
  .lift_bind fun _ htable => .bind (keepsOuter_item h hemit htable) fun _ =>
    .lift_bind fun _ _ => .lift_bind fun _ _ =>
    .pure _

theorem distinctRule_keepsOuter : KeepsOuter (distinctRule emit n) :=
  .lift_bind fun _ htable => .bind (keepsOuter_item h hemit htable) fun _ => .pure _

theorem dropNullsRule_keepsOuter (hk : n.kind = .dropNa) :
    KeepsOuter (dropNullsRule emit n) := by
  have hsubset : n.kind.validator? "subset"
    = some (.optional (.tupleOf .value)) := by rw [hk]; rfl
  refine .lift_bind fun table htable => .bind (keepsOuter_item h hemit htable) fun item =>
    .bind .target fun s => ?_
  simp only []
  split
  · refine .bind (keepsOuter_values hemit (sequence_below h hsubset rfl)) fun subset => ?_
    split
    · exact .pure _
    · exact .lift_bind fun _ _ => .pure _
  · refine .lift_bind fun schema _ => .bind (.pure _) fun subset => ?_
    split
    · exact .pure _
    · exact .lift_bind fun _ _ => .pure _

theorem fillNullsRule_keepsOuter (hk : n.kind = .fillNa) :
    KeepsOuter (fillNullsRule emit n) := by
  have hreplacements : n.kind.validator? "replacements"
      = some (.either (.mapOf .scalarValue) .scalarValue) := by
    rw [hk]; rfl
  refine .lift_bind fun table htable => .lift_bind fun schema _ =>
    .lift_bind fun replacements hfield => ?_
  have hbelow : replacements.AllNodes (Below n) := fun m hm =>
    below_of_child h (h.mem_children_of_get? (Node.field_eq_ok hfield) hm)
      (Or.inl (h.isValue_of_get? hreplacements rfl (Node.field_eq_ok hfield) m hm))
  simp only []
  split
  · exact .throw _
  · refine .bind (keepsOuter_item h hemit htable) fun item => ?_
    exact .bind (keepsOuter_values hemit (filledItems_consults hbelow _ _))
      fun items => .pure _

theorem joinRule_keepsOuter (kind : NodeKind) (keyword : String)
    (hpredicates : n.kind.validator? "predicates" = some (.tupleOf Catalogue.condition)) :
    KeepsOuter (joinRule kind keyword emit n) := by
  refine .lift_bind fun left hleft => .lift_bind fun right hright => ?_
  refine .bind (keepsOuter_item h hemit hleft) fun leftItem =>
    .bind (keepsOuter_item h hemit hright) fun rightItem => ?_
  refine .bind (keepsOuter_values hemit (sequence_below h hpredicates rfl))
    fun predicates => ?_
  simp only []
  split
  · exact .pure _
  · refine .lift_bind fun _ _ => .lift_bind fun _ _ => .bind .target fun s => ?_
    exact .bind (.update fun _ => rfl) fun _ => .pure _

theorem tableRules_keepOuter {rule : SqlRule} (hrule : (n.kind, rule) ∈ tableRules)
    (hk : n.kind ≠ .sortKey) :
    KeepsOuter (rule emit n) := by
  simp only [tableRules, List.mem_cons, Prod.mk.injEq, List.not_mem_nil, or_false] at hrule
  rcases hrule with ⟨-, rfl⟩ | ⟨-, rfl⟩ | ⟨hk', -⟩ | ⟨hk, rfl⟩ | ⟨hk, rfl⟩ | ⟨-, rfl⟩
    | ⟨-, rfl⟩ | ⟨hk, rfl⟩ | ⟨hk, rfl⟩ | ⟨hk, rfl⟩ | ⟨hk, rfl⟩ | ⟨hk, rfl⟩ | ⟨hk, rfl⟩
    | ⟨hk, rfl⟩ | ⟨hk, rfl⟩
  · exact .bind .target fun _ => .lift_bind fun _ _ => .pure _
  · exact .bind .target fun _ => .lift _
  · exact absurd hk' hk
  · exact selectionRule_keepsOuter h hemit hk
  · exact aggregationRule_keepsOuter h hemit hk
  · exact limitRule_keepsOuter h hemit
  · exact distinctRule_keepsOuter h hemit
  · exact dropNullsRule_keepsOuter h hemit hk
  · exact fillNullsRule_keepsOuter h hemit hk
  all_goals exact joinRule_keepsOuter h hemit _ _ (by rw [hk]; rfl)

end

/-- Whatever is written, and whether that succeeds or fails, the scopes around are there
again. -/
theorem emitWithin_keepsOuter {n : Node} (hn : n.Built) (depth : Nat) :
    KeepsOuter (rules.emitWithin depth n) := by
  induction depth generalizing n with
  | zero => exact .throw _
  | succ depth ih =>
      have hrule : ∀ k rule, rules.resolve n.kind = .ok (k, rule) →
          KeepsOuter (rule (rules.emitWithin depth) n) := by
        intro k rule hresolve
        obtain ⟨hlineage, hmem | ⟨hmem, hne⟩ | heq⟩ := mem_of_resolve hresolve
        · exact .of_consults (plainRules_read _ hmem n hn) fun m hm =>
            ih (hn.of_mem_children hm)
        · obtain rfl := eq_of_mem_tableRules hlineage hmem
          exact tableRules_keepOuter hn (fun _ => ih) hmem hne
        · cases heq
          exact .throw _
      have hknown : KeepsOuter (known? n : Writing (Option String)) := fun _ => rfl
      refine .bind hknown fun found => ?_
      cases found with
      | some text => exact .pure text
      | none =>
          refine .lift_bind fun found hresolve =>
            .bind (hrule found.1 found.2 hresolve) fun text => ?_
          exact .bind (fun _ => rfl : KeepsOuter (remember n text)) fun _ => .pure text

/-! ## Labels -/

theorem Query.Written.wellScoped {q : Query} (h : q.Written) : q.WellScoped := by
  induction h with
  | stored _ _ => trivial
  | rows _ _ _ hlabels => exact hlabels
  | whole _ _ _ hlabels _ ih => exact ⟨hlabels, ih⟩
  | filled _ _ _ _ hlabels _ ih => exact ⟨hlabels, ih⟩
  | named _ _ hlabels _ ih => exact ⟨hlabels, ih⟩
  | joined _ _ _ _ _ _ _ hentries hlabels hplain _ _ ihLeft ihRight =>
      refine ⟨List.forall_mem_append.2
        ⟨Clauses.forall_labels ?_ (by simp [hplain.1]) (by simp [hplain.2]), hlabels⟩,
        ihLeft, ihRight⟩
      rw [hentries]
      simp [Entry.labels, or_imp, forall_and]
  | semi _ _ _ _ hentries hlabels hplain _ _ ihLeft ihRight =>
      refine ⟨List.forall_mem_append.2
        ⟨Clauses.forall_labels ?_ (by simp [hplain.1]) (by simp [hplain.2]), hlabels⟩,
        ihLeft, ihRight⟩
      rw [hentries]
      simp [Entry.labels]

/-- The statement of a table is the text of a query, whose labels are numbered from zero. -/
theorem compile_writes {n : Node} (hn : n.Built) (htable : n.kind.isTable = true)
    {config : Config} {text : String} (h : compile config n = .ok text) :
    ∃ q s, Writes { config := config.sql } n text s q := by
  have hplain := (compile_memoizing_false hn config).trans h
  rcases hrun : (rules.emitWithin n.depth n).run ⟨{ config := config.sql }, none⟩
    with ⟨result, after⟩
  cases (congrArg Prod.fst hrun).symm.trans hplain
  obtain ⟨q, hq⟩ := emitWithin_writes hn htable rfl hrun
  exact ⟨q, after.target, hq⟩

end Sql

/-- The statement of a table is written from a query. It introduces every label once,
numbered from zero, and refers to it from the `SELECT` that introduces it only. Writing any
node from any point of a statement on restores the scopes around, also when it fails. -/
theorem scoping {n : Node} (h : n.Built) :
    (n.kind.isTable = true → ∀ config text, Sql.compile config n = .ok text →
      ∃ q : Sql.Query, q.table = n
        ∧ q.Written ∧ q.text config.sql.identifierQuote = text
        ∧ q.labels = Sql.Statement.labelsFrom 0 q.labels.length
        ∧ q.labels.Nodup ∧ q.WellScoped)
      ∧ ∀ depth s,
        ((Sql.rules.emitWithin depth n).run s).2.target.outer = s.target.outer := by
  refine ⟨fun htable config text htext => ?_,
    fun depth s => Sql.emitWithin_keepsOuter h depth s⟩
  obtain ⟨q, s, hq⟩ := Sql.compile_writes h htable htext
  refine ⟨q, hq.table, hq.written, hq.text, hq.labels, ?_, hq.written.wellScoped⟩
  rw [hq.labels]
  exact Sql.Statement.nodup_labelsFrom _ _

/-- A column of a join, one side of which is a subquery: the subquery has a
label of its own within. -/
theorem scoping_nested :
    ∃ left right rows join column n : Node,
      Node.databaseTable "l" ⟨[⟨"a", .int64, true⟩]⟩ = .ok left
        ∧ Node.databaseTable "r" ⟨[⟨"a", .int64, true⟩, ⟨"b", .int64, true⟩]⟩ = .ok right
        ∧ Node.build .distinct [.node right] [] = .ok rows
        ∧ Node.joinOn .innerJoin left rows "a" "a" = .ok join
        ∧ Node.column right "b" = .ok column
        ∧ Node.selectAs join column "x" = .ok n ∧ n.Built ∧ n.kind.isTable = true
        ∧ (∃ text, Sql.compile {} n = .ok text
          ∧ text = "SELECT t3.`b` AS `x` FROM (SELECT t0.`a`, t2.`a` AS `a_right`, t2.`b` "
            ++ "FROM `l` t0 INNER JOIN (SELECT DISTINCT t1.* FROM `r` t1) t2 "
            ++ "ON (t0.`a` = t2.`a`)) t3"
          ∧ ∃ q : Sql.Query, q.table = n ∧ q.Written ∧ q.text '\x60' = text
            ∧ q.labels = Sql.Statement.labelsFrom 0 q.labels.length
            ∧ q.labels.Nodup ∧ q.WellScoped)
        ∧ ((Sql.rules.emit n).run
          (Session.start { config := {}, outer := [[]] } true)).2.target.outer = [[]] := by
  obtain ⟨left, right, rows, join, column, n, hleft, hright, hrows, hjoin, hcolumn, hn,
    htable, htext⟩ :
      ∃ left right rows join column n : Node,
        Node.databaseTable "l" ⟨[⟨"a", .int64, true⟩]⟩ = .ok left
          ∧ Node.databaseTable "r" ⟨[⟨"a", .int64, true⟩, ⟨"b", .int64, true⟩]⟩ = .ok right
          ∧ Node.build .distinct [.node right] [] = .ok rows
          ∧ Node.joinOn .innerJoin left rows "a" "a" = .ok join
          ∧ Node.column right "b" = .ok column
          ∧ Node.selectAs join column "x" = .ok n ∧ n.kind.isTable = true
          ∧ Sql.compile {} n
            = .ok ("SELECT t3.`b` AS `x` FROM (SELECT t0.`a`, t2.`a` AS `a_right`, t2.`b` "
            ++ "FROM `l` t0 INNER JOIN (SELECT DISTINCT t1.* FROM `r` t1) t2 "
            ++ "ON (t0.`a` = t2.`a`)) t3") := by
    refine ⟨_, _, _, _, _, _, rfl, rfl, rfl, rfl, rfl, rfl, by decide, ?_⟩
    decide +kernel
  have bright := Node.built_databaseTable hright
  have brows : rows.Built :=
    .of_build hrows (by simpa [Arg.nodes, Arg.nodesOfItems] using bright)
      (by simp [Arg.nodesOfFields])
  have bjoin : join.Built := Node.built_joinOn (Node.built_databaseTable hleft) brows hjoin
  have bn : n.Built := Node.built_selectAs bjoin (Node.built_column bright hcolumn) hn
  obtain ⟨hscoped, houter⟩ := scoping bn
  obtain ⟨q, hq⟩ := hscoped htable {} _ htext
  exact ⟨left, right, rows, join, column, n, hleft, hright, hrows, hjoin,
    hcolumn, hn, bn, htable, ⟨_, htext, rfl, q, hq⟩,
    houter n.depth (Session.start { config := {}, outer := [[]] } true)⟩

end TypedQuery
