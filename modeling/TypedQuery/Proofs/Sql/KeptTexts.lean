import TypedQuery.Proofs.Emission.Memo
import TypedQuery.Proofs.Emission.Run
import TypedQuery.Proofs.Node.Equality
import TypedQuery.Sql.Compile

/-!
# Texts with and without kept outputs

The walk over the rules of SQL gives the same whether it keeps texts or not, from
any statement on. A text that it reuses is the one that would be written anew at
that point of the statement: a walk that rechecks every text before it is reused
never fails for that reason.

The rules for values, and that for a key to sort by, ask for the texts of nodes in the
fields and look at the statement. None of them changes the statement, which is why the text
of a value may be kept as long as the statement stays as it is.

The rule for a table first puts the tables that it is made of into the `FROM` clause, each
in isolation, and only then asks for texts of values. So as long as the statement changes,
no output is kept; while outputs are kept, it stays as it is; and what happens to it
afterwards does not matter, because the outputs are forgotten with the table.
-/

namespace TypedQuery.Sql

/-- The rule only consults nodes in the fields, and looks at the statement only if `looks`.
-/
def Reads (looks : Prop) (rule : SqlRule) : Prop :=
  ∀ n : Node, n.Built → Consults looks (· ∈ n.children) fun emit => rule emit n

/-- Columns are qualified as the statement tells, and positions are counted as it tells. -/
def Looks (kind : NodeKind) : Prop :=
  kind ∈ [.tableColumn, .substring, .stringFind, .findInSet]

instance : DecidablePred Looks := fun kind =>
  inferInstanceAs (Decidable
    (kind ∈ [NodeKind.tableColumn, .substring, .stringFind, .findInSet]))

variable {looks : Prop} {n : Node}

/-! ## The shapes of rules -/

theorem fieldTexts_consults (h : n.Built) (fields : List String) :
    Consults looks (· ∈ n.children) fun emit => fieldTexts emit n fields := by
  induction fields with
  | nil => exact .pure []
  | cons name rest ih =>
      exact .bind (h.field name) fun text => .bind ih fun texts => .pure (text :: texts)

theorem callOf_reads (name : String) (fields : List String) :
    Reads looks (callOf name fields) :=
  fun _ h => .bind (fieldTexts_consults h fields) fun _ => .pure _

theorem callOfAll_reads (name field : String) : Reads looks (callOfAll name field) :=
  fun _ h => .bind (h.sequence field) fun _ => .pure _

theorem operator_reads (symbol : String) : Reads looks (operator symbol) :=
  fun _ h => .bind (h.field "left") fun _ => .bind (h.field "right") fun _ => .pure _

theorem around_reads (before field after : String) :
    Reads looks (around before field after) :=
  fun _ h => .bind (h.field field) fun _ => .pure _

/-! ## Constants, columns and conditions -/

theorem literalRule_reads : Reads looks literalRule := by
  intro n _
  unfold literalRule
  split
  · exact .lift _
  · exact .throw _

/-- A column asks for nothing: its table is only looked up. -/
theorem columnRule_consults (h : looks) (S : Node → Prop) (n : Node) :
    Consults looks S fun emit => columnRule emit n := by
  refine .bind (.look h) fun s => ?_
  refine .bind (.lift _) fun table => ?_
  exact .bind (.lift _) fun name => .lift _

theorem castRule_reads : Reads looks castRule := by
  intro n h
  refine .bind (.lift _) fun target => ?_
  cases target.type? with
  | none => exact .throw _
  | some t => exact .bind (h.field "arg") fun arg => .bind (.lift _) fun name => .pure _

theorem caseText_consults (h : n.Built) (subject : String) :
    Consults looks (· ∈ n.children) fun emit => caseText emit n subject := by
  refine .bind (h.sequence "cases") fun cases => ?_
  refine .bind (h.sequence "results") fun results => ?_
  exact .bind (h.field "default") fun default => .pure _

theorem simpleCaseRule_reads : Reads looks simpleCaseRule :=
  fun _ h => .bind (h.field "base") fun base => caseText_consults h (" " ++ base)

theorem betweenRule_reads : Reads looks betweenRule := by
  intro n h
  refine .bind (h.field "arg") fun arg => ?_
  refine .bind (h.field "lower_bound") fun lower => ?_
  exact .bind (h.field "upper_bound") fun upper => .pure _

theorem membershipRule_reads (keyword : String) : Reads looks (membershipRule keyword) :=
  fun _ h => .bind (h.field "value") fun _ => .bind (h.sequence "options") fun _ => .pure _

theorem genericRules_read : ∀ x ∈ genericRules, Reads (Looks x.1) x.2 := by
  simp only [genericRules, List.forall_mem_cons]
  refine ⟨literalRule_reads, fun n _ => columnRule_consults (by decide) _ n,
    fun n h => h.field "arg", castRule_reads, callOf_reads _ _, callOf_reads _ _,
    callOf_reads _ _, simpleCaseRule_reads, fun n h => caseText_consults h "",
    betweenRule_reads, membershipRule_reads _, membershipRule_reads _, ?_⟩
  intro x hx
  cases hx

/-! ## Operators -/

theorem floorDivideRule_reads : Reads looks floorDivideRule :=
  fun _ h => .bind (h.field "left") fun _ => .bind (h.field "right") fun _ => .pure _

theorem xorRule_reads : Reads looks xorRule :=
  fun _ h => .bind (h.field "left") fun _ => .bind (h.field "right") fun _ => .pure _

theorem roundRule_reads : Reads looks roundRule :=
  fun _ h => .bind (h.field "arg") fun _ => .bind (h.field? "digits") fun _ => .pure _

theorem clipRule_reads : Reads looks clipRule := by
  intro n h
  refine .bind (h.field "arg") fun arg => ?_
  refine .bind (h.field? "lower") fun lower => ?_
  refine .bind (h.field? "upper") fun upper => ?_
  exact .ite (fun _ => .throw _) fun _ => .pure _

theorem logRule_reads : Reads looks logRule := by
  intro n h
  refine .bind (h.field "arg") fun arg => ?_
  refine .bind (h.field? "base") fun base => ?_
  cases base <;> exact .pure _

theorem operatorRules_read : ∀ x ∈ operatorRules, Reads (Looks x.1) x.2 := by
  intro x hx
  simp only [operatorRules, List.mem_append, List.mem_map, List.mem_cons, List.not_mem_nil,
    or_false] at hx
  rcases hx with (((⟨y, -, rfl⟩ | ⟨y, -, rfl⟩) | ⟨y, -, rfl⟩) | ⟨y, -, rfl⟩) | hx
  · exact operator_reads _
  · exact callOf_reads _ _
  · exact callOf_reads _ _
  · exact callOfAll_reads _ _
  · rcases hx with rfl | rfl | rfl | rfl | rfl | rfl | rfl | rfl | rfl | rfl | rfl | rfl
    · exact floorDivideRule_reads
    · exact xorRule_reads
    · exact around_reads _ _ _
    · exact around_reads _ _ _
    · exact around_reads _ _ _
    · exact around_reads _ _ _
    · exact around_reads _ _ _
    · exact around_reads _ _ _
    · exact callOfAll_reads _ _
    · exact roundRule_reads
    · exact clipRule_reads
    · exact logRule_reads

/-! ## Reductions -/

theorem filteredArg_consults (h : n.Built) :
    Consults looks (· ∈ n.children) fun emit => filteredArg emit n := by
  refine .bind (h.field "arg") fun arg => ?_
  refine .bind (h.field? "where") fun condition => ?_
  cases condition <;> exact .pure _

theorem reductionRule_reads (name : String) : Reads looks (reductionRule name) :=
  fun _ h => .bind (filteredArg_consults h) fun _ => .pure _

theorem countDistinctRule_reads : Reads looks countDistinctRule :=
  fun _ h => .bind (filteredArg_consults h) fun _ => .pure _

/-- A count of rows asks for its condition only, never for the table. -/
theorem countRowsRule_consults {S : Node → Prop} (h : ∀ m, n.child? "where" = some m → S m) :
    Consults looks S fun emit => countRowsRule emit n := by
  have hwhere : Consults looks S fun emit : Node → Writing String =>
      Emission.field? emit n "where" := by
    unfold Emission.field?
    cases hm : n.child? "where" with
    | none => exact .pure none
    | some m => exact .bind (.ask (h m hm)) fun o => .pure (some o)
  refine .bind hwhere fun condition => ?_
  cases condition <;> exact .pure _

theorem deviationRule_reads (name : String) : Reads looks (deviationRule name) :=
  fun _ h => .bind (.lift _) fun _ => .bind (filteredArg_consults h) fun _ => .pure _

theorem reductionRules_read : ∀ x ∈ reductionRules, Reads (Looks x.1) x.2 := by
  simp only [reductionRules, List.forall_mem_cons]
  refine ⟨reductionRule_reads _, reductionRule_reads _, reductionRule_reads _,
    reductionRule_reads _, reductionRule_reads _, reductionRule_reads _,
    reductionRule_reads _, countDistinctRule_reads,
    fun n h => countRowsRule_consults fun m hm => h.mem_children_of_child? hm,
    deviationRule_reads _, deviationRule_reads _, ?_⟩
  intro x hx
  cases hx

/-! ## Text -/

theorem substringRule_reads (hlooks : looks) : Reads looks substringRule := by
  intro n h
  refine .bind (.look hlooks) fun s => ?_
  refine .bind (h.field "arg") fun arg => ?_
  refine .bind (h.field "start") fun start => ?_
  exact .bind (h.field? "length") fun length => .pure _

theorem searchStart_consults (h : n.Built) (offset : Int) :
    Consults looks (· ∈ n.children) fun emit => searchStart emit n offset := by
  unfold searchStart
  split
  · exact .pure _
  · exact .pure _
  · exact .bind (h.field "start") fun start => .pure _

theorem findRule_reads (hlooks : looks) : Reads looks findRule := by
  intro n h
  refine .ite (fun _ => .throw _) fun _ => ?_
  refine .bind (.look hlooks) fun s => ?_
  refine .bind (h.field "arg") fun haystack => ?_
  refine .bind (h.field "substr") fun needle => ?_
  exact .bind (searchStart_consults h _) fun start => .pure _

theorem findInSetRule_reads (hlooks : looks) : Reads looks findInSetRule := by
  intro n h
  refine .bind (h.field "needle") fun needle => ?_
  refine .bind (.lift _) fun nodes => ?_
  refine .bind (.lift _) fun values => ?_
  exact .bind (.look hlooks) fun s => .pure _

theorem joinTextsRule_reads : Reads looks joinTextsRule :=
  fun _ h => .bind (h.field "sep") fun _ => .bind (h.sequence "arg") fun _ => .pure _

theorem likeRule_reads : Reads looks likeRule :=
  fun _ h => .bind (h.field "arg") fun _ => .bind (h.field "pattern") fun _ => .pure _

theorem startsWithRule_reads : Reads looks startsWithRule :=
  fun _ h => .bind (h.field "arg") fun _ => .bind (h.field "start") fun _ => .pure _

theorem endsWithRule_reads : Reads looks endsWithRule :=
  fun _ h => .bind (h.field "arg") fun _ => .bind (h.field "end") fun _ => .pure _

theorem containsTextRule_reads : Reads looks containsTextRule :=
  fun _ h => .bind (h.field "haystack") fun _ => .bind (h.field "needle") fun _ => .pure _

theorem parseUrlRule_reads : Reads looks parseUrlRule := by
  intro n h
  refine .bind (h.field "arg") fun arg => ?_
  refine .bind (.lift _) fun part => ?_
  exact .bind (h.field? "key") fun key => .pure _

theorem textRules_read : ∀ x ∈ textRules, Reads (Looks x.1) x.2 := by
  have hsubstring : Looks .substring := by decide
  have hfind : Looks .stringFind := by decide
  have hset : Looks .findInSet := by decide
  simp only [textRules, List.forall_mem_cons, callOf_reads, substringRule_reads hsubstring,
    findRule_reads hfind, findInSetRule_reads hset, joinTextsRule_reads, likeRule_reads,
    startsWithRule_reads, endsWithRule_reads, containsTextRule_reads, parseUrlRule_reads,
    List.not_mem_nil, false_imp_iff, implies_true, and_self]

/-! ## Time -/

theorem truncateRule_reads : Reads looks truncateRule := by
  intro n h
  refine .bind (.lift _) fun code => ?_
  refine .bind (.lift _) fun unit => ?_
  exact .bind (h.field "arg") fun arg => .pure _

theorem secondsBetweenRule_reads : Reads looks secondsBetweenRule :=
  fun _ h => .bind (h.field "left") fun _ => .bind (h.field "right") fun _ => .pure _

theorem fromUnixRule_reads : Reads looks fromUnixRule :=
  fun _ h => .bind (h.field "arg") fun _ => .bind (.lift _) fun _ => .pure _

theorem intervalRule_reads : Reads looks intervalRule := by
  intro n h
  refine .bind (.lift _) fun code => ?_
  cases IntervalUnit.ofCode? code with
  | none => exact .throw _
  | some unit => exact .bind (h.field "arg") fun arg => .pure _

theorem timeRules_read : ∀ x ∈ timeRules, Reads (Looks x.1) x.2 := by
  have hnow {looks : Prop} : Reads looks fun _ _ => return "now()" := fun _ _ => .pure _
  simp only [timeRules, sharing, extraction, List.map_cons, List.map_nil,
    List.forall_mem_append, List.forall_mem_cons, callOf_reads, operator_reads,
    around_reads, secondsBetweenRule_reads, truncateRule_reads, fromUnixRule_reads, hnow,
    intervalRule_reads, List.not_mem_nil, false_imp_iff, implies_true, and_self]

theorem sortKeyRule_reads : Reads looks sortKeyRule :=
  fun _ h => .bind (h.field "expr") fun _ => .bind (.lift _) fun _ => .pure _

/-! ## Tables -/

open Emission

/-- A value, or a key to sort by: a node whose text depends on the statement
but does not change it. -/
def Plain (n : Node) : Prop := n.Built ∧ (n.kind.isValue = true ∨ n.kind = .sortKey)

/-- The texts that may be kept while the statement is `s`. -/
abbrev RightText (s : Statement) : Node → String → Prop := rules.Right Plain s

abbrev Fresh : Session Statement String → Session Statement String → Prop := Session.Fresh

abbrev Steady : Session Statement String → Session Statement String → Prop :=
  Session.Steady RightText

abbrev SameTarget : Session Statement String → Session Statement String → Prop :=
  Session.SameTarget

/-- Two walks that are alike below a node. -/
structure Alike (n : Node) (emit emit' : Node → Writing String) : Prop where
  values : ∀ s m, Plain m ∧ m.depth < n.depth →
    Agrees (RightText s) s (emit m) (rules.answer s m)
  values' : ∀ s m, Plain m ∧ m.depth < n.depth →
    Agrees (RightText s) s (emit' m) (rules.answer s m)
  tables : ∀ m ∈ n.children, Matches Fresh SameTarget (emit m) (emit' m)

/-- Two walks that are alike below a node are alike at the node. -/
def Renders (kind : NodeKind) (rule : SqlRule) : Prop :=
  ∀ n : Node, n.Built → n.kind = kind → ∀ emit emit', Alike n emit emit' →
    Matches Fresh SameTarget (rule emit n) (rule emit' n)

theorem fresh_steady : ∀ s t, Fresh s t → Steady s t := fun _ _ h => h.steady RightText

theorem fresh_same : ∀ s t, Fresh s t → SameTarget s t := fun _ _ h => h.1

theorem steady_same : ∀ s t, Steady s t → SameTarget s t := fun _ _ h => h.1

theorem update_fresh (f : Statement → Statement) :
    Matches Fresh Fresh (update f) (update f) := by
  rintro ⟨s, memo⟩ ⟨s', memo'⟩ ⟨rfl, rfl, rfl⟩
  exact ⟨rfl, rfl, rfl, rfl⟩

theorem update_same (f : Statement → Statement) :
    Matches SameTarget SameTarget (update f) (update f) := by
  rintro ⟨s, memo⟩ ⟨s', memo'⟩ rfl
  exact ⟨rfl, rfl⟩

variable {n : Node} {emit emit' : Node → Writing String}

/-- The nodes whose texts the rule for a table asks for. -/
abbrev Below (n m : Node) : Prop := Plain m ∧ m.depth < n.depth

namespace Alike

variable (h : Alike n emit emit')

include h

theorem fromItem {table : Node} (htable : table ∈ n.children) :
    Matches Fresh Fresh (fromItem emit table) (fromItem emit' table) := by
  unfold Sql.fromItem
  split
  · refine .lift_bind (fun _ _ => id) fun name _ => ?_
    refine .target_bind (fun _ _ hst => hst.1) fun s => ?_
    exact .bind (.change _) (fun _ _ => id) fun label => .result _ fun _ _ => id
  · refine .bind (update_fresh _) (fun _ _ => id) fun _ => ?_
    refine .bind (.attempt_isolated (h.tables table htable)) (fun _ _ => id)
      fun subquery => ?_
    refine .bind (.change _) (fun _ _ => id) fun tables => ?_
    refine .lift_bind (fun _ _ => id) fun text _ => ?_
    refine .bind (.change _) (fun _ _ => id) fun label => ?_
    split
    · exact .bind (update_fresh _) (fun _ _ => id) fun _ => .result _ fun _ _ => id
    · exact .result _ fun _ _ => id

/-- Once the `FROM` clause is complete, the walks only consult. -/
theorem consults {α : Type} {step : (Node → Writing String) → Writing α}
    (hstep : Consults True (Below n) step) :
    Matches Steady Steady (step emit) (step emit') :=
  .of_consults hstep h.values h.values'

end Alike

/-! ## Values in tables -/

theorem selectItem_consults {m : Node} (hm : Below n m) :
    Consults True (Below n) fun emit => selectItem emit m := by
  refine .bind (.ask hm) fun text => ?_
  refine .bind (.lift _) fun name => ?_
  refine .bind (.look trivial) fun s => ?_
  refine .ite (fun _ => ?_) fun _ => .pure _
  exact .bind (.lift _) fun table => .bind (.lift _) fun column => .pure _

theorem expand_consults (table : Node) : Consults True (Below n) fun _ => expand table := by
  refine .bind (.look trivial) fun s => ?_
  split
  · exact .pure _
  · exact .lift _
  · exact .throw _

theorem selectionItems_consults {ms : List Node}
    (hms : ∀ m ∈ ms, m.kind.isTable = true ∨ Below n m) :
    Consults True (Below n) fun emit => selectionItems emit ms := by
  induction ms with
  | nil => exact .pure []
  | cons m rest ih =>
      have hrest := ih fun m hm => hms m (List.mem_cons_of_mem _ hm)
      simp only [selectionItems]
      refine .ite (fun _ => ?_) fun htable => ?_
      · exact .bind (expand_consults m) fun items => .bind hrest fun more => .pure _
      · rcases hms m List.mem_cons_self with h | h
        · exact absurd h htable
        · refine .bind (selectItem_consults h) fun item => ?_
          exact .bind (.pure _) fun items => .bind hrest fun more => .pure _

theorem valueItems_consults {ms : List Node} (hms : ∀ m ∈ ms, Below n m) :
    Consults True (Below n) fun emit => valueItems emit ms := by
  induction ms with
  | nil => exact .pure []
  | cons m rest ih =>
      refine .bind (selectItem_consults (hms m List.mem_cons_self)) fun item => ?_
      exact .bind (ih fun m hm => hms m (List.mem_cons_of_mem _ hm)) fun items => .pure _

theorem mem_nodes_of_replacementFor {replacements : Arg} {column : ColumnInfo} {value : Node}
    (h : replacementFor replacements column = some value) : value ∈ replacements.nodes := by
  unfold replacementFor at h
  split at h
  · next entries =>
      obtain ⟨entry, hentry, hvalue⟩ := Option.bind_eq_some_iff.1 h
      exact Arg.mem_nodesOfFields.2
        ⟨entry, List.mem_of_find?_eq_some hentry, Node.mem_nodes_of_node? hvalue⟩
  · split at h
    · cases h
      simp [Arg.nodes]
    · cases h
  · cases h

theorem filledItems_consults {replacements : Arg} (hvalues : replacements.AllNodes (Below n))
    (label : String) (columns : List ColumnInfo) :
    Consults True (Below n) fun emit => filledItems emit label replacements columns := by
  induction columns with
  | nil => exact .pure []
  | cons column rest ih =>
      refine .bind (.look trivial) fun s => ?_
      simp only []
      cases hvalue : replacementFor replacements column with
      | none => exact .bind (.pure _) fun item => .bind ih fun items => .pure _
      | some value =>
          have hbelow := hvalues value (mem_nodes_of_replacementFor hvalue)
          refine .bind (.ask hbelow) fun text => ?_
          exact .bind (.pure _) fun item => .bind ih fun items => .pure _

/-! ## The fields of tables -/

theorem below_of_child {m : Node} (h : n.Built) (hm : m ∈ n.children)
    (hplain : m.kind.isValue = true ∨ m.kind = .sortKey) : Below n m :=
  ⟨⟨h.of_mem_children hm, hplain⟩, Node.depth_of_mem_children hm⟩

theorem childList_below (h : n.Built) {name : String} {v : Validator}
    (hv : n.kind.validator? name = some v) (hvalues : v.onlyValues = true) {ms : List Node}
    (hms : n.childList name = .ok ms) : ∀ m ∈ ms, Below n m := fun _ hm =>
  below_of_child h (h.mem_children_of_childList hms hm)
    (Or.inl (h.isValue_of_mem_childList hv hvalues hms hm))

theorem sequence_below (h : n.Built) {name : String} {v : Validator}
    (hv : n.kind.validator? name = some v) (hvalues : v.onlyValues = true) :
    Consults True (Below n) fun emit : Node → Writing String => sequence emit n name :=
  .lift_bind fun _ hms => .each (childList_below h hv hvalues hms)

theorem sortKeys_below (h : n.Built) {name : String}
    (hv : n.kind.validator? name = some (.tupleOf .sortKey)) {ms : List Node}
    (hms : n.childList name = .ok ms) : ∀ m ∈ ms, Below n m := by
  intro m hm
  refine below_of_child h (h.mem_children_of_childList hms hm) (Or.inr ?_)
  obtain ⟨raw, before, hvalid⟩ := h.validate_of_mem_childList hv hms hm
  exact Validator.kind_of_sortKey hvalid

/-- What is selected is a table or a value. -/
theorem selections_below (h : n.Built) {name : String}
    (hv : n.kind.validator? name = some (.tupleOf (.either .table .value))) {ms : List Node}
    (hms : n.childList name = .ok ms) : ∀ m ∈ ms, m.kind.isTable = true ∨ Below n m := by
  intro m hm
  obtain ⟨raw, before, hvalid⟩ := h.validate_of_mem_childList hv hms hm
  rcases Validator.table_or_value hvalid with hk | hk
  · exact Or.inl hk
  · exact Or.inr (below_of_child h (h.mem_children_of_childList hms hm) (Or.inl hk))

/-! ## The rules for tables -/

theorem databaseTableRule_renders : Renders .databaseTable databaseTableRule := by
  intro n h _ emit emit' halike
  refine .target_bind (fun _ _ hst => hst.1) fun s => ?_
  exact .lift_bind fresh_same fun name _ => .result _ fresh_same

theorem inMemoryTableRule_renders : Renders .inMemoryTable inMemoryTableRule := by
  intro n h _ emit emit' halike
  refine .target_bind (fun _ _ hst => hst.1) fun s => ?_
  exact (Matches.lift _).weaken (fun _ _ => id) fresh_same

theorem selectionRule_renders : Renders .selection selectionRule := by
  intro n h hk emit emit' halike
  have hpredicates : n.kind.validator? "predicates"
      = some (.tupleOf Catalogue.condition) := by
    rw [hk]; rfl
  have hkeys : n.kind.validator? "sort_keys" = some (.tupleOf .sortKey) := by rw [hk]; rfl
  have hselections : n.kind.validator? "selections"
      = some (.tupleOf (.either .table .value)) := by
    rw [hk]; rfl
  refine .lift_bind fresh_same fun table htable => ?_
  refine .bind (halike.fromItem (h.mem_children_of_child htable)) fresh_same fun item => ?_
  refine .weaken ?_ fresh_steady fun _ _ => id
  refine .lift_bind steady_same fun selected hselected => ?_
  refine .bind
    (halike.consults (selectionItems_consults (selections_below h hselections hselected)))
    steady_same fun items => ?_
  refine .bind (halike.consults (sequence_below h hpredicates rfl)) steady_same
    fun filters => ?_
  refine .bind
    (halike.consults (.lift_bind fun _ hms => .each (sortKeys_below h hkeys hms)))
    steady_same
    fun orderBy => ?_
  split
  · exact .result _ steady_same
  · refine .weaken ?_ steady_same fun _ _ => id
    exact .bind (update_same _) (fun _ _ => id) fun _ => .result _ fun _ _ => id

theorem aggregationRule_renders : Renders .aggregation aggregationRule := by
  intro n h hk emit emit' halike
  have hkeys : n.kind.validator? "by" = some (.tupleOf .value) := by rw [hk]; rfl
  have hmetrics : n.kind.validator? "metrics"
    = some (.tupleOf .scalarValue) := by rw [hk]; rfl
  have hpredicates : n.kind.validator? "predicates"
      = some (.tupleOf Catalogue.condition) := by
    rw [hk]; rfl
  refine .lift_bind fresh_same fun table htable => ?_
  refine .bind (halike.fromItem (h.mem_children_of_child htable)) fresh_same fun item => ?_
  refine .weaken ?_ fresh_steady fun _ _ => id
  refine .lift_bind steady_same fun keys hby => ?_
  refine .bind (halike.consults (valueItems_consults (childList_below h hkeys rfl hby)))
    steady_same fun keyItems => ?_
  refine .lift_bind steady_same fun metrics hms => ?_
  refine .bind (halike.consults (valueItems_consults (childList_below h hmetrics rfl hms)))
    steady_same fun metricItems => ?_
  refine .bind (halike.consults (sequence_below h hpredicates rfl)) steady_same
    fun filters => ?_
  exact .result _ steady_same

theorem limitRule_renders : Renders .limit limitRule := by
  intro n h _ emit emit' halike
  refine .lift_bind fresh_same fun table htable => ?_
  refine .bind (halike.fromItem (h.mem_children_of_child htable)) fresh_same fun item => ?_
  refine .lift_bind fresh_same fun count _ => ?_
  exact .lift_bind fresh_same fun offset _ => .result _ fresh_same

theorem distinctRule_renders : Renders .distinct distinctRule := by
  intro n h _ emit emit' halike
  refine .lift_bind fresh_same fun table htable => ?_
  refine .bind (halike.fromItem (h.mem_children_of_child htable)) fresh_same fun item => ?_
  exact .result _ fresh_same

theorem dropNullsRule_renders : Renders .dropNa dropNullsRule := by
  intro n h hk emit emit' halike
  have hsubset : n.kind.validator? "subset"
    = some (.optional (.tupleOf .value)) := by rw [hk]; rfl
  refine .lift_bind fresh_same fun table htable => ?_
  refine .bind (halike.fromItem (h.mem_children_of_child htable)) fresh_same fun item => ?_
  refine .weaken ?_ fresh_steady fun _ _ => id
  refine .target_bind (fun _ _ hst => hst.1) fun s => ?_
  simp only []
  split
  · refine .bind (halike.consults (sequence_below h hsubset rfl)) steady_same
      fun subset => ?_
    split
    · exact .result _ steady_same
    · exact .lift_bind steady_same fun how _ => .result _ steady_same
  · refine .lift_bind steady_same fun schema _ => ?_
    simp only [pure_bind]
    split
    · exact .result _ steady_same
    · exact .lift_bind steady_same fun how _ => .result _ steady_same

theorem fillNullsRule_renders : Renders .fillNa fillNullsRule := by
  intro n h hk emit emit' halike
  have hreplacements : n.kind.validator? "replacements"
      = some (.either (.mapOf .scalarValue) .scalarValue) := by rw [hk]; rfl
  refine .lift_bind fresh_same fun table htable => ?_
  refine .lift_bind fresh_same fun schema _ => ?_
  refine .lift_bind fresh_same fun replacements hfield => ?_
  have hget := Node.field_eq_ok hfield
  have hbelow : replacements.AllNodes (Below n) := fun m hm =>
    below_of_child h (h.mem_children_of_get? hget hm)
      (Or.inl (h.isValue_of_get? hreplacements rfl hget m hm))
  simp only []
  split
  · exact .failure _ fresh_same
  · refine .bind (halike.fromItem (h.mem_children_of_child htable)) fresh_same fun item => ?_
    refine .weaken ?_ fresh_steady fun _ _ => id
    refine .bind (halike.consults (filledItems_consults hbelow _ _))
      steady_same fun items => ?_
    exact .result _ steady_same

theorem joinRule_renders (kind : NodeKind) (keyword : String)
    (hpredicates : kind.validator? "predicates" = some (.tupleOf Catalogue.condition)) :
    Renders kind (joinRule kind keyword) := by
  intro n h hk emit emit' halike
  rw [← hk] at hpredicates
  refine .lift_bind fresh_same fun left hleft => ?_
  refine .lift_bind fresh_same fun right hright => ?_
  refine .bind (halike.fromItem (h.mem_children_of_child hleft)) fresh_same
    fun leftItem => ?_
  refine .bind (halike.fromItem (h.mem_children_of_child hright)) fresh_same
    fun rightItem => ?_
  refine .weaken ?_ fresh_steady fun _ _ => id
  refine .bind (halike.consults (sequence_below h hpredicates rfl)) steady_same
    fun predicates => ?_
  simp only []
  split
  · exact .result _ steady_same
  · refine .lift_bind steady_same fun leftSchema _ => ?_
    refine .lift_bind steady_same fun rightSchema _ => ?_
    refine .target_bind steady_same fun s => ?_
    refine .weaken ?_ steady_same fun _ _ => id
    exact .bind (update_same _) (fun _ _ => id) fun _ => .result _ fun _ _ => id

theorem tableRules_render : ∀ x ∈ tableRules, x.1 ≠ .sortKey → Renders x.1 x.2 := by
  simp only [tableRules, List.forall_mem_cons]
  exact ⟨fun _ => databaseTableRule_renders, fun _ => inMemoryTableRule_renders,
    fun h => absurd rfl h, fun _ => selectionRule_renders, fun _ => aggregationRule_renders,
    fun _ => limitRule_renders, fun _ => distinctRule_renders,
    fun _ => dropNullsRule_renders, fun _ => fillNullsRule_renders,
    fun _ => joinRule_renders _ _ rfl, fun _ => joinRule_renders _ _ rfl,
    fun _ => joinRule_renders _ _ rfl, fun _ => joinRule_renders _ _ rfl,
    fun _ => joinRule_renders _ _ rfl, fun _ => joinRule_renders _ _ rfl,
    fun _ hx => absurd hx List.not_mem_nil⟩

/-! ## Which rule is resolved -/

/-- The rules for values and for keys to sort by. -/
def plainRules : List (NodeKind × SqlRule) :=
  genericRules ++ operatorRules ++ reductionRules ++ textRules ++ timeRules
    ++ [(.sortKey, sortKeyRule)]

theorem plainRules_read : ∀ x ∈ plainRules, Reads (Looks x.1) x.2 := by
  intro x hx
  simp only [plainRules, List.mem_append, List.mem_singleton] at hx
  rcases hx with ((((hx | hx) | hx) | hx) | hx) | rfl
  · exact genericRules_read x hx
  · exact operatorRules_read x hx
  · exact reductionRules_read x hx
  · exact textRules_read x hx
  · exact timeRules_read x hx
  · exact sortKeyRule_reads

theorem mem_of_resolve {kind k : NodeKind} {rule : SqlRule}
    (h : rules.resolve kind = .ok (k, rule)) :
    k ∈ kind.lineage ∧ ((k, rule) ∈ plainRules ∨ ((k, rule) ∈ tableRules ∧ k ≠ .sortKey)
      ∨ (k, rule) = (.node, RuleTable.refuse "sql")) := by
  obtain ⟨hlineage, hmem⟩ := RuleTable.resolve_eq_ok h
  refine ⟨hlineage, ?_⟩
  rcases RuleTable.mem_or_mem_of_registered hmem with hmem | hmem
  · rcases List.mem_append.1 hmem with hmem | hmem
    · exact Or.inl (List.mem_append_left _ hmem)
    · by_cases hk : k = .sortKey
      · subst hk
        have hrule : rule = sortKeyRule := by simpa [tableRules] using hmem
        exact Or.inl
          (List.mem_append_right _ (by rw [hrule]; exact List.mem_singleton.2 rfl))
      · exact Or.inr (Or.inl ⟨hmem, hk⟩)
  · exact Or.inr (Or.inr (List.mem_singleton.1 hmem))

/-- No rule for a table is given to a value or to a key to sort by. -/
theorem not_mem_tableRules {kind k : NodeKind} {rule : SqlRule}
    (hplain : kind.isValue = true ∨ kind = .sortKey) (hk : k ∈ kind.lineage)
    (hrule : (k, rule) ∈ tableRules) : k = .sortKey := by
  have h : ∀ kind ∈ NodeKind.all, kind.isValue = true ∨ kind = .sortKey → ∀ k ∈ kind.lineage,
      k ∈ tableRules.map (·.1) → k = .sortKey := by set_option maxRecDepth 2000 in decide
  exact h kind kind.mem_all hplain k hk (List.mem_map_of_mem (f := (·.1)) hrule)

/-- The rules for values and keys are not given to anything else. -/
theorem plain_of_mem_plainRules {kind k : NodeKind} {rule : SqlRule} (hk : k ∈ kind.lineage)
    (hrule : (k, rule) ∈ plainRules) : kind.isValue = true ∨ kind = .sortKey := by
  have h : ∀ kind ∈ NodeKind.all, ∀ k ∈ kind.lineage, k ∈ plainRules.map (·.1) →
      kind.isValue = true ∨ kind = .sortKey := by set_option maxRecDepth 2000 in decide
  exact h kind kind.mem_all k hk (List.mem_map_of_mem (f := (·.1)) hrule)

/-- No kind stands below one that has a rule for a table. -/
theorem eq_of_mem_tableRules {kind k : NodeKind} {rule : SqlRule} (hk : k ∈ kind.lineage)
    (hrule : (k, rule) ∈ tableRules) : kind = k := by
  have h : ∀ kind ∈ NodeKind.all, ∀ k ∈ kind.lineage, k ∈ tableRules.map (·.1) →
      kind = k := by
    set_option maxRecDepth 2000 in decide
  exact h kind kind.mem_all k hk (List.mem_map_of_mem (f := (·.1)) hrule)

/-! ## Texts of values -/

theorem plain_of_mem_children {n m : Node} (h : n.Built)
    (hvalues : n.kind.holdsValues = true) (hm : m ∈ n.children) :
    Plain m ∧ m.depth < n.depth :=
  below_of_child h hm (Or.inl (h.isValue_of_mem_children hvalues hm))

/-- Only columns and counts of rows hold anything but values. -/
theorem holdsValues_of_plain {kind : NodeKind} (h : kind.isValue = true ∨ kind = .sortKey)
    (hcolumn : kind ≠ .tableColumn)
    (hrows : kind ≠ .countStar) : kind.holdsValues = true := by
  rcases h with hvalue | rfl
  · exact NodeKind.holdsValues_of_isValue hvalue hcolumn hrows
  · set_option maxRecDepth 2000 in decide

theorem where_below {n m : Node} (h : n.Built) (hrows : n.kind = .countStar)
    (hm : n.child? "where" = some m) :
    Below n m := by
  have hwhere : n.kind.validator? "where" = some (.optional Catalogue.condition) := by
    rw [hrows]; rfl
  obtain ⟨a, ha, hm'⟩ := Option.bind_eq_some_iff.1 hm
  exact below_of_child h (h.mem_children_of_child? hm)
    (Or.inl (h.isValue_of_get? hwhere rfl ha m (Node.mem_nodes_of_node? hm')))

/-- Values ask for values only: of the two kinds that hold a table, one asks for nothing
and the other for its condition. -/
theorem rules_consult : rules.ConsultsWithin True Plain := by
  rintro n ⟨h, hplain⟩ k rule hresolve
  by_cases hcolumn : n.kind = .tableColumn
  · rw [hcolumn] at hresolve
    cases hresolve
    exact columnRule_consults trivial _ n
  by_cases hrows : n.kind = .countStar
  · have hwhere := fun m => where_below (m := m) h hrows
    rw [hrows] at hresolve
    cases hresolve
    exact countRowsRule_consults hwhere
  have hvalues := holdsValues_of_plain hplain hcolumn hrows
  obtain ⟨hlineage, hmem | ⟨hmem, hne⟩ | heq⟩ := mem_of_resolve hresolve
  · exact (plainRules_read _ hmem n h).mono (fun _ => trivial) fun m hm =>
      plain_of_mem_children h hvalues hm
  · exact absurd (not_mem_tableRules hplain hlineage hmem) hne
  · cases heq
    exact .throw _

theorem eq_of_plain {n m : Node} (hn : Plain n) (hm : Plain m)
    (h : (n == m) = true) : n = m :=
  hn.1.eq_of_beq hm.1 h

/-- What is done about a kept text gives that text, wherever it is right. -/
def Faithful (reuse : Node → String → Writing String) : Prop :=
  ∀ s n text, RightText s n text → Agrees (RightText s) s (reuse n text) (.ok text)

variable {reuse : Node → String → Writing String}

theorem plain_agrees (hreuse : Faithful reuse) {n : Node} (hn : Plain n) {depth : Nat}
    (hdepth : n.depth ≤ depth) (s : Statement) :
    Agrees (RightText s) s (rules.walk reuse depth n) (rules.answer s n) := by
  refine RuleTable.walk_agrees True (T := (· = s)) rfl ?_ rules_consult ?_ ?_ hn hdepth rfl
  · intro _ a b ha hb
    exact ha.trans hb.symm
  · intro n m hn hm h
    exact eq_of_plain hn hm h
  · intro s' hs n text htext
    rw [hs]
    exact hreuse s n text htext

theorem faithful_return : Faithful fun _ text => return text :=
  fun _ _ _ _ => .of_run fun _ => rfl

/-! ## Texts of all nodes -/

theorem remember_same (n : Node) (text : String) :
    Matches SameTarget SameTarget (remember n text) (remember n text) :=
  fun _ _ h => ⟨rfl, h⟩

/-- Where nothing was kept so far, walks go on to the rule. -/
theorem walk_succ_matches {reuse' : Node → String → Writing String} {n : Node}
    {depth depth' : Nat} (hrule : ∀ k rule, rules.resolve n.kind = .ok (k, rule) →
      Matches Fresh SameTarget (rule (rules.walk reuse depth) n)
      (rule (rules.walk reuse' depth') n)) :
    Matches Fresh SameTarget (rules.walk reuse (depth + 1) n)
      (rules.walk reuse' (depth' + 1) n) := by
  have hrest : Matches Fresh SameTarget
      (do
        let (_, rule) ← rules.resolve n.kind
        let text ← rule (rules.walk reuse depth) n
        remember n text
        return text)
      (do
        let (_, rule) ← rules.resolve n.kind
        let text ← rule (rules.walk reuse' depth') n
        remember n text
        return text) := by
    refine .lift_bind fresh_same fun found hfound => ?_
    refine .bind (hrule found.1 found.2 hfound) (fun _ _ => id) fun text => ?_
    exact .bind (remember_same n text) (fun _ _ => id) fun _ => .result _ fun _ _ => id
  rintro ⟨s, memo⟩ ⟨s', memo'⟩ ⟨rfl, rfl, rfl⟩
  rw [RuleTable.walk, RuleTable.walk, run_bind, run_bind, run_known?, run_known?]
  exact hrest ⟨s, some []⟩ ⟨s, none⟩ ⟨rfl, rfl, rfl⟩

/-- The walk that may reuse texts and the walk that keeps none do the same, from
the same statement on. -/
theorem walk_matches (hreuse : Faithful reuse) {n : Node} (hn : n.Built) {depth depth' : Nat}
    (hdepth : n.depth ≤ depth) (hdepth' : n.depth ≤ depth') :
    Matches Fresh SameTarget (rules.walk reuse depth n) (rules.emitWithin depth' n) := by
  induction hbound : n.depth using Nat.strongRecOn generalizing n depth depth' with
  | ind bound ih =>
      subst hbound
      rw [RuleTable.emitWithin_eq_walk]
      by_cases hplain : n.kind.isValue = true ∨ n.kind = .sortKey
      · rintro ⟨s, memo⟩ ⟨s', memo'⟩ ⟨rfl, rfl, rfl⟩
        obtain ⟨after, -, -, hrun⟩ :=
          plain_agrees hreuse ⟨hn, hplain⟩ hdepth s (some []) (keeps_nil _)
        obtain ⟨after', -, -, hrun'⟩ :=
          plain_agrees faithful_return ⟨hn, hplain⟩ hdepth' s none (keeps_none _)
        rw [hrun, hrun']
        exact ⟨rfl, rfl⟩
      · have hpos := n.depth_pos
        obtain ⟨less, rfl⟩ : ∃ less, depth = less + 1 := ⟨depth - 1, by omega⟩
        obtain ⟨less', rfl⟩ : ∃ less', depth' = less' + 1 := ⟨depth' - 1, by omega⟩
        have halike : Alike n (rules.walk reuse less)
            (rules.walk (fun _ text => return text) less') := by
          refine ⟨fun s m hm => ?_, fun s m hm => ?_, fun m hm => ?_⟩
          · exact plain_agrees hreuse hm.1 (by omega) s
          · exact plain_agrees faithful_return hm.1 (by omega) s
          · have hless := Node.depth_of_mem_children hm
            rw [← RuleTable.emitWithin_eq_walk]
            exact ih m.depth hless (hn.of_mem_children hm) (by omega) (by omega) rfl
        refine walk_succ_matches fun k rule hresolve => ?_
        obtain ⟨hlineage, hmem | ⟨hmem, hne⟩ | heq⟩ := mem_of_resolve hresolve
        · exact absurd (plain_of_mem_plainRules hlineage hmem) hplain
        · exact tableRules_render _ hmem hne n hn
            (eq_of_mem_tableRules hlineage hmem) _ _ halike
        · cases heq
          exact .failure _ fresh_same

/-! ## Rechecking kept texts -/

/-- A kept text is reused only if the text written anew, in the statement as it is
by then, is the same. -/
def recheck (n : Node) (text : String) : Writing String := do
  let s ← target
  if rules.answer s n = .ok text then return text
  else throw (.internal (n.kind.name ++ " is written differently by now"))

theorem faithful_recheck : Faithful recheck := by
  intro s n text htext
  refine .of_run fun memo => ?_
  rw [recheck, run_bind, run_target]
  simp only [htext.2, if_true]
  rfl

/-- Compiling with a check of every text that is reused. -/
def compileRechecked (config : Config) (n : Node) : Except Error String :=
  ((rules.walk recheck n.depth n).run (Session.start { config := config.sql } true)).1

end TypedQuery.Sql
