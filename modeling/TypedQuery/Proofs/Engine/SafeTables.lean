import TypedQuery.Proofs.Engine.Safe

/-!
# Tables become plans

The rules for tables of the engine, and with them all rules: a table that builds becomes a
plan or is refused. Stored rows were checked against the schema when the table was built,
so that they can be read as rows of plain values.
-/

namespace TypedQuery

/-! ## Rows -/

/-- What was put into another form item by item is read back. -/
theorem mapM_map_eq_some {α β : Type} {f : α → Option β} {g : β → α}
    (h : ∀ b, f (g b) = some b) (bs : List β) :
    (bs.map g).mapM f = some bs := by
  induction bs with
  | nil => rfl
  | cons b rest ih => rw [List.map_cons, List.mapM_cons, h, ih]; rfl

theorem proper_cast (c : Column) (target : Physical) :
    Proper (fun _ => True) (c.cast target) := by
  unfold Column.cast
  split
  · trivial
  · split
    · split <;> trivial
    · trivial

theorem proper_literalColumn (v : Value) (t : DataType) (rows : Nat) :
    Proper (fun _ => True) (Literal.column v t rows) := by
  unfold Literal.column
  simp only []
  split
  · trivial
  · refine Proper.bind (P := fun _ => True) ?_ fun stored _ _ => ?_
    · cases v <;> trivial
    · split
      · trivial
      · exact proper_cast _ _

namespace Batch

theorem proper_cellsOf (column : ColumnInfo) (position : Nat) (rows : List (List Value)) :
    Proper (fun _ => True) (cellsOf column position rows) := by
  induction rows with
  | nil => trivial
  | cons row rest ih =>
      refine Proper.bind (P := fun _ => True) ?_ fun _ _ _ => ih.bind fun _ _ _ => trivial
      unfold cellOf
      split
      · exact proper_literalColumn _ _ _
      · rfl

theorem proper_stack (parts : List Column) : Proper (fun _ => True) (stack parts) := by
  cases parts with
  | nil => rfl
  | cons first rest =>
      rw [stack]
      split <;> trivial

theorem proper_columnsOf (rows : List (List Value)) (position : Nat)
    (columns : List ColumnInfo) :
    Proper (fun _ => True) (columnsOf rows position columns) := by
  induction columns generalizing position with
  | nil => trivial
  | cons column rest ih =>
      refine Proper.bind (P := fun _ => True) ?_ fun _ _ _ =>
        (ih _).bind fun _ _ _ => trivial
      unfold columnOf
      split
      · trivial
      · exact (proper_cellsOf column position rows).bind fun parts _ _ => proper_stack parts

theorem proper_ofRows (schema : Schema) (rows : List (List Value)) :
    Proper (fun _ => True) (ofRows schema rows) := by
  refine (proper_columnsOf rows 0 schema.columns).bind fun columns _ _ => ?_
  split <;> trivial

end Batch

namespace Engine

open Emission

/-- The rule for a kind of table gives a plan. -/
def GivesPlan (kind : NodeKind) (rule : EngineRule) : Prop :=
  ∀ n emit, n.kind = kind → SafeBelow n emit → Safe (fun l => ∃ p, l = .plan p) (rule emit n)

theorem rowsOf_of_field {n : Node} {rows : List (List Value)}
    (h : n.field "data" = .ok (.ofRows rows)) :
    rowsOf n = .ok rows := by
  have hcell (v : Value) : (Arg.value v).value? = some v := rfl
  have hrow (row : List Value) : rowOf? (.seq (row.map .value)) = some row :=
    mapM_map_eq_some hcell row
  have hrows : (Arg.ofRows rows).seq?.bind (·.mapM rowOf?) = some rows :=
    mapM_map_eq_some hrow rows
  rw [rowsOf, h]
  simp only [bind, Except.bind, hrows]

theorem proper_rowsOf {n : Node} (h : n.Built) (hkind : n.kind = .inMemoryTable) :
    Proper (fun _ => True) (rowsOf n) := by
  obtain ⟨s, rows, -, hdata, -⟩ := h.stored_rows hkind
  rw [rowsOf_of_field hdata]
  trivial

theorem givenRowsRule_gives : GivesPlan .inMemoryTable givenRowsRule := by
  intro n emit hkind h
  obtain ⟨name, hname⟩ := h.built.exists_text "name" (by rw [hkind]; rfl)
  refine .lift_bind n.proper_outputSchema fun schema _ _ =>
    .lift_bind (proper_rowsOf h.built hkind) fun rows _ _ => ?_
  exact .lift_bind (Batch.proper_ofRows schema rows) fun _ _ _ =>
    .ok_bind hname (.pure ⟨_, rfl⟩)

/-! ## Items and keys -/

section

variable {n : Node} {emit : Node → Lowering Lowered} (h : SafeBelow n emit)

include h

theorem named_safe {m : Node} (hm : m ∈ n.children) (hvalue : m.kind.isValue = true) :
    SafeStep (named emit m) := by
  refine .bind (h.exprOf hm hvalue) fun e _ => .ite (fun _ => .pure trivial) fun _ => ?_
  exact .lift_bind (Node.proper_name (h.built.of_mem_children hm)) fun _ _ _ => .pure trivial

theorem namedEach_safe {ms : List Node}
    (hms : ∀ m ∈ ms, m ∈ n.children ∧ m.kind.isValue = true) :
    SafeStep (namedEach emit ms) := by
  induction ms with
  | nil => exact .pure trivial
  | cons m rest ih =>
      obtain ⟨⟨hm, hvalue⟩, hrest⟩ := List.forall_mem_cons.1 hms
      exact .bind (named_safe h hm hvalue) fun _ _ =>
        .bind (ih hrest) fun _ _ => .pure trivial

/-- The expression of a key to sort by is two levels below the selection. -/
theorem sortKeys_safe {keys : List Node}
    (hkeys : ∀ key ∈ keys, key ∈ n.children ∧ key.kind = .sortKey) :
    SafeStep (sortKeys emit keys) := by
  induction keys with
  | nil => exact .pure trivial
  | cons key rest ih =>
      obtain ⟨⟨hkey, hkind⟩, hrest⟩ := List.forall_mem_cons.1 hkeys
      have hbelow := h.child hkey
      obtain ⟨ascending, hascending⟩ :=
        hbelow.built.exists_bool "ascending" (by rw [hkind]; rfl)
      refine .bind (hbelow.expr (by rw [hkind]; rfl)) fun _ _ => .ok_bind hascending ?_
      exact .bind (ih hrest) fun _ _ => .pure trivial

theorem selected_safe {ms : List Node}
    (hms : ∀ m ∈ ms, m ∈ n.children ∧ (m.kind.isTable = true ∨ m.kind.isValue = true)) :
    SafeStep (selected emit ms) := by
  induction ms with
  | nil => exact .pure trivial
  | cons m rest ih =>
      obtain ⟨⟨hm, hkind⟩, hrest⟩ := List.forall_mem_cons.1 hms
      have hmore (items : List Expr) :
          SafeStep (do return items ++ (← selected emit rest) : Lowering (List Expr)) :=
        .bind (ih hrest) fun _ _ => .pure trivial
      refine .ite (fun _ => ?_) fun htable => ?_
      · refine .lift_bind m.proper_outputSchema fun schema _ _ => ?_
        exact .bind (P := fun _ => True) (.pure trivial) fun items _ => hmore items
      · refine .bind (named_safe h hm (hkind.resolve_left htable)) fun e _ => ?_
        exact .bind (P := fun _ => True) (.pure trivial) fun items _ => hmore items

/-- Both sides of an equality are below the join. -/
theorem joinKeyPairs_safe (left right : Node) {predicates : List Node}
    (hms : ∀ m ∈ predicates, m ∈ n.children) :
    SafeStep (joinKeyPairs emit left right predicates) := by
  induction predicates with
  | nil => exact .pure trivial
  | cons predicate rest ih =>
      obtain ⟨hm, hrest⟩ := List.forall_mem_cons.1 hms
      have hbelow := h.child hm
      have hsides : Proper
          (fun sides => SafeStep (exprOf emit sides.1) ∧ SafeStep (exprOf emit sides.2))
          (joinSides left right predicate) := by
        unfold joinSides
        split
        · rfl
        · next hkind =>
            rw [not_not] at hkind
            obtain ⟨a, ha, hamem, havalue⟩ :=
              hbelow.built.exists_value "left" (by rw [hkind]; rfl)
            obtain ⟨b, hb, hbmem, hbvalue⟩ :=
              hbelow.built.exists_value "right" (by rw [hkind]; rfl)
            have hleft := hbelow.exprOf hamem havalue
            have hright := hbelow.exprOf hbmem hbvalue
            rw [ha, hb]
            show Proper _ (if _ then Except.ok (a, b) else if _ then Except.ok (b, a)
              else Except.error _)
            split
            · exact ⟨hleft, hright⟩
            · split
              · exact ⟨hright, hleft⟩
              · rfl
      refine .lift_bind hsides fun sides _ hsafe => .bind hsafe.1 fun _ _ =>
        .bind hsafe.2 fun _ _ => ?_
      exact .bind (ih hrest) fun _ _ => .pure trivial

theorem joinKeys_safe (hleft : n.kind.hasNode "left" = true)
    (hright : n.kind.hasNode "right" = true)
    (hpredicates : n.kind.hasNodes "predicates" = true) : SafeStep (joinKeys emit n) := by
  obtain ⟨left, hl, -⟩ := h.built.exists_child _ hleft
  obtain ⟨right, hr, -⟩ := h.built.exists_child _ hright
  obtain ⟨predicates, hms, hmem⟩ := h.built.exists_childList _ hpredicates
  refine .ok_bind hl (.ok_bind hr (.ok_bind hms ?_))
  have hpairs := joinKeyPairs_safe h left right hmem
  exact .ite (fun _ => .bind (P := fun _ => True) (.throw rfl) fun _ _ =>
    hpairs) fun _ => hpairs

end

/-! ## Rules -/

theorem selectionRule_gives : GivesPlan .selection selectionRule := by
  intro n emit hkind h
  have hselections : n.kind.validator? "selections"
    = some (.tupleOf (.either .table .value)) := by rw [hkind]; rfl
  have hsortKeys : n.kind.validator? "sort_keys"
    = some (.tupleOf .sortKey) := by rw [hkind]; rfl
  obtain ⟨keys, hkeys, hkeysMem⟩ := h.built.exists_childList "sort_keys" (by rw [hkind]; rfl)
  obtain ⟨ms, hms, hmem⟩ := h.built.exists_childList "selections" (by rw [hkind]; rfl)
  refine .bind (h.plan (by rw [hkind]; rfl)) fun input _ =>
    .bind (h.exprs (by rw [hkind]; rfl)) fun predicates _ => ?_
  refine .ok_bind hkeys
    (.bind (sortKeys_safe h fun key hkey => ⟨hkeysMem key hkey, ?_⟩) fun sorted _ => ?_)
  · obtain ⟨raw, before, hvalid⟩ := h.built.validate_of_mem_childList hsortKeys hkeys hkey
    exact Validator.kind_of_sortKey hvalid
  · refine .ok_bind hms (.ite (fun _ => .pure ⟨_, rfl⟩) fun _ => ?_)
    refine .bind (selected_safe h fun m hm => ⟨hmem m hm, ?_⟩) fun items _ => .pure ⟨_, rfl⟩
    obtain ⟨raw, before, hvalid⟩ := h.built.validate_of_mem_childList hselections hms hm
    exact Validator.table_or_value hvalid

theorem aggregationRule_gives : GivesPlan .aggregation aggregationRule := by
  intro n emit hkind h
  obtain ⟨keys, hkeys, hkeysMem⟩ := h.built.exists_values "by" (by rw [hkind]; rfl)
  obtain ⟨metrics, hmetrics, hmetricsMem⟩ :=
    h.built.exists_values "metrics" (by rw [hkind]; rfl)
  refine .bind (h.plan (by rw [hkind]; rfl)) fun input _ =>
    .bind (h.exprs (by rw [hkind]; rfl)) fun predicates _ => ?_
  refine .ok_bind hkeys (.bind (namedEach_safe h hkeysMem) fun _ _ => ?_)
  exact .ok_bind hmetrics (.bind (namedEach_safe h hmetricsMem) fun _ _ => .pure ⟨_, rfl⟩)

theorem limitRule_gives : GivesPlan .limit limitRule := by
  intro n emit hkind h
  obtain ⟨count, hcount⟩ := h.built.exists_int "n" (by rw [hkind]; rfl)
  obtain ⟨offset, hoffset⟩ := h.built.exists_int "offset" (by rw [hkind]; rfl)
  have hfield {field : String} {k : Int64} (hk : n.intField field = .ok k) :
      Proper (fun _ => True) (countField n field) := by
    rw [countField, hk]
    exact proper_countOf n field k
  refine .lift_bind (hfield hcount) fun _ _ _ => .lift_bind (hfield hoffset) fun _ _ _ => ?_
  exact .bind (h.plan (by rw [hkind]; rfl)) fun _ _ => .pure ⟨_, rfl⟩

theorem proper_nodeNames {ms : List Node} (hms : ∀ m ∈ ms, m.Built) :
    Proper (fun _ => True) (nodeNames ms) := by
  induction ms with
  | nil => trivial
  | cons m rest ih =>
      obtain ⟨hm, hrest⟩ := List.forall_mem_cons.1 hms
      exact (Node.proper_name hm).bind fun _ _ _ => (ih hrest).bind fun _ _ _ => trivial

theorem dropNullsRule_gives : GivesPlan .dropNa dropNullsRule := by
  intro n emit hkind h
  obtain ⟨how, hhow⟩ := h.built.exists_text "how" (by rw [hkind]; rfl)
  obtain ⟨ms, hms, hmem⟩ := h.built.exists_childList "subset" (by rw [hkind]; rfl)
  have hrest : Safe (fun l => ∃ p, l = .plan p) (do
      let input ← plan emit n "table"
      if ((n.get? "subset").getD .none).isNone then
        return Lowered.plan (.dropNulls input none)
      else
        let names ← nodeNames (← n.childList "subset")
        return .plan (if names.isEmpty then input else .dropNulls input (some names)) :
            Lowering Lowered) := by
    refine .bind (h.plan (by rw [hkind]; rfl)) fun input _ =>
      .ite (fun _ => .pure ⟨_, rfl⟩) fun _ => .ok_bind hms ?_
    exact .lift_bind (proper_nodeNames fun m hm => h.built.of_mem_children (hmem m hm))
      fun _ _ _ => .pure ⟨_, rfl⟩
  exact .ok_bind hhow
    (.ite (fun _ => .bind (P := fun _ => True) (.throw rfl) fun _ _ => hrest) fun _ => hrest)

theorem proper_replacement (n : Node) (a : Arg) :
    Proper (fun _ => True) (replacement n a) := by
  unfold replacement
  simp only []
  split <;> trivial

theorem proper_namedFills (n : Node) (s : Schema) (entries : List (String × Arg)) :
    Proper (fun _ => True) (namedFills n s entries) := by
  induction entries with
  | nil => trivial
  | cons entry rest ih =>
      rw [namedFills]
      split
      · rfl
      · exact (proper_replacement n _).bind fun _ _ _ => ih.bind fun _ _ _ => trivial

theorem proper_fills (n : Node) (s : Schema) (replacements : Arg) :
    Proper (fun _ => True) (fills n s replacements) := by
  unfold fills
  split
  · exact proper_namedFills n s _
  · exact (proper_replacement n _).bind fun _ _ _ => trivial

theorem fillNullsRule_gives : GivesPlan .fillNa fillNullsRule := by
  intro n emit hkind h
  obtain ⟨table, htable, -⟩ := h.built.exists_child "table" (by rw [hkind]; rfl)
  obtain ⟨raw, before, replacements, -, -, -, hget⟩ := h.built.get?_eq
    (show n.kind.validator? "replacements" = some (.either
      (.mapOf .scalarValue) .scalarValue) by rw [hkind]; rfl)
  refine .ok_bind htable (.lift_bind table.proper_outputSchema fun schema _ _ =>
    .ok_bind (Node.field_of_get? hget) ?_)
  refine .lift_bind (proper_fills n schema replacements) fun _ _ _ => ?_
  exact .bind (h.plan (by rw [hkind]; rfl)) fun _ _ => .pure ⟨_, rfl⟩

theorem joinRule_gives {kind : NodeKind} (join : JoinKind)
    (hleft : kind.validator? "left" = some .table)
    (hright : kind.validator? "right" = some .table) (hl : kind.hasNode "left" = true)
    (hr : kind.hasNode "right" = true) (hpredicates : kind.hasNodes "predicates" = true) :
    GivesPlan kind (joinRule join) := by
  rintro n emit rfl h
  refine .bind (h.plan hleft) fun _ _ => .bind (h.plan hright) fun _ _ => ?_
  exact .bind (joinKeys_safe h hl hr hpredicates) fun _ _ => .pure ⟨_, rfl⟩

theorem rightJoinRule_gives : GivesPlan .rightJoin rightJoinRule := by
  intro n emit hkind h
  obtain ⟨left, hl, -⟩ := h.built.exists_child "left" (by rw [hkind]; rfl)
  obtain ⟨right, hr, -⟩ := h.built.exists_child "right" (by rw [hkind]; rfl)
  refine .ok_bind hl (.lift_bind left.proper_outputSchema fun _ _ _ => .ok_bind hr ?_)
  refine .lift_bind right.proper_outputSchema fun _ _ _ =>
    .bind (h.plan (by rw [hkind]; rfl)) fun _ _ => ?_
  have hkeys :=
    joinKeys_safe h (by rw [hkind]; rfl) (by rw [hkind]; rfl) (by rw [hkind]; rfl)
  exact .bind (h.plan (by rw [hkind]; rfl)) fun _ _ => .bind hkeys fun _ _ => .pure ⟨_, rfl⟩

theorem tableRules_give : ∀ x ∈ tableRules, GivesPlan x.1 x.2 := by
  have hscan : GivesPlan .databaseTable fun _ n =>
      do return .plan (.scan (← n.stringField "name")) := by
    intro n emit hkind h
    obtain ⟨name, hname⟩ := h.built.exists_text "name" (by rw [hkind]; rfl)
    exact .ok_bind hname (.pure ⟨_, rfl⟩)
  have hunique : GivesPlan .distinct fun emit n =>
      return .plan (.unique (← plan emit n "table")) :=
    fun n emit hkind h => .bind (h.plan (by rw [hkind]; rfl)) fun _ _ => .pure ⟨_, rfl⟩
  simp only [tableRules, List.forall_mem_cons]
  exact ⟨hscan, givenRowsRule_gives, selectionRule_gives, aggregationRule_gives,
    limitRule_gives, hunique, dropNullsRule_gives, fillNullsRule_gives,
    joinRule_gives _ rfl rfl rfl rfl rfl, joinRule_gives _ rfl rfl rfl rfl rfl,
    joinRule_gives _ rfl rfl rfl rfl rfl, joinRule_gives _ rfl rfl rfl rfl rfl,
    joinRule_gives _ rfl rfl rfl rfl rfl, rightJoinRule_gives,
    fun _ hx => absurd hx List.not_mem_nil⟩

/-! ## All nodes -/

/-- A rule that was resolved for a value or a table gives what suits it. -/
theorem suits_of_resolve {n : Node} {k : NodeKind} {rule : EngineRule}
    (hresolve : rules.resolve n.kind = .ok (k, rule))
    (hkind : n.kind.isValue = true ∨ n.kind.isTable = true) {emit : Node → Lowering Lowered}
    (h : SafeBelow n emit) :
    Safe (Lowered.Suits n) (rule emit n) := by
  obtain ⟨hlineage, hmem⟩ := RuleTable.resolve_eq_ok hresolve
  have hunder : n.kind.isUnder k = true := List.contains_iff_mem.2 hlineage
  have hvalues : ∀ kind ∈ NodeKind.all, ∀ k ∈ kind.lineage,
      k ∈ (valueRules ++ listRules ++ textRules ++ timeRules).map (·.1) →
        kind.isTable = false := by set_option maxRecDepth 2000 in decide
  have htables : ∀ kind ∈ NodeKind.all, ∀ k ∈ kind.lineage, k ∈ tableRules.map (·.1) →
      kind = k ∧ kind.isValue = false := by set_option maxRecDepth 2000 in decide
  -- A rule for values gives an expression, and is resolved for no table.
  have hexpr (hgives : Safe (fun l => ∃ e, l = .expr e) (rule emit n))
    (htable : n.kind.isTable = false) :
      Safe (Lowered.Suits n) (rule emit n) :=
    hgives.mono fun l hl => ⟨fun _ => hl, fun h => by rw [htable] at h; cases h⟩
  rcases RuleTable.mem_or_mem_of_registered hmem with hmem | hmem
  · rcases List.mem_append.1 hmem with hmem | hmem
    · have htable :=
        hvalues n.kind n.kind.mem_all k hlineage (List.mem_map_of_mem (f := (·.1)) hmem)
      refine hexpr ?_ htable
      simp only [List.mem_append, valueRules] at hmem
      rcases hmem with (((((hmem | hmem) | hmem) | hmem) | hmem) | hmem) | hmem
      · refine genericRules_give _ hmem ?_ n emit hunder h
        rintro rfl
        rw [NodeKind.eq_of_isUnder rfl hunder] at hkind
        rcases hkind with hkind | hkind <;> cases hkind
      · exact operatorRules_give _ hmem n emit hunder h
      · exact numericRules_give _ hmem n emit hunder h
      · refine reductionRules_give hmem hunder (fun hcount => ?_) h
        rw [hcount] at hresolve
        exact congrArg Prod.fst (Except.ok.inj hresolve).symm
      · exact listRules_give _ hmem n emit hunder h
      · exact textRules_give _ hmem n emit hunder h
      · exact timeRules_give _ hmem n emit hunder h
    · obtain ⟨rfl, hvalue⟩ :=
        htables n.kind n.kind.mem_all k hlineage (List.mem_map_of_mem (f := (·.1)) hmem)
      refine (tableRules_give _ hmem n emit rfl h).mono fun l hl =>
        ⟨fun hn => ?_, fun _ => hl⟩
      rw [hvalue] at hn
      cases hn
  · cases List.mem_singleton.1 hmem
    exact .throw rfl

/-- What a value or a table that builds becomes suits it, unless the node is refused. -/
theorem answer_suits {n : Node} (h : n.Built)
    (hkind : n.kind.isValue = true ∨ n.kind.isTable = true) (clock : Clock) :
    Proper (Lowered.Suits n) (rules.answer clock n) := by
  induction hdepth : n.depth using Nat.strongRecOn generalizing n with
  | ind depth ih =>
      subst hdepth
      obtain ⟨⟨k, rule⟩, hresolve⟩ :=
        RuleTable.exists_resolve (show rules.rule? .node = some _ from rfl) n.kind
      have hbelow : SafeBelow n (lowered clock) := by
        refine ⟨h, fun m hm hless hvalue => .lift ?_, fun m hm hless htable => .lift ?_⟩
        · exact (ih m.depth hless hm (Or.inl hvalue) rfl).mono fun l _ hl => hl.expr hvalue
        · exact (ih m.depth hless hm (Or.inr htable) rfl).mono fun l _ hl => hl.plan htable
      rw [answer_eq_result h clock hresolve]
      exact suits_of_resolve hresolve hkind hbelow _

end Engine

end TypedQuery
