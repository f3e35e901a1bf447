import TypedQuery.Proofs.Join.Names
import TypedQuery.Proofs.Sql.Reach

/-!
# Columns that subqueries hand on

A table inside a subquery is reached through the label of the subquery, under names
that follow the renamings of all joins on the way. `Query.Carries` says, from the
select lists, which column of a query holds a column of the table. In queries that hand
on all columns the two agree.
-/

namespace TypedQuery

/-! ## Tables that keep all columns -/

/-- Stored tables that are joined, or of which rows are chosen or nulls replaced. -/
inductive Node.KeepsColumns : Node → Prop where
  | stored {n : Node}
    (hkind : n.kind = .databaseTable ∨ n.kind = .inMemoryTable) : KeepsColumns n
  | chosen {n table : Node}
    (hkind : n.kind ∈ [.limit, .distinct, .dropNa, .fillNa]
      ∨ n.kind = .selection ∧ n.childList "selections" = .ok [])
    (htable : n.child "table" = .ok table) (h : table.KeepsColumns) : KeepsColumns n
  | joined {n left right : Node} (hkind : n.kind ∈ NodeKind.wideJoins)
    (hleft : n.child "left" = .ok left) (hright : n.child "right" = .ok right)
    (hl : left.KeepsColumns) (hr : right.KeepsColumns) : KeepsColumns n

/-- In some `FROM` clause the subqueries of both items reach the table. -/
inductive Node.Ambiguous : Node → Node → Prop where
  | here {n left right table : Node} (hkind : n.kind.sources = ["left", "right"])
    (hleft : n.child "left" = .ok left) (hright : n.child "right" = .ok right)
    (hl : left.kind ≠ .aggregation ∧ left.Reaches table)
    (hr : right.kind ≠ .aggregation ∧ right.Reaches table) : Ambiguous n table
  | within {n m table : Node} {field : String} (hfield : field ∈ n.kind.sources)
    (hm : n.child field = .ok m)
    (h : m.Ambiguous table) : Ambiguous n table

namespace NodeKind

variable {k : NodeKind}

theorem sources_of_chosen
    (h : k ∈ [NodeKind.limit, .distinct, .dropNa, .fillNa] ∨ k = .selection) :
    k.sources = ["table"] := by
  simp only [List.mem_cons, List.not_mem_nil, or_false] at h
  rcases h with (rfl | rfl | rfl | rfl) | rfl <;> rfl

theorem isTable_of_chosen
    (h : k ∈ [NodeKind.limit, .distinct, .dropNa, .fillNa] ∨ k = .selection) :
    k.isTable = true := by
  simp only [List.mem_cons, List.not_mem_nil, or_false] at h
  rcases h with (rfl | rfl | rfl | rfl) | rfl <;> rfl

theorem sources_of_wideJoin (h : k ∈ wideJoins) : k.sources = ["left", "right"] := by
  rcases mem_wideJoins.1 h with rfl | rfl | rfl | rfl <;> rfl

end NodeKind

namespace Node.KeepsColumns

variable {n table left right : Node}

theorem isTable (h : n.KeepsColumns) : n.kind.isTable = true := by
  rcases h with hkind | ⟨hkind, -, -⟩ | ⟨hkind, -, -, -, -⟩
  · rcases hkind with hk | hk <;> rw [hk] <;> rfl
  · exact NodeKind.isTable_of_chosen (hkind.imp_right And.left)
  · exact (NodeKind.definition_of_wideJoins hkind).1

theorem ne_aggregation (h : n.KeepsColumns) : n.kind ≠ .aggregation := by
  intro heq
  rcases h with hkind | ⟨hkind, -, -⟩ | ⟨hkind, -, -, -, -⟩
  · simp [heq] at hkind
  · simp [heq] at hkind
  · simp [heq, NodeKind.wideJoins] at hkind

theorem of_one (h : n.KeepsColumns) (hkind : n.kind.sources = ["table"])
    (htable : n.child "table" = .ok table) :
    (n.kind ∈ [NodeKind.limit, .distinct, .dropNa, .fillNa]
      ∨ n.kind = .selection ∧ n.childList "selections" = .ok [])
      ∧ table.KeepsColumns := by
  cases h with
  | stored h => rcases h with h | h <;> rw [h] at hkind <;> cases hkind
  | chosen h htable' ht =>
      cases htable.symm.trans htable'
      exact ⟨h, ht⟩
  | joined h =>
      rw [NodeKind.sources_of_wideJoin h] at hkind
      exact absurd hkind (by decide)

theorem of_two (h : n.KeepsColumns) (hkind : n.kind.sources = ["left", "right"])
    (hleft : n.child "left" = .ok left) (hright : n.child "right" = .ok right) :
    n.kind ∈ NodeKind.wideJoins ∧ left.KeepsColumns ∧ right.KeepsColumns := by
  cases h with
  | stored h => rcases h with h | h <;> rw [h] at hkind <;> cases hkind
  | chosen h =>
      rw [NodeKind.sources_of_chosen (h.imp_right And.left)] at hkind
      exact absurd hkind (by decide)
  | joined h hleft' hright' hl hr =>
      cases hleft.symm.trans hleft'
      cases hright.symm.trans hright'
      exact ⟨h, hl, hr⟩

end Node.KeepsColumns

/-- Choosing rows or replacing nulls leaves the schema as it is. -/
theorem Node.Built.outputSchema_of_chosen {n table : Node} (h : n.Built)
    (hkind : n.kind ∈ [NodeKind.limit, .distinct, .dropNa, .fillNa]
      ∨ n.kind = .selection ∧ n.childList "selections" = .ok [])
    (htable : n.child "table" = .ok table) : n.outputSchema = table.outputSchema := by
  obtain ⟨hisTable, hv⟩ : n.kind.isTable = true
      ∧ n.kind.validator? "table" = some .table := by
    simp only [List.mem_cons, List.not_mem_nil, or_false] at hkind
    rcases hkind with (hk | hk | hk | hk) | ⟨hk, -⟩ <;> rw [hk] <;> exact ⟨rfl, rfl⟩
  obtain ⟨s, hs, hschema⟩ := h.schemaRule_eq hisTable
  have hfrom : Rules.schemaIn "table" n.fields = .ok s := by
    simp only [List.mem_cons, List.not_mem_nil, or_false] at hkind
    rcases hkind with (hk | hk | hk | hk) | ⟨hk, hnone⟩
    · rwa [hk] at hs
    · rwa [hk] at hs
    · rwa [hk] at hs
    · rwa [hk] at hs
    · rw [hk, NodeKind.schemaRule, Rules.selectionSchema,
        h.nodesIn_eq (by rw [hk]; rfl) hnone] at hs
      exact hs
  obtain ⟨m, hm, -, -, hms⟩ := h.table_in hv hfrom
  cases htable.symm.trans hm
  rw [hms, Node.outputSchema_eq_ok hschema]

namespace Sql

/-! ## Renamings -/

namespace Renames

theorem newName?_cons (column name c : String) (rest : Renames) :
    newName? ((column, name) :: rest) c = if column = c then some name
      else newName? rest c := by
  by_cases h : column = c <;> simp [newName?, h]

theorem newName?_insert (renames : Renames) (column name c : String) :
    (renames.insert column name).newName? c = if column = c then some name
      else renames.newName? c := by
  induction renames with
  | nil => exact newName?_cons column name c []
  | cons x rest ih =>
      obtain ⟨d, n⟩ := x
      rw [insert]
      by_cases hd : d = column
      · rw [if_pos hd, newName?_cons, newName?_cons, hd]
        split <;> rfl
      · rw [if_neg hd, newName?_cons, newName?_cons, ih]
        by_cases hc : d = c
        · rw [if_pos hc, if_neg fun h => hd (hc.trans h.symm), if_pos hc]
        · rw [if_neg hc, if_neg hc]

theorem newName?_map (renames : Renames) (f : String → String) (c : String) :
    newName? (renames.map fun (column, name) => (column, f name)) c
      = (renames.newName? c).map f := by
  induction renames with
  | nil => rfl
  | cons x rest ih =>
      rw [List.map_cons, newName?_cons, newName?_cons, ih]
      split <;> rfl

theorem newName?_insertNew (renames : Renames) (column name c : String) :
    (renames.insertNew column name).newName? c
      = (renames.newName? c).or (if column = c then some name else none) := by
  rw [insertNew]
  split
  · next hknown =>
      by_cases hc : column = c
      · subst hc
        obtain ⟨known, hknown⟩ := Option.isSome_iff_exists.1 hknown
        rw [hknown, Option.some_or]
      · rw [if_neg hc, Option.or_none]
  · rw [newName?, List.find?_append, Option.map_or]
    exact congrArg (Option.or _) (newName?_cons column name c [])

theorem newName?_foldl_insertNew (changes renames : Renames) (c : String) :
    newName? (changes.foldl
      (fun renames (column, name) => renames.insertNew column name) renames) c
      = (renames.newName? c).or (changes.newName? c) := by
  induction changes generalizing renames with
  | nil => exact Option.or_none.symm
  | cons x rest ih =>
      rw [List.foldl_cons, ih, newName?_insertNew, newName?_cons, Option.or_assoc]
      congr 1
      split <;> rfl

theorem newName?_andThen (renames changes : Renames) (c : String) :
    (renames.andThen changes).newName? c
      = ((renames.newName? c).map changes.apply).or (changes.newName? c) := by
  rw [andThen, newName?_foldl_insertNew]
  exact congrArg (Option.or · _) (newName?_map renames changes.apply c)

/-- Columns not renamed so far are renamed too, so that one renaming follows the other. -/
theorem apply_andThen (renames changes : Renames) (c : String) :
    (renames.andThen changes).apply c = changes.apply (renames.apply c) := by
  rw [apply, newName?_andThen, apply, apply]
  cases renames.newName? c <;> rfl

theorem newName?_foldl_insert (columns : List ColumnInfo) (renames : Renames)
    (f : String → String) (c : String) :
    newName? (columns.foldl
      (fun renames column => renames.insert column.name (f column.name)) renames) c
      = if c ∈ columns.map (·.name) then some (f c) else renames.newName? c := by
  induction columns generalizing renames with
  | nil => rfl
  | cons column rest ih =>
      rw [List.foldl_cons, ih, newName?_insert, List.map_cons]
      by_cases hrest : c ∈ rest.map (·.name)
      · rw [if_pos hrest, if_pos (List.mem_cons_of_mem _ hrest)]
      · rw [if_neg hrest]
        by_cases hc : column.name = c
        · rw [if_pos hc, if_pos (by rw [hc]; exact List.mem_cons_self), hc]
        · rw [if_neg hc, if_neg (by rw [List.mem_cons, not_or]; exact ⟨Ne.symm hc, hrest⟩)]

/-- A join renames the columns of its right side as it marks them. -/
theorem apply_rightRenames (l : Schema) {r : Schema} {c : String} (hc : c ∈ r.names) :
    (rightRenames l r).apply c = Rules.markedName l.names c := by
  have hmem : c ∈ (r.columns.filter fun column => l.contains column.name).map (·.name)
      ↔ c ∈ l.names := by
    rw [← Schema.contains_iff]
    constructor
    · intro h
      obtain ⟨column, hcolumn, rfl⟩ := List.mem_map.1 h
      exact (List.mem_filter.1 hcolumn).2
    · intro h
      obtain ⟨column, hcolumn, rfl⟩ := List.mem_map.1 hc
      exact List.mem_map.2 ⟨column, List.mem_filter.2 ⟨hcolumn, h⟩, rfl⟩
  rw [apply, rightRenames, newName?_foldl_insert _ _ (· ++ Rules.rightMark),
    Rules.markedName]
  by_cases h : c ∈ l.names
  · rw [if_pos (hmem.2 h), if_pos h]
    rfl
  · rw [if_neg (mt hmem.1 h), if_neg h]
    rfl

end Renames

/-! ## Select lists -/

/-- Of the item with the label, the select list hands on every column, under the
new name and no other. -/
structure Clauses.HandsOn (clauses : Clauses) (label : String) (names : List String)
    (newName : String → String) : Prop where
  named : ∀ e ∈ clauses.entries, ∀ c name, e.Passes label c name → name = newName c
  every : ∀ c ∈ names, ∃ e ∈ clauses.entries, e.Passes label c (newName c)

namespace Clauses

variable {clauses : Clauses} {label leftLabel rightLabel : String} {l r : List String}

theorem handsOn_all (h : clauses.entries = [.all label]) (names : List String) :
    clauses.HandsOn label names id := by
  refine ⟨?_, ?_⟩ <;> rw [h]
  · intro e he c name hpasses
    rw [List.mem_singleton.1 he] at hpasses
    cases hpasses
    rfl
  · exact fun c _ => ⟨_, List.mem_singleton_self _, .all label c⟩

theorem handsOn_filled {names : List String}
    (h : List.Forall₂ (fun e c => e = .column label c c ∨ ∃ f, e = .filled label c f)
      clauses.entries names) :
    clauses.HandsOn label names id := by
  refine ⟨fun e he c name hpasses => ?_, fun c hc => ?_⟩
  · obtain ⟨c', -, hentry⟩ := exists_of_forall₂_right (List.Forall₂.flip h) he
    rcases hentry with rfl | ⟨f, rfl⟩ <;> cases hpasses <;> rfl
  · obtain ⟨e, he, hentry⟩ := exists_of_forall₂_right h hc
    rcases hentry with rfl | ⟨f, rfl⟩
    · exact ⟨_, he, .column label c c⟩
    · exact ⟨_, he, .filled label c f⟩

theorem handsOn_left (h : clauses.entries = (l.map fun c => .column leftLabel c c)
      ++ r.map fun c => .column rightLabel c (Rules.markedName l c))
        (hne : leftLabel ≠ rightLabel) :
    clauses.HandsOn leftLabel l id := by
  refine ⟨?_, ?_⟩ <;> rw [h]
  · intro e he c name hpasses
    rcases List.mem_append.1 he with he | he <;> obtain ⟨c', -, rfl⟩ := List.mem_map.1 he
    · cases hpasses
      rfl
    · cases hpasses
      exact absurd rfl hne
  · exact fun c hc =>
      ⟨_, List.mem_append_left _ (List.mem_map_of_mem hc), .column leftLabel c c⟩

theorem handsOn_right (h : clauses.entries = (l.map fun c => .column leftLabel c c)
      ++ r.map fun c => .column rightLabel c (Rules.markedName l c))
        (hne : leftLabel ≠ rightLabel) :
    clauses.HandsOn rightLabel r (Rules.markedName l) := by
  refine ⟨?_, ?_⟩ <;> rw [h]
  · intro e he c name hpasses
    rcases List.mem_append.1 he with he | he <;> obtain ⟨c', -, rfl⟩ := List.mem_map.1 he
    · cases hpasses
      exact absurd rfl hne
    · cases hpasses
      rfl
  · exact fun c hc =>
      ⟨_, List.mem_append_right _ (List.mem_map_of_mem hc), .column rightLabel c _⟩

end Clauses

/-! ## Columns of queries -/

namespace Query

/-- `q.Carries table c name`: the column of that name holds the column `c` of the table, up
to replaced nulls. Every select list on the way hands the column on. A table that is an
item itself is meant as that item, whatever the item next to it holds. -/
inductive Carries : Query → Node → String → String → Prop where
  | own {q : Query} {c : String} (h : c ∈ q.outputs) : Carries q q.table c c
  | single {n : Node} {clauses : Clauses} {label : String} {source : Query} {renames : Bool}
    {table : Node} {c inner name : String} {e : Entry}
    (hsource : Carries source table c inner) (he : e ∈ clauses.entries)
    (hpasses : e.Passes label inner name) :
    Carries (.single n clauses label source renames) table c name
  | left {n : Node} {clauses : Clauses} {keyword leftLabel rightLabel : String}
    {predicates : List Fragment} {left right : Query} {changes : Renames} {table : Node}
    {c inner name : String} {e : Entry} (hother : table ≠ right.table)
    (hleft : Carries left table c inner) (he : e ∈ clauses.entries)
    (hpasses : e.Passes leftLabel inner name) :
    Carries (.joined n clauses keyword predicates leftLabel left rightLabel right changes)
      table c name
  | right {n : Node} {clauses : Clauses} {keyword leftLabel rightLabel : String}
    {predicates : List Fragment} {left right : Query} {changes : Renames} {table : Node}
    {c inner name : String} {e : Entry} (hother : table ≠ left.table)
    (hright : Carries right table c inner) (he : e ∈ clauses.entries)
    (hpasses : e.Passes rightLabel inner name) :
    Carries (.joined n clauses keyword predicates leftLabel left rightLabel right changes)
      table c name

/-- No join in the query gives two columns the same name. -/
def JoinsDistinct : Query → Prop
  | stored _ _ | rows _ _ _ => True
  | single _ _ _ source _ => source.JoinsDistinct
  | joined n clauses keyword predicates leftLabel left rightLabel right changes =>
    (joined n clauses keyword predicates leftLabel left rightLabel
      right changes).outputs.Nodup
      ∧ left.JoinsDistinct ∧ right.JoinsDistinct

/-- Queries that hand on every column of their items, and give their tables the
columns of their schemas. -/
inductive KeepsColumns : Query → Prop where
  | stored {n : Node} {name : String} (hkind : n.kind.sources = []) :
    KeepsColumns (.stored n name)
  | rows {n : Node} {first : List Entry} {rest : Fragment} (hkind : n.kind.sources = [])
    (hschema : ∀ s, n.outputSchema = .ok s → (Query.rows n first rest).outputs = s.names) :
    KeepsColumns (.rows n first rest)
  | single {n : Node} {clauses : Clauses} {label : String} {source : Query} (hn : n.Built)
    (hkind : n.kind.sources = ["table"])
    (hchild : n.child "table" = .ok source.table) (hopen : source.table.kind ≠ .aggregation)
    (hschema : n.outputSchema = source.table.outputSchema)
    (houtputs : (Query.single n clauses label source false).outputs = source.outputs)
    (hentries : clauses.HandsOn label source.outputs id) (hsource : KeepsColumns source) :
    KeepsColumns (.single n clauses label source false)
  | joined {n : Node} {clauses : Clauses} {keyword leftLabel rightLabel : String}
    {predicates : List Fragment}
    {left right : Query} {changes : Renames} (hn : n.Built)
      (hkind : n.kind.sources = ["left", "right"])
    (hleft : n.child "left" = .ok left.table) (hright : n.child "right" = .ok right.table)
    (hne : left.table ≠ right.table) (hleftOpen : left.table.kind ≠ .aggregation)
    (hrightOpen : right.table.kind ≠ .aggregation)
    (hlabels : leftLabel ≠ rightLabel)
    (houtputs : (Query.joined n clauses keyword predicates leftLabel left rightLabel
      right changes).outputs
      = Rules.markedNames left.outputs right.outputs)
    (hschema : ∀ s, n.outputSchema = .ok s →
      s.names = Rules.markedNames left.outputs right.outputs)
    (hleftEntries : clauses.HandsOn leftLabel left.outputs id)
    (hrightEntries : clauses.HandsOn rightLabel right.outputs
      (Rules.markedName left.outputs))
    (hchanges : ∀ c ∈ right.outputs, changes.apply c = Rules.markedName left.outputs c)
    (hl : KeepsColumns left) (hr : KeepsColumns right) :
    KeepsColumns (.joined n clauses keyword predicates leftLabel
      left rightLabel right changes)

variable {q source left right : Query} {n table : Node}
    {label leftLabel rightLabel keyword c name : String}
  {clauses : Clauses} {predicates : List Fragment} {changes renames : Renames} {s : Schema}

theorem KeepsColumns.outputs_eq (h : q.KeepsColumns) (hs : q.table.outputSchema = .ok s) :
    q.outputs = s.names := by
  induction h with
  | rows _ hschema => exact hschema s hs
  | stored _ =>
      simp only [table] at hs
      rw [outputs, Node.schema?_of_outputSchema hs]
      rfl
  | single _ _ _ _ hschema houtputs _ _ ih => rw [houtputs, ih (hschema ▸ hs)]
  | joined _ _ _ _ _ _ _ _ houtputs hschema => rw [houtputs, hschema s hs]

theorem flatMap_columns (item : String → List String) (label : String)
    (newName : String → String) (names : List String) :
    (names.map fun c => Entry.column label c (newName c)).flatMap
      (outputs.entryOutputs item) = names.map newName := by
  induction names with
  | nil => rfl
  | cons c rest ih => exact congrArg (newName c :: ·) ih

theorem flatMap_filled (item : String → List String) {entries : List Entry}
    {names : List String}
    (h : List.Forall₂ (fun e c => e = .column label c c ∨ ∃ f, e = .filled label c f)
      entries names) :
    entries.flatMap (outputs.entryOutputs item) = names := by
  induction h with
  | nil => rfl
  | cons hentry _ ih =>
      rw [List.flatMap_cons, ih]
      rcases hentry with rfl | ⟨f, rfl⟩ <;> rfl

theorem flatMap_values (item : String → List String) {entries : List Entry}
    {names : List String}
    (h : List.Forall₂ (fun e c => ∃ f, e = .value f c false) entries names) :
    entries.flatMap (outputs.entryOutputs item) = names := by
  induction h with
  | nil => rfl
  | cons hentry _ ih =>
      obtain ⟨f, rfl⟩ := hentry
      exact congrArg (_ :: ·) ih

theorem outputs_joined {l r : List String}
    (h : clauses.entries = (l.map fun c => .column leftLabel c c)
      ++ r.map fun c => .column rightLabel c (Rules.markedName l c)) :
    (Query.joined n clauses keyword predicates leftLabel left rightLabel
      right changes).outputs
      = Rules.markedNames l r := by
  rw [outputs, h, List.flatMap_append, flatMap_columns _ leftLabel fun c => c,
    flatMap_columns _ rightLabel, List.map_id', Rules.markedNames]

theorem Written.joinsDistinct_of_stored (h : q.Written)
    (hkind : q.table.kind.sources = []) : q.JoinsDistinct := by
  cases h with
  | stored _ | rows _ _ _ _ => exact trivial
  | whole hk _ _ _ _ =>
      have hsources : ∀ kind ∈ [NodeKind.selection, .limit, .distinct, .dropNa],
        kind.sources ≠ [] := by decide
      exact absurd hkind (hsources _ hk)
  | filled hk _ _ _ _ _ => rw [table, hk] at hkind; cases hkind
  | named hk _ _ _ =>
      rcases hk with ⟨hk, -⟩ | ⟨hk, -⟩ <;> rw [table, hk] at hkind <;> cases hkind
  | joined hk => rw [table, NodeKind.sources_of_wideJoin hk] at hkind; cases hkind
  | semi hk => rcases hk with hk | hk <;> rw [table, hk] at hkind <;> cases hkind

/-- The names that a join gives can be told from the schemas of its sides. -/
theorem Written.joinsDistinct_of_joined (h : q.Written)
    (hkind : q.table.kind ∈ NodeKind.wideJoins) {m k : Node}
    (hleft : q.table.child "left" = .ok m)
    (hright : q.table.child "right" = .ok k) {l r : Schema} (hl : m.outputSchema = .ok l)
    (hr : k.outputSchema = .ok r) (hnodup : (Rules.markedNames l.names r.names).Nodup)
    (hm : ∀ p : Query, p.Written → p.table = m → p.JoinsDistinct)
    (hk : ∀ p : Query, p.Written → p.table = k → p.JoinsDistinct) : q.JoinsDistinct := by
  cases h with
  | joined _ _ hleft' hright' _ hl' hr' hentries _ _ hleftWritten hrightWritten =>
      cases hleft.symm.trans hleft'
      cases hright.symm.trans hright'
      cases hl.symm.trans hl'
      cases hr.symm.trans hr'
      exact ⟨(outputs_joined hentries).symm ▸ hnodup, hm _ hleftWritten rfl,
        hk _ hrightWritten rfl⟩
  | stored hk | rows hk _ _ _ | filled hk _ _ _ _ _ =>
      simp [table, hk, NodeKind.mem_wideJoins] at hkind
  | whole hk _ _ _ _ =>
      have hother : ∀ kind ∈ [NodeKind.selection, .limit, .distinct, .dropNa],
        kind ∉ NodeKind.wideJoins := by decide
      exact absurd hkind (hother _ hk)
  | named hk _ _ _ =>
      rcases hk with ⟨hk, -⟩ | ⟨hk, -⟩ <;> simp [table, hk, NodeKind.mem_wideJoins] at hkind
  | semi hk => rcases hk with hk | hk <;> simp [table, hk, NodeKind.mem_wideJoins] at hkind

theorem Written.keepsColumns (h : q.Written) (hq : q.table.Built)
    (hkeeps : q.table.KeepsColumns) (hdistinct : q.JoinsDistinct)
    (hlabels : q.labels.Nodup) : q.KeepsColumns := by
  induction h with
  | stored hkind => exact .stored (congrArg NodeKind.sources hkind)
  | rows hkind hschema hentries =>
      refine .rows (congrArg NodeKind.sources hkind) fun s hs => ?_
      cases hschema.symm.trans hs
      exact flatMap_values _ hentries
  | @whole n clauses label source hkind hchild hentries _ _ ih =>
      have hsources : ∀ kind ∈ [NodeKind.selection, .limit, .distinct, .dropNa],
        kind.sources = ["table"] := by decide
      obtain ⟨hchosen, hsource⟩ := hkeeps.of_one (hsources _ hkind) hchild
      refine .single hq (hsources _ hkind) hchild hsource.ne_aggregation
        (hq.outputSchema_of_chosen hchosen hchild) ?_
        (Clauses.handsOn_all hentries _)
          (ih (hq.of_child hchild) hsource hdistinct (List.nodup_append.1 hlabels).1)
      rw [outputs, hentries]
      exact List.append_nil _
  | @filled n clauses label source schema hkind hchild hschema hentries _ _ ih =>
      have hsources : n.kind.sources = ["table"] := by rw [hkind]; rfl
      obtain ⟨hchosen, hsource⟩ := hkeeps.of_one hsources hchild
      have hk := ih (hq.of_child hchild) hsource hdistinct (List.nodup_append.1 hlabels).1
      have hnames := hk.outputs_eq hschema
      refine .single hq hsources hchild hsource.ne_aggregation
        (hq.outputSchema_of_chosen hchosen hchild) ?_
        (Clauses.handsOn_filled (hnames ▸ hentries)) hk
      rw [outputs, hnames, flatMap_filled _ hentries]
  | @named n clauses label source renames hkind hchild _ _ ih =>
      rcases hkind with ⟨hkind, -⟩ | ⟨hkind, hlist, -⟩
      · exact absurd hkind hkeeps.ne_aggregation
      · rcases (hkeeps.of_one (congrArg NodeKind.sources hkind) hchild).1
          with hchosen | ⟨-, hnone⟩
        · simp [show n.kind = .selection from hkind, table] at hchosen
        · exact absurd hnone hlist
  | @joined n clauses keyword leftLabel rightLabel predicates left right l r hkind _ hleft
      hright hne hl hr hentries _ _ _ _
      ihLeft ihRight =>
      obtain ⟨-, hleftKeeps, hrightKeeps⟩ :=
        hkeeps.of_two (NodeKind.sources_of_wideJoin hkind) hleft hright
      obtain ⟨hnodup, hleftDistinct, hrightDistinct⟩ := hdistinct
      obtain ⟨hleftLabels, hrightLabels, hdisjoint⟩ := List.nodup_append.1 hlabels
      have hlabels : leftLabel ≠ rightLabel := hdisjoint _ (by simp) _ (by simp)
      have hkl := ihLeft (hq.of_child hleft) hleftKeeps hleftDistinct
        (List.nodup_append.1 hleftLabels).1
      have hkr := ihRight (hq.of_child hright) hrightKeeps hrightDistinct
        (List.nodup_append.1 hrightLabels).1
      have hleftNames := hkl.outputs_eq hl
      have hrightNames := hkr.outputs_eq hr
      have houtputs :
          (Query.joined n clauses keyword predicates leftLabel left rightLabel right
          (rightRenames l r)).outputs = Rules.markedNames left.outputs right.outputs := by
        rw [outputs_joined hentries, hleftNames, hrightNames]
      have hfree : ¬ Rules.Clash left.outputs right.outputs := fun hclash =>
        Rules.not_nodup_of_clash hclash (houtputs ▸ hnodup)
      obtain ⟨left', right', l', r', s, hj⟩ := hq.joins hkind
      obtain ⟨hl', hr'⟩ := hj.of_children hleft hright
      refine .joined hq (NodeKind.sources_of_wideJoin hkind) hleft hright hne
        hleftKeeps.ne_aggregation
        hrightKeeps.ne_aggregation hlabels houtputs ?_ ?_ ?_ ?_ hkl hkr
      · intro s' hs'
        cases hs'.symm.trans hj.schema
        subst hl' hr'
        cases hl.symm.trans hj.leftSchema
        cases hr.symm.trans hj.rightSchema
        rw [hleftNames, hrightNames] at hfree ⊢
        exact hj.schema_names_iff.2 hfree
      · rw [hleftNames]
        exact Clauses.handsOn_left hentries hlabels
      · rw [hleftNames, hrightNames]
        exact Clauses.handsOn_right hentries hlabels
      · rw [hleftNames, hrightNames]
        exact fun c hc => Renames.apply_rightRenames l hc
  | semi hkind _ hleft hright =>
      have hsources : ∀ kind : NodeKind, kind = .leftSemiJoin ∨ kind = .leftAntiJoin →
          kind.sources = ["left", "right"] ∧ kind ∉ NodeKind.wideJoins := by
        rintro kind (rfl | rfl) <;> decide
      obtain ⟨htwo, hnot⟩ := hsources _ hkind
      exact absurd (hkeeps.of_two htwo hleft hright).1 hnot

namespace KeepsColumns

theorem mem_outputs (h : q.KeepsColumns) (hc : q.Carries table c name) :
    name ∈ q.outputs := by
  induction hc with
  | own hown => exact hown
  | single _ he hpasses ih =>
      cases h with
      | single _ _ _ _ _ houtputs hentries hsource =>
          rw [houtputs, hentries.named _ he _ _ hpasses]
          exact ih hsource
  | left _ _ he hpasses ih =>
      cases h with
      | joined _ _ _ _ _ _ _ _ houtputs _ hentries _ _ hl _ =>
          rw [houtputs, hentries.named _ he _ _ hpasses]
          exact List.mem_append_left _ (ih hl)
  | right _ _ he hpasses ih =>
      cases h with
      | joined _ _ _ _ _ _ _ _ houtputs _ _ hentries _ _ hr =>
          rw [houtputs, hentries.named _ he _ _ hpasses]
          exact List.mem_append_right _ (List.mem_map_of_mem (ih hr))

/-- Its own columns a query holds under their names, and otherwise only those
of tables within reach. -/
theorem own_or_reaches (h : q.KeepsColumns) (hc : q.Carries table c name) :
    table = q.table ∧ name = c ∨ q.table.Reaches table := by
  have hitem : ∀ {m : Node} {inner : String}, m.kind ≠ .aggregation →
      table = m ∧ inner = c ∨ m.Reaches table →
      table = m ∨ m.kind ≠ .aggregation ∧ m.Reaches table :=
    fun hopen hm => hm.imp And.left fun hreach => ⟨hopen, hreach⟩
  induction hc with
  | own _ => exact Or.inl ⟨rfl, rfl⟩
  | single _ _ _ ih =>
      cases h with
      | single _ hkind hchild hopen _ _ _ hsource =>
          exact Or.inr
            ((Node.Reaches.iff_of_one hkind hchild).2 (hitem hopen (ih hsource hitem)))
  | left _ _ _ _ ih =>
      cases h with
      | joined _ hkind hleft hright _ hopen _ _ _ _ _ _ _ hl _ =>
          exact Or.inr
            ((Node.Reaches.iff_of_two hkind hleft hright).2
              (Or.inl (hitem hopen (ih hl hitem))))
  | right _ _ _ _ ih =>
      cases h with
      | joined _ hkind hleft hright _ _ hopen _ _ _ _ _ _ _ hr =>
          exact Or.inr
            ((Node.Reaches.iff_of_two hkind hleft hright).2
              (Or.inr (hitem hopen (ih hr hitem))))

theorem reaches_of_carries (h : q.KeepsColumns) (hc : q.Carries table c name) :
    table = q.table ∨ q.table.Reaches table :=
  (h.own_or_reaches hc).imp_left And.left

theorem eq_of_carries_own (h : q.KeepsColumns) (hq : q.table.Built)
    (hc : q.Carries q.table c name) : name = c := by
  rcases h.own_or_reaches hc with ⟨-, heq⟩ | hreach
  · exact heq
  · exact absurd rfl (hreach.ne hq)

theorem reach?_ne_none_iff (h : q.KeepsColumns) (htable : table.Built) :
    q.scope.reach? table ≠ none ↔ q.table.Reaches table := by
  induction h with
  | stored hkind | rows hkind _ =>
      exact iff_of_false (fun h => h rfl) (Node.not_reaches hkind)
  | single hn hkind hchild _ _ _ _ _ ih =>
      exact reach?_single_ne_none_iff hn hkind hchild htable ih
  | joined hn hkind hleft hright _ _ _ _ _ _ _ _ _ _ _ ihLeft ihRight =>
      exact reach?_joined_ne_none_iff hn hkind hleft hright htable ihLeft ihRight

end KeepsColumns

/-! ## Names in scope -/

/-- The query holds the columns of the table under the new names, and nowhere else. -/
def Finds (q : Query) (table : Node) (renames : Renames) : Prop :=
  ∀ s, table.outputSchema = .ok s → ∀ c ∈ s.names, ∀ name,
    q.Carries table c name ↔ name = renames.apply c

namespace KeepsColumns

variable {l : String} {direct : Bool}

/-- The query as an item: its own columns keep their names. -/
theorem finds_reachAs (h : q.KeepsColumns) (hq : q.table.Built) (htable : table.Built)
    (hscope : ∀ l direct renames, q.scope.reach? table = some (.through l direct renames) →
      q.Finds table renames)
    (hreach : q.reachAs label table = some (.through l direct renames)) :
    l = label ∧ (direct = true → table = q.table) ∧ q.Finds table renames := by
  unfold reachAs at hreach
  split at hreach
  · next heq =>
      cases hreach
      obtain rfl : q.table = table := hq.eq_of_beq htable heq
      refine ⟨rfl, fun _ => rfl, fun s hs c hc name => ⟨h.eq_of_carries_own hq, ?_⟩⟩
      rintro rfl
      exact .own (by rw [h.outputs_eq hs]; exact hc)
  · obtain ⟨inside, hinside, hexported⟩ := Option.map_eq_some_iff.1 hreach
    cases inside with
    | ambiguous => cases hexported
    | through l' direct' renames' =>
        cases hexported
        exact ⟨rfl, nofun, hscope _ _ _ (reach?_of_inside hinside)⟩

theorem finds_single (h : (Query.single n clauses label source false).KeepsColumns)
    (hfinds : source.Finds table renames) :
    (Query.single n clauses label source false).Finds table renames := by
  cases h with
  | single hn hkind hchild hopen _ _ hentries hsource =>
      intro s hs c hc name
      have hcarries : source.Carries table c (renames.apply c) := (hfinds s hs c hc _).2 rfl
      constructor
      · intro hname
        cases hname with
        | own _ =>
            have hreach := (Node.Reaches.iff_of_one hkind hchild).2
              ((hsource.reaches_of_carries hcarries).imp_right fun h => ⟨hopen, h⟩)
            exact absurd rfl (hreach.ne hn)
        | single hinner he hpasses =>
            rw [hentries.named _ he _ _ hpasses]
            exact (hfinds s hs c hc _).1 hinner
      · rintro rfl
        obtain ⟨e, he, hpasses⟩ := hentries.every _ (hsource.mem_outputs hcarries)
        exact .single hcarries he hpasses

theorem finds_left
    (h : (Query.joined n clauses keyword predicates leftLabel left rightLabel
      right changes).KeepsColumns)
    (hfinds : left.Finds table renames) (hother : table ≠ right.table)
    (honly : right.table.Reaches table → table = left.table) :
    (Query.joined n clauses keyword predicates leftLabel left rightLabel
      right changes).Finds table renames := by
  cases h with
  | joined hn hkind hleft hright _ hopen _ _ _ _ hentries _ _ hl hr =>
      intro s hs c hc name
      have hcarries : left.Carries table c (renames.apply c) := (hfinds s hs c hc _).2 rfl
      constructor
      · intro hname
        cases hname with
        | own _ =>
            have hreach := (Node.Reaches.iff_of_two hkind hleft hright).2
              (Or.inl ((hl.reaches_of_carries hcarries).imp_right fun h => ⟨hopen, h⟩))
            exact absurd rfl (hreach.ne hn)
        | left _ hinner he hpasses =>
            rw [hentries.named _ he _ _ hpasses]
            exact (hfinds s hs c hc _).1 hinner
        | right hself hinner _ _ =>
            exact absurd (honly ((hr.reaches_of_carries hinner).resolve_left hother)) hself
      · rintro rfl
        obtain ⟨e, he, hpasses⟩ := hentries.every _ (hl.mem_outputs hcarries)
        exact .left hother hcarries he hpasses

theorem finds_right
    (h : (Query.joined n clauses keyword predicates leftLabel left rightLabel
      right changes).KeepsColumns)
    (hfinds : right.Finds table renames) (hother : table ≠ left.table)
    (honly : left.table.Reaches table → table = right.table) :
    (Query.joined n clauses keyword predicates leftLabel left rightLabel
      right changes).Finds table
      (renames.andThen changes) := by
  cases h with
  | joined hn hkind hleft hright _ _ hopen _ _ _ _ hentries hchanges hl hr =>
      intro s hs c hc name
      have hcarries : right.Carries table c (renames.apply c) := (hfinds s hs c hc _).2 rfl
      have hmem := hr.mem_outputs hcarries
      rw [Renames.apply_andThen, hchanges _ hmem]
      constructor
      · intro hname
        cases hname with
        | own _ =>
            have hreach := (Node.Reaches.iff_of_two hkind hleft hright).2
              (Or.inr ((hr.reaches_of_carries hcarries).imp_right fun h => ⟨hopen, h⟩))
            exact absurd rfl (hreach.ne hn)
        | left hself hinner _ _ =>
            exact absurd (honly ((hl.reaches_of_carries hinner).resolve_left hother)) hself
        | right _ hinner he hpasses =>
            rw [hentries.named _ he _ _ hpasses, (hfinds s hs c hc _).1 hinner]
      · rintro rfl
        obtain ⟨e, he, hpasses⟩ := hentries.every _ hmem
        exact .right hother hcarries he hpasses

/-- A table is found in the scope of a query under the names that its columns have there. -/
theorem finds (h : q.KeepsColumns) (htable : table.Built)
    (hreach : q.scope.reach? table = some (.through l direct renames)) :
    q.Finds table renames := by
  induction h generalizing l direct renames with
  | stored _ | rows _ _ => cases hreach
  | single hn hkind hchild hopen hschema houtputs hentries hsource ih =>
      rw [reach?_single] at hreach
      obtain ⟨reach, hreachAs, heq⟩ := Option.map_eq_some_iff.1 hreach
      cases heq
      obtain ⟨-, -, hfinds⟩ :=
        hsource.finds_reachAs (hn.of_child hchild) htable (fun _ _ _ => ih) hreachAs
      exact finds_single
        (.single hn hkind hchild hopen hschema houtputs hentries hsource) hfinds
  | @joined n clauses keyword leftLabel rightLabel predicates left right changes hn hkind
      hleft hright hne hleftOpen
      hrightOpen hlabels houtputs hschema hleftEntries hrightEntries hchanges hl hr
        ihLeft ihRight =>
      have hq : (Query.joined n clauses keyword predicates leftLabel left rightLabel
          right changes).KeepsColumns :=
        .joined hn hkind hleft hright hne hleftOpen hrightOpen hlabels houtputs hschema
          hleftEntries hrightEntries
          hchanges hl hr
      have hleftFound : left.reachAs leftLabel table ≠ none
          ↔ table = left.table ∨ left.table.Reaches table := by
        rw [reachAs_ne_none_iff (hn.of_child hleft) htable,
          inside_ne_none_iff (hl.reach?_ne_none_iff htable)]
        simp [hleftOpen]
      have hrightFound : right.reachAs rightLabel table ≠ none
          ↔ table = right.table ∨ right.table.Reaches table := by
        rw [reachAs_ne_none_iff (hn.of_child hright) htable,
          inside_ne_none_iff (hr.reach?_ne_none_iff htable)]
        simp [hrightOpen]
      -- What is found through one item only, or through one of which the table is the item
      -- itself.
      have hfromLeft : ∀ {known}, left.reachAs leftLabel table = some known →
          (table = right.table ∨ right.table.Reaches table → known.isDirect = true) →
          known.rename rightLabel changes = .through l direct renames →
          (Query.joined n clauses keyword predicates leftLabel left rightLabel
              right changes).Finds table renames := by
        intro known hreach hboth hrename
        cases known with
        | ambiguous => cases hrename
        | through l' direct' renames' =>
            obtain ⟨rfl, hdirect, hfinds⟩ :=
              hl.finds_reachAs (hn.of_child hleft) htable (fun _ _ _ => ihLeft) hreach
            rw [Reach.rename, if_neg hlabels] at hrename
            cases hrename
            have hself : table = right.table ∨ right.table.Reaches table →
                table = left.table :=
              fun h => hdirect (hboth h)
            exact finds_left hq hfinds (fun h => hne ((hself (Or.inl h)).symm.trans h))
              fun h => hself (Or.inr h)
      have hfromRight : ∀ {known}, right.reachAs rightLabel table = some known →
          (table = left.table ∨ left.table.Reaches table → known.isDirect = true) →
          known.rename rightLabel changes = .through l direct renames →
          (Query.joined n clauses keyword predicates leftLabel left rightLabel
              right changes).Finds table renames := by
        intro known hreach hboth hrename
        cases known with
        | ambiguous => cases hrename
        | through l' direct' renames' =>
            obtain ⟨rfl, hdirect, hfinds⟩ :=
              hr.finds_reachAs (hn.of_child hright) htable (fun _ _ _ => ihRight) hreach
            rw [Reach.rename, if_pos rfl] at hrename
            cases hrename
            have hself : table = left.table ∨ left.table.Reaches table →
                table = right.table :=
              fun h => hdirect (hboth h)
            exact finds_right hq hfinds (fun h => hne (h.symm.trans (hself (Or.inl h))))
              fun h => hself (Or.inr h)
      rw [reach?_joined] at hreach
      obtain ⟨reach, hreach, hrename⟩ := Option.map_eq_some_iff.1 hreach
      by_cases hself : right.table == table
      · rw [if_pos hself] at hreach
        exact hfromRight (by rw [reachAs, if_pos hself, hreach])
          (fun _ => by cases hreach; rfl) hrename
      · have hreachAs : right.reachAs rightLabel table
            = (right.inside.reach? table).map (Reach.exported rightLabel) := by
          rw [reachAs, if_neg hself]
        rw [if_neg hself] at hreach
        cases hinside : right.inside.reach? table with
        | none =>
            rw [hinside] at hreach hreachAs
            exact hfromLeft hreach
              (fun hother => absurd hreachAs (hrightFound.2 hother)) hrename
        | some inside =>
            rw [hinside] at hreach hreachAs
            cases hother : left.reachAs leftLabel table with
            | none =>
                rw [hother] at hreach
                exact hfromRight (hreachAs.trans hreach)
                  (fun h => absurd hother (hleftFound.2 h)) hrename
            | some known =>
                rw [hother] at hreach
                cases hreach
                rw [Reach.beside] at hrename
                split at hrename
                · next hdirect => exact hfromLeft hother (fun _ => hdirect) hrename
                · cases hrename

/-- What is found to be ambiguous is. -/
theorem ambiguous (h : q.KeepsColumns) (htable : table.Built)
    (hreach : q.scope.reach? table = some .ambiguous) :
    q.table.Ambiguous table := by
  induction h with
  | stored _ | rows _ _ => cases hreach
  | @single n _ _ _ hn hkind hchild _ _ _ _ _ ih =>
      have hfield : "table" ∈ n.kind.sources := by rw [hkind]; decide
      rw [reach?_single] at hreach
      obtain ⟨reach, hreachAs, heq⟩ := Option.map_eq_some_iff.1 hreach
      cases heq
      exact .within hfield hchild (ih (reach?_of_reachAs hreachAs))
  | @joined n clauses keyword leftLabel rightLabel predicates left right changes hn hkind
      hleft hright _ _ _ _ _ _ _ _ _
      hl hr ihLeft ihRight =>
      have hfields : "left" ∈ n.kind.sources ∧ "right" ∈ n.kind.sources := by
        rw [hkind]; decide
      rw [reach?_joined] at hreach
      obtain ⟨reach, hreach, hrename⟩ := Option.map_eq_some_iff.1 hreach
      obtain rfl : reach = .ambiguous := by
        cases reach with
        | ambiguous => rfl
        | through l direct renames =>
            rw [Reach.rename] at hrename
            split at hrename <;> cases hrename
      split at hreach
      · cases hreach
      · cases hinside : right.inside.reach? table with
        | none =>
            rw [hinside] at hreach
            exact .within hfields.1 hleft (ihLeft (reach?_of_reachAs hreach))
        | some inside =>
            rw [hinside] at hreach
            have hrightReach := (inside_ne_none_iff (hr.reach?_ne_none_iff htable)).1
              (hinside ▸ Option.some_ne_none inside)
            cases hknown : left.reachAs leftLabel table with
            | none =>
                rw [hknown] at hreach
                refine .within hfields.2 hright (ihRight (reach?_of_inside ?_))
                cases inside with
                | ambiguous => exact hinside
                | through _ _ _ => cases hreach
            | some known =>
                rw [hknown] at hreach
                simp only [Reach.beside] at hreach
                -- A table that is the left item itself is found there.
                have hnotDirect : ¬ known.isDirect = true := by
                  intro hdirect
                  rw [if_pos hdirect] at hreach
                  cases hreach
                  cases hdirect
                have hself : table ≠ left.table := by
                  rintro rfl
                  rw [reachAs, if_pos BEq.rfl] at hknown
                  cases hknown
                  exact hnotDirect rfl
                have hfound := (reachAs_ne_none_iff (hn.of_child hleft) htable).1
                  (hknown ▸ Option.some_ne_none known)
                exact .here hkind hleft hright
                  ((inside_ne_none_iff (hl.reach?_ne_none_iff htable)).1
                    (hfound.resolve_left hself)) hrightReach

end KeepsColumns

end Query

end Sql

end TypedQuery
