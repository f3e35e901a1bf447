import TypedQuery.Proofs.Sql.Query
import TypedQuery.Proofs.Sql.Spelling

/-!
# Texts of tables are queries

Wherever the rule for a table succeeds, the text is that of a `Query`, and the statement
that is left behind can be read off it: the scope is that of the query, and the labels are
numbered on by as many as the query introduces.
-/

namespace TypedQuery.Sql

open Emission

/-! ## Queries as they are written -/

/-- What the rules make of tables. Only a selection with items and an
aggregation have entries of their own; the entries of all other tables hand on
the columns of their items. -/
inductive Query.Written : Query → Prop where
  | stored {table : Node} {name : String} (hkind : table.kind = .databaseTable)
    (hname : table.stringField "name" = .ok name) : Written (.stored table name)
  | rows {table : Node} {first : List Entry} {rest : Fragment} {schema : Schema}
    (hkind : table.kind = .inMemoryTable) (hschema : table.outputSchema = .ok schema)
    (hentries : List.Forall₂ (fun e c => ∃ f, e = .value f c false) first schema.names)
    (hlabels : first.flatMap Entry.labels ++ rest.labels = []) :
    Written (.rows table first rest)
  | whole {table : Node} {clauses : Clauses} {label : String} {source : Query}
    (hkind : table.kind ∈ [.selection, .limit, .distinct, .dropNa])
    (hchild : table.child "table" = .ok source.table)
    (hentries : clauses.entries = [.all label]) (hlabels : ∀ l ∈ clauses.labels, l = label)
    (hsource : source.Written) : Written (.single table clauses label source false)
  | filled {table : Node} {clauses : Clauses} {label : String} {source : Query}
    {schema : Schema}
    (hkind : table.kind = .fillNa) (hchild : table.child "table" = .ok source.table)
    (hschema : source.table.outputSchema = .ok schema)
    (hentries : List.Forall₂
      (fun e c => e = .column label c c ∨ ∃ f, e = .filled label c f) clauses.entries
      schema.names)
    (hlabels : ∀ l ∈ clauses.labels, l = label) (hsource : source.Written) :
    Written (.single table clauses label source false)
  | named {table : Node} {clauses : Clauses} {label : String} {source : Query}
    {renames : Bool}
    (hkind : table.kind = .aggregation ∧ renames = false
      ∨ table.kind = .selection ∧ table.childList "selections" ≠ .ok [] ∧ renames = true)
    (hchild : table.child "table" = .ok source.table)
    (hlabels : ∀ l ∈ clauses.labels, l = label) (hsource : source.Written) :
    Written (.single table clauses label source renames)
  | joined {table : Node} {clauses : Clauses} {keyword leftLabel rightLabel : String}
    {predicates : List Fragment} {left right : Query} {l r : Schema}
    (hkind : table.kind ∈ NodeKind.wideJoins) (hkeyword : IsPlain keyword)
    (hleft : table.child "left" = .ok left.table)
    (hright : table.child "right" = .ok right.table) (hne : left.table ≠ right.table)
    (hl : left.table.outputSchema = .ok l) (hr : right.table.outputSchema = .ok r)
    (hentries : clauses.entries = (l.names.map fun c => .column leftLabel c c)
      ++ r.names.map fun c => .column rightLabel c (Rules.markedName l.names c))
    (hlabels : ∀ l ∈ predicates.flatMap Fragment.labels, l = leftLabel ∨ l = rightLabel)
    (hplain : clauses.filters = [] ∧ clauses.orderBy = []) (hleftWritten : left.Written)
    (hrightWritten : right.Written) :
    Written (.joined table clauses keyword predicates leftLabel left rightLabel
      right (rightRenames l r))
  | semi {table : Node} {clauses : Clauses} {keyword leftLabel rightLabel : String}
    {predicates : List Fragment} {left right : Query}
    (hkind : table.kind = .leftSemiJoin ∨ table.kind = .leftAntiJoin)
    (hkeyword : IsPlain keyword) (hleft : table.child "left" = .ok left.table)
    (hright : table.child "right" = .ok right.table)
    (hentries : clauses.entries = [.all leftLabel])
    (hlabels : ∀ l ∈ predicates.flatMap Fragment.labels, l = leftLabel ∨ l = rightLabel)
    (hplain : clauses.filters = [] ∧ clauses.orderBy = []) (hleftWritten : left.Written)
    (hrightWritten : right.Written) :
    Written (.joined table clauses keyword predicates leftLabel left rightLabel right [])

def Statement.label (i : Nat) : String := "t" ++ toString i

/-- The labels with so many numbers, from a number on. -/
def Statement.labelsFrom (first count : Nat) : List String :=
  (List.range' first count).map label

theorem Statement.label_injective : Function.Injective label := by
  intro i j h
  have h := (String.append_right_inj "t").1 h
  rw [Nat.toString_eq_ofList_toDigits, Nat.toString_eq_ofList_toDigits,
    String.ofList_inj] at h
  rw [← Nat.ofDigitChars_toDigits (by decide : 1 < 10) (Nat.le_refl 10) (n := i), h,
    Nat.ofDigitChars_toDigits (by decide) (Nat.le_refl 10)]

theorem Statement.nodup_labelsFrom (first count : Nat) : (labelsFrom first count).Nodup :=
  (List.nodup_range').map label_injective

theorem Statement.labelsFrom_append (first count more : Nat) :
    labelsFrom first count ++ labelsFrom (first + count) more
      = labelsFrom first (count + more) := by
  rw [labelsFrom, labelsFrom, labelsFrom, ← List.map_append, List.range'_append_1]

/-- The text of a table, written from the statement `s` on, and the statement it leaves. -/
structure Writes (s : Statement) (n : Node) (text : String) (after : Statement)
    (q : Query) : Prop where
  table : q.table = n
  written : q.Written
  text : q.text s.config.identifierQuote = text
  labels : q.labels = Statement.labelsFrom s.labels q.labels.length
  after : after = { s with scope := q.scope, labels := s.labels + q.labels.length }

/-- The same of a table as an item of a `FROM` clause, with its label. -/
structure Brings (s : Statement) (n : Node) (item : String × String) (after : Statement)
    (q : Query) : Prop where
  table : q.table = n
  fresh : ∀ reach, s.scope.reach? n = some reach → reach.isDirect = false
  written : q.Written
  text : q.item s.config.identifierQuote item.2 = item.1
  labels : q.labels ++ [item.2] = Statement.labelsFrom s.labels (q.labels.length + 1)
  after : after =
    { s with
      scope := s.scope.withItem item.2 n q.inside
      labels := s.labels + (q.labels.length + 1) }

/-! ## Labels in scope -/

namespace Scope

variable {scope : Scope} {table : Node} {l : String}

theorem labels_cons (t : Node) (reach : Reach) (rest : Scope)
    (hl : l ∈ Scope.labels ((t, reach) :: rest)) :
    (∃ d r, reach = .through l d r) ∨ l ∈ Scope.labels rest := by
  cases reach with
  | through label d r =>
      rcases List.mem_cons.1 hl with rfl | hl
      · exact Or.inl ⟨d, r, rfl⟩
      · exact Or.inr hl
  | ambiguous => exact Or.inr hl

theorem labels_insert {reach : Reach} (hl : l ∈ (scope.insert table reach).labels) :
    (∃ d r, reach = .through l d r) ∨ l ∈ scope.labels := by
  induction scope with
  | nil => exact labels_cons table reach [] hl
  | cons x rest ih =>
      obtain ⟨t, known⟩ := x
      rw [insert] at hl
      split at hl
      · rcases labels_cons t reach rest hl with hl | hl
        · exact Or.inl hl
        · exact Or.inr (by cases known <;> simp_all [labels])
      · rcases labels_cons t known _ hl with ⟨d, r, rfl⟩ | hl
        · exact Or.inr List.mem_cons_self
        · rcases ih hl with hl | hl
          · exact Or.inl hl
          · exact Or.inr (by cases known <;> simp_all [labels])

theorem labels_bringIn {label : String} {reach : Reach}
    (hl : l ∈ (scope.bringIn label table reach).labels) :
    l = label ∨ l ∈ scope.labels := by
  unfold bringIn at hl
  split at hl
  · rcases labels_insert hl with ⟨d, r, hreach⟩ | hl
    · cases reach <;> cases hreach
      exact Or.inl rfl
    · exact Or.inr hl
  · split at hl
    · exact Or.inr hl
    · rcases labels_insert hl with ⟨d, r, hreach⟩ | hl
      · cases hreach
      · exact Or.inr hl

/-- A new item only adds its own label. -/
theorem labels_withItem {label : String} {inside : Scope}
    (hl : l ∈ (scope.withItem label table inside).labels) :
    l = label ∨ l ∈ scope.labels := by
  have hinsert : l ∈ (scope.insert table (.through label true [])).labels →
      l = label ∨ l ∈ scope.labels := by
    intro hl
    rcases labels_insert hl with ⟨d, r, hreach⟩ | hl
    · cases hreach
      exact Or.inl rfl
    · exact Or.inr hl
  unfold withItem at hl
  generalize scope.insert table (.through label true []) = start at hl hinsert
  induction inside generalizing start with
  | nil => exact hinsert hl
  | cons x rest ih =>
      refine ih _ hl fun hl => ?_
      rcases labels_bringIn hl with hl | hl
      · exact Or.inl hl
      · exact hinsert hl

end Scope

/-! ## Items of a FROM clause -/

namespace Query.Written

theorem item_eq {q : Query} (h : q.Written) (hkind : q.table.kind ≠ .databaseTable)
    (quote : Char) (label : String) :
    q.item quote label = "(" ++ q.text quote ++ ") " ++ label := by
  cases h with
  | stored h _ => exact absurd h hkind
  | _ => rfl

end Query.Written

theorem Statement.bind_eq_ok {s after : Statement} {table : Node} {label : String}
    (h : s.bind table = .ok (label, after)) :
    (∀ reach, s.scope.reach? table = some reach → reach.isDirect = false)
      ∧ label = Statement.label s.labels
      ∧ after =
        { s with
          scope := s.scope.insert table (.through label true [])
          labels := s.labels + 1 } := by
  unfold bind at h
  split at h
  · cases h
  · next hnew =>
      cases h
      refine ⟨fun reach hreach => ?_, rfl, rfl⟩
      rw [hreach] at hnew
      exact Bool.eq_false_iff.2 hnew

theorem fromItem_brings {emit : Node → Writing String} {n : Node} {s : Statement}
    {memo : Option (List (Node × String))} {item : String × String}
    {after : Session Statement String}
    (hemit : ∀ s text after, s.scope = [] →
      (emit n).run ⟨s, memo.map fun _ => []⟩ = (.ok text, after) →
      ∃ q, Writes s n text after.target q)
    (h : (fromItem emit n).run ⟨s, memo⟩ = (.ok item, after)) :
    ∃ q, Brings s n item after.target q ∧ after.memo = memo := by
  unfold fromItem at h
  split at h
  · next hkind =>
      obtain ⟨name, hname, h⟩ := run_lift_bind_eq_ok h
      rw [run_target_bind] at h
      obtain ⟨label, t, hbind, h⟩ := run_change_bind_eq_ok h
      cases h
      obtain ⟨hfresh, hlabel, rfl⟩ := Statement.bind_eq_ok hbind
      refine ⟨.stored n name, ⟨rfl, hfresh, .stored hkind hname, rfl, ?_, ?_⟩, rfl⟩
      · rw [hlabel]
        rfl
      · simp [Query.inside, Query.exported, Query.scope, Scope.withItem, Query.labels]
  · next hkind =>
      obtain ⟨u, opened, hopen, h⟩ := run_bind_eq_ok h
      cases hopen
      obtain ⟨result, inner, hattempt, h⟩ := run_bind_eq_ok h
      obtain ⟨tables, t, hclose, h⟩ := run_change_bind_eq_ok h
      obtain ⟨text, hresult, hrest⟩ := run_lift_bind_eq_ok h
      obtain ⟨label, t', hbind, hlast⟩ := run_change_bind_eq_ok hrest
      subst hresult
      rw [run_attempt_isolated] at hattempt
      rcases hrun : (emit n).run ⟨s.openScope, memo.map fun _ => []⟩ with ⟨result, last⟩
      simp only [] at hattempt
      rw [hrun] at hattempt
      cases hattempt
      obtain ⟨q, hq⟩ := hemit s.openScope text last rfl hrun
      -- The scope that is closed is that of the query.
      rw [hq.after] at hclose
      cases hclose
      obtain ⟨hfresh, hlabel, rfl⟩ := Statement.bind_eq_ok hbind
      have hitem : q.item s.config.identifierQuote label = "(" ++ text ++ ") " ++ label := by
        rw [hq.written.item_eq (hq.table ▸ hkind), ← hq.text]
        rfl
      have hlabels : q.labels ++ [label]
          = Statement.labelsFrom s.labels (q.labels.length + 1) := by
        rw [hlabel, ← Statement.labelsFrom_append,
          ← show q.labels = Statement.labelsFrom s.labels _ from hq.labels]
        rfl
      simp only [] at hlast
      split at hlast
      · next hopen =>
          cases hlast
          refine ⟨q, ⟨hq.table, hfresh, hq.written, hitem, hlabels, ?_⟩, rfl⟩
          rw [Query.inside, Query.exported, hq.table, if_neg hopen]
          rfl
      · next hclosed =>
          cases hlast
          refine ⟨q, ⟨hq.table, hfresh, hq.written, hitem, hlabels, ?_⟩, rfl⟩
          rw [Query.inside, Query.exported, hq.table, if_pos (not_not.1 hclosed)]
          rfl

/-! ## Lists of texts -/

theorem exists_map_eq {α β : Type} {f : α → β} {P : α → Prop} {ys : List β}
    (h : ∀ y ∈ ys, ∃ x, f x = y ∧ P x) :
    ∃ xs : List α, xs.map f = ys ∧ ∀ x ∈ xs, P x := by
  induction ys with
  | nil => exact ⟨[], rfl, fun _ hx => absurd hx List.not_mem_nil⟩
  | cons y rest ih =>
      obtain ⟨⟨x, rfl, hx⟩, hrest⟩ := List.forall_mem_cons.1 h
      obtain ⟨xs, rfl, hxs⟩ := ih hrest
      exact ⟨x :: xs, rfl, List.forall_mem_cons.2 ⟨hx, hxs⟩⟩

/-- The text is that of an entry that refers to labels in scope only. -/
def SpellsEntry (s : Statement) (text : String) : Prop :=
  ∃ e : Entry, e.text s.config.identifierQuote = text ∧ ∀ l ∈ e.labels, l ∈ s.scope.labels

section

variable {n : Node} {s : Statement} {depth : Nat}

/-- What the rule for a table asks for is spelled. -/
theorem below_spells {m : Node} (hm : Below n m) :
    Gives s (Spells s) (rules.emitWithin depth m) :=
  plain_spells hm.1 depth s

theorem each_spells {ms : List Node} (hms : ∀ m ∈ ms, Below n m) :
    Gives s (fun texts : List String => ∀ t ∈ texts, Spells s t)
      (each (rules.emitWithin depth) ms) :=
  .each fun m hm => below_spells (hms m hm)

theorem sequence_spells {name : String}
    (hms : ∀ ms, n.childList name = .ok ms → ∀ m ∈ ms, Below n m) :
    Gives s (fun texts : List String => ∀ t ∈ texts, Spells s t)
      (sequence (rules.emitWithin depth) n name) :=
  .lift_bind fun ms h => each_spells (hms ms h)

theorem selectItem_spells {m : Node} (hm : Below n m) :
    Gives s (SpellsEntry s) (selectItem (rules.emitWithin depth) m) := by
  refine .bind (below_spells hm) fun text htext => .lift_bind fun name _ => .target_bind ?_
  obtain ⟨f, rfl, hf⟩ := htext
  have hentry :
      ∀ keepsName : Bool, SpellsEntry s (if keepsName then f.text s.config.identifierQuote
      else f.text s.config.identifierQuote ++ " AS " ++ s.quote name) := fun keepsName =>
    ⟨.value f name keepsName, by cases keepsName <;> rfl, hf⟩
  simp only []
  split
  · exact .lift_bind fun table _ => .lift_bind fun column _ =>
      .bind (.pure (P := fun _ => True) trivial) fun keepsName _ =>
      .pure (hentry keepsName)
  · exact .bind (.pure (P := (· = false)) rfl) fun keepsName _ => .pure (hentry keepsName)

theorem valueItems_spell {ms : List Node} (hms : ∀ m ∈ ms, Below n m) :
    Gives s (fun items : List String => ∀ t ∈ items, SpellsEntry s t)
      (valueItems (rules.emitWithin depth) ms) := by
  induction ms with
  | nil => exact .pure fun _ ht => absurd ht List.not_mem_nil
  | cons m rest ih =>
      obtain ⟨hm, hrest⟩ := List.forall_mem_cons.1 hms
      exact .bind (selectItem_spells hm) fun item hitem =>
        .bind (ih hrest) fun items hitems =>
        .pure (List.forall_mem_cons.2 ⟨hitem, hitems⟩)

/-- A table is expanded to columns of the item through which it is reached. -/
theorem expand_spells (table : Node) :
    Gives s (fun items : List String => ∀ t ∈ items, SpellsEntry s t) (expand table) := by
  refine .target_bind ?_
  split
  · next label hreach =>
      exact .pure (List.forall_mem_singleton.2
        ⟨.all label, rfl, List.forall_mem_singleton.2 (Scope.mem_labels hreach)⟩)
  · next reach _ hreach =>
      refine .lift fun items hitems => ?_
      obtain ⟨schema, -, hitems⟩ := bind_eq_ok.1 hitems
      intro t ht
      obtain ⟨column, -, hcolumn⟩ := exists_of_forall₂_right (mapM_eq_ok.1 hitems) ht
      obtain ⟨item, hitem, hcolumn⟩ := bind_eq_ok.1 hcolumn
      cases hcolumn
      rw [Statement.column_eq, hreach] at hitem
      cases reach with
      | ambiguous => cases hitem
      | through label direct renames =>
          cases hitem
          refine ⟨.column label (renames.apply column.name) column.name, ?_,
            List.forall_mem_singleton.2 (Scope.mem_labels hreach)⟩
          rw [Statement.outputName, hreach]
          rfl
  · exact .throw _

theorem selectionItems_spell {ms : List Node}
    (hms : ∀ m ∈ ms, m.kind.isTable = true ∨ Below n m) :
    Gives s (fun items : List String => (items ≠ [] → ms ≠ [])
      ∧ ∀ t ∈ items, SpellsEntry s t)
      (selectionItems (rules.emitWithin depth) ms) := by
  induction ms with
  | nil => exact .pure ⟨fun h => absurd rfl h, fun _ ht => absurd ht List.not_mem_nil⟩
  | cons m rest ih =>
      obtain ⟨hm, hrest⟩ := List.forall_mem_cons.1 hms
      have happend : ∀ items : List String, (∀ t ∈ items, SpellsEntry s t) →
          Gives s (fun items : List String => (items ≠ [] → m :: rest ≠ [])
            ∧ ∀ t ∈ items, SpellsEntry s t)
            (selectionItems (rules.emitWithin depth) rest >>= fun more =>
                Pure.pure (items ++ more)) :=
        fun items hitems => .bind (ih hrest) fun more hmore =>
          .pure ⟨fun _ => List.cons_ne_nil _ _, List.forall_mem_append.2 ⟨hitems, hmore.2⟩⟩
      simp only [selectionItems]
      refine .ite (fun _ => .bind (expand_spells m) happend) fun hvalue => ?_
      refine .bind (selectItem_spells (hm.resolve_left hvalue)) fun item hitem => ?_
      exact .bind (.pure (P := fun items : List String => ∀ t ∈ items, SpellsEntry s t)
        (List.forall_mem_singleton.2 hitem)) happend

/-- Every column is handed on, with a replacement or without. -/
theorem filledItems_spell {replacements : Arg} (hvalues : replacements.AllNodes (Below n))
    (label : String) (columns : List ColumnInfo) :
    Gives s (fun items => ∃ entries : List Entry,
        entries.map (Entry.text s.config.identifierQuote) = items
          ∧ List.Forall₂ (fun e c => e = .column label c c ∨ ∃ f, e = .filled label c f)
            entries (columns.map (·.name))
          ∧ ∀ e ∈ entries, ∀ l ∈ e.labels, l = label ∨ l ∈ s.scope.labels)
      (filledItems (rules.emitWithin depth) label replacements columns) := by
  induction columns with
  | nil => exact .pure ⟨[], rfl, .nil, fun _ he => absurd he List.not_mem_nil⟩
  | cons column rest ih =>
      refine .target_bind ?_
      simp only []
      cases hvalue : replacementFor replacements column with
      | none =>
          rw [pure_bind]
          refine .bind ih fun items hitems => .pure ?_
          obtain ⟨entries, rfl, hcolumns, hlabels⟩ := hitems
          refine ⟨.column label column.name column.name :: entries, ?_,
            .cons (Or.inl rfl) hcolumns,
            List.forall_mem_cons.2 ⟨List.forall_mem_singleton.2 (Or.inl rfl), hlabels⟩⟩
          simp [Entry.text, Statement.qualified, Statement.quote]
      | some value =>
          refine .bind (below_spells (hvalues value (mem_nodes_of_replacementFor hvalue)))
            fun text htext => ?_
          rw [pure_bind]
          refine .bind ih fun items hitems => .pure ?_
          obtain ⟨f, rfl, hf⟩ := htext
          obtain ⟨entries, rfl, hcolumns, hlabels⟩ := hitems
          exact ⟨.filled label column.name f :: entries, rfl,
            .cons (Or.inr ⟨f, rfl⟩) hcolumns, List.forall_mem_cons.2
            ⟨List.forall_mem_cons.2 ⟨Or.inl rfl, fun l hl => Or.inr (hf l hl)⟩, hlabels⟩⟩

/-! ## Stored rows -/

theorem cell_spells {column : ColumnInfo} {value : Option Value} {text : String}
    (h : cell s column value = .ok text) :
    ∃ f, (Entry.value f column.name false).text s.config.identifierQuote = text
      ∧ ∀ l ∈ f.labels, l ∈ s.scope.labels := by
  obtain ⟨written, type, hwritten, htype, rfl⟩ := cell_eq_ok h
  have hvalue : Spells s written := by
    rcases hwritten with ⟨-, rfl⟩ | ⟨v, -, hwritten⟩
    · exact .word (by decide)
    · exact .constant hwritten
  have hcast : Spells s ("CAST(" ++ written ++ " AS ") :=
    .between (by decide) hvalue (by decide)
  obtain ⟨f, hf, hlabels⟩ :=
    (hcast.append (typeName_spells htype)).append (.word (show IsPlain ")" by decide))
  refine ⟨f, ?_, hlabels⟩
  simp [Entry.text, hf, Statement.quote, String.append_assoc]

theorem row_spells {columns : List ColumnInfo} {text : String} (h : IsRow s columns text) :
    ∃ entries : List Entry, "SELECT " ++ ", ".intercalate
      (entries.map (Entry.text s.config.identifierQuote)) = text
      ∧ List.Forall₂ (fun e c => ∃ f, e = .value f c false) entries (columns.map (·.name))
      ∧ ∀ e ∈ entries, ∀ l ∈ e.labels, l ∈ s.scope.labels := by
  obtain ⟨texts, rfl, hcells⟩ := h
  suffices ∃ entries : List Entry, entries.map (Entry.text s.config.identifierQuote) = texts
      ∧ List.Forall₂ (fun e c => ∃ f, e = .value f c false) entries (columns.map (·.name))
      ∧ ∀ e ∈ entries, ∀ l ∈ e.labels, l ∈ s.scope.labels by
    obtain ⟨entries, rfl, hentries⟩ := this
    exact ⟨entries, rfl, hentries⟩
  induction hcells with
  | nil => exact ⟨[], rfl, .nil, fun _ he => absurd he List.not_mem_nil⟩
  | cons hcell _ ih =>
      obtain ⟨value, hcell⟩ := hcell
      obtain ⟨f, rfl, hf⟩ := cell_spells hcell
      obtain ⟨entries, rfl, hnames, hlabels⟩ := ih
      exact ⟨_ :: entries, rfl, .cons ⟨f, rfl⟩ hnames, List.forall_mem_cons.2 ⟨hf, hlabels⟩⟩

theorem spells_of_row {columns : List ColumnInfo} {text : String}
    (h : IsRow s columns text) : Spells s text := by
  obtain ⟨entries, rfl, hentries, hlabels⟩ := row_spells h
  refine (Spells.word (by decide)).append (.intercalate (by decide) fun t ht => ?_)
  obtain ⟨e, he, rfl⟩ := List.mem_map.1 ht
  obtain ⟨c, -, f, rfl⟩ := exists_of_forall₂_right (List.Forall₂.flip hentries) he
  have hvalue : Spells s (f.text s.config.identifierQuote) := ⟨f, rfl, hlabels _ he⟩
  exact (hvalue.append (.word (by decide))).append (.name s c)

/-- Of the rows, the first gives the columns their names. -/
theorem storedRows_spells (hn : n.Built) (hkind : n.kind = .inMemoryTable) {text : String}
    (h : storedRows s n = .ok text) :
    ∃ (first : List Entry) (rest : Fragment) (schema : Schema), n.outputSchema = .ok schema
      ∧ "SELECT " ++ ", ".intercalate (first.map (Entry.text s.config.identifierQuote))
          ++ rest.text s.config.identifierQuote = text
      ∧ List.Forall₂ (fun e c => ∃ f, e = .value f c false) first schema.names
      ∧ ∀ l ∈ first.flatMap Entry.labels ++ rest.labels, l ∈ s.scope.labels := by
  obtain ⟨schema, first, hschema, hfirst, hmore⟩ := storedRows_eq_ok hn hkind h
  -- What follows the first row.
  obtain ⟨_, rfl, rest, rfl, hrest⟩ : ∃ rest, first ++ rest = text ∧ Spells s rest := by
    rcases hmore with rfl | ⟨more, rfl, hmore⟩
    · exact ⟨" LIMIT 0", rfl, .word (by decide)⟩
    · obtain ⟨rest, heq, hrest⟩ :=
        Spells.intercalate_rest (t := first) (show IsPlain " UNION ALL " by decide)
        fun t ht => spells_of_row (hmore t ht)
      exact ⟨rest, heq.symm, hrest⟩
  obtain ⟨entries, rfl, hnames, hlabels⟩ := row_spells hfirst
  refine ⟨entries, rest, schema, hschema, rfl, hnames,
    List.forall_mem_append.2 ⟨fun l hl => ?_, hrest⟩⟩
  obtain ⟨e, he, hl⟩ := List.mem_flatMap.1 hl
  exact hlabels e he l hl

end

/-! ## From the FROM clause to the statement -/

theorem Clauses.forall_labels {c : Clauses} {P : String → Prop}
    (hentries : ∀ e ∈ c.entries, ∀ l ∈ e.labels, P l)
    (hfilters : ∀ f ∈ c.filters, ∀ l ∈ Fragment.labels f, P l)
    (horder : ∀ f ∈ c.orderBy, ∀ l ∈ Fragment.labels f, P l) :
    ∀ l ∈ c.labels, P l := by
  intro l hl
  simp only [labels, List.mem_append, List.mem_flatMap] at hl
  rcases hl with (⟨e, he, hl⟩ | ⟨f, hf, hl⟩) | ⟨f, hf, hl⟩
  · exact hentries e he l hl
  · exact hfilters f hf l hl
  · exact horder f hf l hl

namespace Brings

variable {s t : Statement} {m n : Node} {item : String × String} {q : Query}

theorem config_eq (h : Brings s m item t q) : t.config = s.config := by rw [h.after]

/-- Of an only item, no other label is in scope. -/
theorem eq_of_mem_labels (h : Brings s m item t q) (hscope : s.scope = []) :
    ∀ l ∈ t.scope.labels, l = item.2 := by
  intro l hl
  rw [h.after, hscope] at hl
  exact (Scope.labels_withItem hl).resolve_right List.not_mem_nil

/-- The item itself is reached through its label. -/
theorem reach?_eq (h : Brings s m item t q) :
    t.scope.reach? m = some (.through item.2 true []) := by
  rw [h.after, Scope.reach?_withItem _ _ _ (Query.distinct_inside q.distinct_scope),
    if_pos BEq.rfl]

theorem mem_labels (h : Brings s m item t q) : item.2 ∈ t.scope.labels :=
  Scope.mem_labels h.reach?_eq

theorem writes (h : Brings s m item t q) (hscope : s.scope = []) (clauses : Clauses)
    {renames : Bool} (hwritten : (Query.single n clauses item.2 q renames).Written) :
    Writes s n (clauses.select s.config.identifierQuote item.1).render
      (if renames then t.forgetRenames else t) (.single n clauses item.2 q renames) where
  table := rfl
  written := hwritten
  text := by
    rw [Query.text, ← h.text]
    rfl
  labels := by
    simp only [Query.labels, h.labels, Statement.labelsFrom, List.length_map,
      List.length_range']
  after := by
    rw [h.after, hscope, Query.labels, List.length_append, List.length_singleton]
    cases renames <;> simp [Statement.forgetRenames, Query.scope, Query.inside, h.table]

end Brings

/-! ## The rules for tables -/

/-- Tables in the fields are written as queries. -/
def WritesBelow (n : Node) (emit : Node → Writing String) : Prop :=
  ∀ m ∈ n.children, ∀ s text after, s.scope = [] →
    (emit m).run ⟨s, none⟩ = (.ok text, after) →
    m.kind.isTable = true → ∃ q, Writes s m text after.target q

section

variable {n : Node} {s : Statement} {depth : Nat} {text : String}
    {after : Session Statement String}

theorem WritesBelow.fromItem {emit : Node → Writing String} (h : WritesBelow n emit)
    (hn : n.Built) {field : String} {m : Node} (hv : n.kind.validator? field = some .table)
    (hm : n.child field = .ok m) {item : String × String}
    (hrun : (fromItem emit m).run ⟨s, none⟩ = (.ok item, after)) :
    ∃ q t, Brings s m item t q ∧ after = ⟨t, none⟩ := by
  obtain ⟨q, hq, hmemo⟩ := fromItem_brings (fun s text after hscope hemit =>
    h m (hn.mem_children_of_child hm) s text after hscope hemit
      (hn.isTable_of_child hv hm)) hrun
  obtain ⟨t, memo⟩ := after
  cases hmemo
  exact ⟨q, t, hq, rfl⟩

section

variable (hn : n.Built) (hbelow : WritesBelow n (rules.emitWithin depth))
    (hscope : s.scope = [])

include hn hbelow hscope

omit hn hbelow in
theorem databaseTableRule_writes (hkind : n.kind = .databaseTable)
    (h : (databaseTableRule (rules.emitWithin depth) n).run ⟨s, none⟩ = (.ok text, after)) :
    ∃ q, Writes s n text after.target q := by
  obtain ⟨name, hname, h⟩ := run_lift_bind_eq_ok (run_target_bind _ _ ▸ h)
  cases h
  exact ⟨.stored n name, rfl, .stored hkind hname, rfl, rfl,
    by rw [Query.scope, ← hscope]; rfl⟩

omit hbelow in
theorem inMemoryTableRule_writes (hkind : n.kind = .inMemoryTable)
    (h : (inMemoryTableRule (rules.emitWithin depth) n).run ⟨s, none⟩ = (.ok text, after)) :
    ∃ q, Writes s n text after.target q := by
  rw [inMemoryTableRule, run_target_bind, run_lift] at h
  obtain ⟨first, rest, schema, hschema, htext, hnames, hlabels⟩ :=
    storedRows_spells hn hkind (Prod.mk.inj h).1
  obtain rfl := (Prod.mk.inj h).2
  rw [hscope] at hlabels
  have hnone := List.eq_nil_iff_forall_not_mem.2 fun l hl =>
    absurd (hlabels l hl) List.not_mem_nil
  exact ⟨.rows n first rest, rfl, .rows hkind hschema hnames hnone, htext, rfl,
    by rw [Query.scope, ← hscope]; rfl⟩

theorem limitRule_writes (hkind : n.kind = .limit)
    (h : (limitRule (rules.emitWithin depth) n).run ⟨s, none⟩ = (.ok text, after)) :
    ∃ q, Writes s n text after.target q := by
  obtain ⟨table, htable, h⟩ := run_lift_bind_eq_ok h
  obtain ⟨item, middle, hitem, h⟩ := run_bind_eq_ok h
  obtain ⟨q, t, hq, rfl⟩ := hbelow.fromItem hn (by rw [hkind]; rfl) htable hitem
  obtain ⟨count, -, h⟩ := run_lift_bind_eq_ok h
  obtain ⟨offset, -, h⟩ := run_lift_bind_eq_ok h
  cases h
  exact ⟨_, hq.writes hscope
    { entries := [.all item.2], limit := some count.toInt, offset := offset.toInt }
    (.whole (by rw [hkind]; decide) (hq.table ▸ htable) rfl
      (by simp [Clauses.labels, Entry.labels]) hq.written)⟩

theorem distinctRule_writes (hkind : n.kind = .distinct)
    (h : (distinctRule (rules.emitWithin depth) n).run ⟨s, none⟩ = (.ok text, after)) :
    ∃ q, Writes s n text after.target q := by
  obtain ⟨table, htable, h⟩ := run_lift_bind_eq_ok h
  obtain ⟨item, middle, hitem, h⟩ := run_bind_eq_ok h
  obtain ⟨q, t, hq, rfl⟩ := hbelow.fromItem hn (by rw [hkind]; rfl) htable hitem
  cases h
  exact ⟨_, hq.writes hscope { distinct := true, entries := [.all item.2] }
    (.whole (by rw [hkind]; decide) (hq.table ▸ htable) rfl
      (by simp [Clauses.labels, Entry.labels]) hq.written)⟩

theorem selectionRule_writes (hkind : n.kind = .selection)
    (h : (selectionRule (rules.emitWithin depth) n).run ⟨s, none⟩ = (.ok text, after)) :
    ∃ q, Writes s n text after.target q := by
  obtain ⟨table, htable, h⟩ := run_lift_bind_eq_ok h
  obtain ⟨item, middle, hitem, h⟩ := run_bind_eq_ok h
  obtain ⟨q, t, hq, rfl⟩ := hbelow.fromItem hn (by rw [hkind]; rfl) htable hitem
  obtain ⟨selected, hselected, h⟩ := run_lift_bind_eq_ok h
  obtain ⟨items, ⟨hnonempty, hentries⟩, h⟩ :=
    (selectionItems_spell
      (selections_below hn (by rw [hkind]; rfl) hselected)).run_bind_eq_ok h
  obtain ⟨filters, hfilters, h⟩ :=
    (sequence_spells fun _ hms =>
      childList_below hn (by rw [hkind]; rfl) rfl hms).run_bind_eq_ok h
  obtain ⟨orderBy, horder, h⟩ :=
    (sequence_spells fun _ hms =>
      sortKeys_below hn (by rw [hkind]; rfl) hms).run_bind_eq_ok h
  obtain ⟨filters, rfl, hfilterLabels⟩ := exists_map_eq hfilters
  obtain ⟨orderBy, rfl, horderLabels⟩ := exists_map_eq horder
  obtain ⟨entries, rfl, hentryLabels⟩ := exists_map_eq hentries
  have hown := hq.eq_of_mem_labels hscope
  rw [hq.config_eq] at h
  split at h
  · cases h
    refine ⟨_, hq.writes hscope { entries := [.all item.2], filters, orderBy }
      (.whole (by rw [hkind]; decide) (hq.table ▸ htable) rfl ?_ hq.written)⟩
    exact Clauses.forall_labels (by simp [Entry.labels])
      (fun f hf l hl => hown l (hfilterLabels f hf l hl))
      fun f hf l hl => hown l (horderLabels f hf l hl)
  · next hitems =>
      cases h
      refine ⟨_, hq.writes hscope { entries, filters, orderBy }
        (.named (Or.inr ⟨hkind, fun hnone => ?_, rfl⟩) (hq.table ▸ htable) ?_ hq.written)⟩
      · cases hselected.symm.trans hnone
        exact hnonempty (by simpa using hitems) rfl
      · exact Clauses.forall_labels (fun e he l hl => hown l (hentryLabels e he l hl))
          (fun f hf l hl => hown l (hfilterLabels f hf l hl)) fun f hf l hl =>
            hown l (horderLabels f hf l hl)

theorem aggregationRule_writes (hkind : n.kind = .aggregation)
    (h : (aggregationRule (rules.emitWithin depth) n).run ⟨s, none⟩ = (.ok text, after)) :
    ∃ q, Writes s n text after.target q := by
  obtain ⟨table, htable, h⟩ := run_lift_bind_eq_ok h
  obtain ⟨item, middle, hitem, h⟩ := run_bind_eq_ok h
  obtain ⟨q, t, hq, rfl⟩ := hbelow.fromItem hn (by rw [hkind]; rfl) htable hitem
  obtain ⟨keys, hkeys, h⟩ := run_lift_bind_eq_ok h
  obtain ⟨keyItems, hkeyItems, h⟩ :=
    (valueItems_spell (childList_below hn (by rw [hkind]; rfl) rfl hkeys)).run_bind_eq_ok h
  obtain ⟨metrics, hmetrics, h⟩ := run_lift_bind_eq_ok h
  obtain ⟨metricItems, hmetricItems, h⟩ :=
    (valueItems_spell
      (childList_below hn (by rw [hkind]; rfl) rfl hmetrics)).run_bind_eq_ok h
  obtain ⟨filters, hfilters, h⟩ :=
    (sequence_spells fun _ hms =>
      childList_below hn (by rw [hkind]; rfl) rfl hms).run_bind_eq_ok h
  obtain ⟨filters, rfl, hfilterLabels⟩ := exists_map_eq hfilters
  obtain ⟨entries, hmap, hentryLabels⟩ :=
    exists_map_eq (List.forall_mem_append.2 ⟨hkeyItems, hmetricItems⟩)
  have hown := hq.eq_of_mem_labels hscope
  rw [hq.config_eq] at h hmap
  simp only [← hmap] at h
  cases h
  have hwrites := hq.writes hscope
    { entries, filters, groupBy := (List.range keys.length).map fun i => i + 1 }
    (.named (Or.inl ⟨hkind, rfl⟩) (hq.table ▸ htable) (Clauses.forall_labels
      (fun e he l hl => hown l (hentryLabels e he l hl))
      (fun f hf l hl => hown l (hfilterLabels f hf l hl))
      (by simp)) hq.written)
  exact ⟨_, by simpa [Clauses.select, Function.comp_def] using hwrites⟩

theorem dropNullsRule_writes (hkind : n.kind = .dropNa)
    (h : (dropNullsRule (rules.emitWithin depth) n).run ⟨s, none⟩ = (.ok text, after)) :
    ∃ q, Writes s n text after.target q := by
  obtain ⟨table, htable, h⟩ := run_lift_bind_eq_ok h
  obtain ⟨item, middle, hitem, h⟩ := run_bind_eq_ok h
  obtain ⟨q, t, hq, rfl⟩ := hbelow.fromItem hn (by rw [hkind]; rfl) htable hitem
  have hown := hq.eq_of_mem_labels hscope
  have hwrites : ∀ filters : List Fragment,
      (∀ f ∈ filters, ∀ l ∈ f.labels, l ∈ t.scope.labels) →
      ∃ q, Writes s n (Clauses.select s.config.identifierQuote
          { entries := [.all item.2], filters } item.1).render t q :=
    fun filters hfilters => ⟨_, hq.writes hscope { entries := [.all item.2], filters }
      (.whole (by rw [hkind]; decide) (hq.table ▸ htable) rfl
        (Clauses.forall_labels (by simp [Entry.labels])
        (fun f hf l hl => hown l (hfilters f hf l hl)) (by simp)) hq.written)⟩
  -- However the columns are given, they are spelled.
  obtain ⟨subset, hsubset, ⟨-, rfl, rfl⟩ | ⟨how, rfl, rfl⟩⟩ : ∃ subset : List String,
      (∀ c ∈ subset, Spells t c)
      ∧ (subset.isEmpty = true
        ∧ text = Select.render { source := item.1, items := [item.2 ++ ".*"] }
          ∧ after = ⟨t, none⟩
        ∨ ∃ how : String,
            text = Select.render { source := item.1, items := [item.2 ++ ".*"], filters := [
            if how = "all" then
              "(" ++ " OR ".intercalate (subset.map (· ++ " IS NOT NULL")) ++ ")"
            else " AND ".intercalate (subset.map (· ++ " IS NOT NULL"))] }
                ∧ after = ⟨t, none⟩) := by
    rw [run_target_bind] at h
    simp only [] at h
    split at h
    · obtain ⟨subset, hsubset, h⟩ :=
        (sequence_spells fun _ hms =>
          childList_below hn (by rw [hkind]; rfl) rfl hms).run_bind_eq_ok h
      split at h
      · next hnone =>
          cases h
          exact ⟨subset, hsubset, Or.inl ⟨hnone, rfl, rfl⟩⟩
      · obtain ⟨how, -, h⟩ := run_lift_bind_eq_ok h
        cases h
        exact ⟨subset, hsubset, Or.inr ⟨how, rfl, rfl⟩⟩
    · obtain ⟨schema, -, h⟩ := run_lift_bind_eq_ok h
      have hnames : ∀ c ∈ schema.names.map (t.qualified item.2), Spells t c := by
        intro c hc
        obtain ⟨name, -, rfl⟩ := List.mem_map.1 hc
        exact .reference hq.mem_labels name
      rw [pure_bind] at h
      split at h
      · next hnone =>
          cases h
          exact ⟨_, hnames, Or.inl ⟨hnone, rfl, rfl⟩⟩
      · obtain ⟨how, -, h⟩ := run_lift_bind_eq_ok h
        cases h
        exact ⟨_, hnames, Or.inr ⟨how, rfl, rfl⟩⟩
  · exact hwrites [] (by simp)
  · have hchecks : ∀ c ∈ subset.map (· ++ " IS NOT NULL"), Spells t c := by
      intro c hc
      obtain ⟨column, hcolumn, rfl⟩ := List.mem_map.1 hc
      exact (hsubset column hcolumn).append (.word (by decide))
    have hfilter :
        Spells t (if how = "all" then
          "(" ++ " OR ".intercalate (subset.map (· ++ " IS NOT NULL")) ++ ")"
        else " AND ".intercalate (subset.map (· ++ " IS NOT NULL"))) := by
      split
      · exact .between (by decide) (.intercalate (by decide) hchecks) (by decide)
      · exact .intercalate (by decide) hchecks
    obtain ⟨f, hf, hlabels⟩ := hfilter
    rw [hq.config_eq] at hf
    rw [← hf]
    exact hwrites [f] (List.forall_mem_singleton.2 hlabels)

theorem fillNullsRule_writes (hkind : n.kind = .fillNa)
    (h : (fillNullsRule (rules.emitWithin depth) n).run ⟨s, none⟩ = (.ok text, after)) :
    ∃ q, Writes s n text after.target q := by
  have hreplacements : n.kind.validator? "replacements"
      = some (.either (.mapOf .scalarValue) .scalarValue) := by
    rw [hkind]; rfl
  obtain ⟨table, htable, h⟩ := run_lift_bind_eq_ok h
  obtain ⟨schema, hschema, h⟩ := run_lift_bind_eq_ok h
  obtain ⟨replacements, hfield, h⟩ := run_lift_bind_eq_ok h
  have hget := Node.field_eq_ok hfield
  have hvalues : replacements.AllNodes (Below n) := fun m hm =>
    below_of_child hn (hn.mem_children_of_get? hget hm)
      (Or.inl (hn.isValue_of_get? hreplacements rfl hget m hm))
  simp only [] at h
  split at h
  · cases h
  · obtain ⟨item, middle, hitem, h⟩ := run_bind_eq_ok h
    obtain ⟨q, t, hq, rfl⟩ := hbelow.fromItem hn (by rw [hkind]; rfl) htable hitem
    obtain ⟨items, ⟨entries, hmap, hcolumns, hlabels⟩, h⟩ :=
      (filledItems_spell hvalues item.2 schema.columns).run_bind_eq_ok h
    rw [hq.config_eq] at hmap
    rw [← hmap] at h
    cases h
    refine ⟨_, hq.writes hscope { entries }
      (.filled hkind (hq.table ▸ htable) (hq.table ▸ hschema) hcolumns
        (Clauses.forall_labels ?_ (by simp) (by simp)) hq.written)⟩
    intro e he l hl
    rcases hlabels e he l hl with hl | hl
    · exact hl
    · exact hq.eq_of_mem_labels hscope l hl

/-- The items and the predicates of a join. -/
theorem joined_items (hleftField : n.kind.validator? "left" = some .table)
    (hrightField : n.kind.validator? "right" = some .table)
    (hpredicates : n.kind.validator? "predicates" = some (.tupleOf Catalogue.condition))
    {left right : Node} (hleft : n.child "left" = .ok left)
    (hright : n.child "right" = .ok right) {leftItem rightItem : String × String}
    {predicates : List String} {s₁ s₂ s₃ : Session Statement String}
    (hleftItem : (fromItem (rules.emitWithin depth) left).run ⟨s, none⟩
      = (.ok leftItem, s₁))
    (hrightItem : (fromItem (rules.emitWithin depth) right).run s₁ = (.ok rightItem, s₂))
    (hrun : (sequence (rules.emitWithin depth) n "predicates").run s₂
      = (.ok predicates, s₃)) :
    ∃ q q' t t', Brings s left leftItem t q ∧ Brings t right rightItem t' q'
      ∧ s₃ = ⟨t', none⟩
      ∧ ∃ fs : List Fragment, fs.map (Fragment.text s.config.identifierQuote) = predicates
        ∧ ∀ l ∈ fs.flatMap Fragment.labels, l = leftItem.2 ∨ l = rightItem.2 := by
  obtain ⟨q, t, hq, rfl⟩ := hbelow.fromItem hn hleftField hleft hleftItem
  obtain ⟨q', t', hq', rfl⟩ := hbelow.fromItem hn hrightField hright hrightItem
  obtain ⟨rfl, hspells⟩ :=
    sequence_spells (fun _ hms => childList_below hn hpredicates rfl hms) predicates s₃ hrun
  obtain ⟨fs, hfs, hlabels⟩ := exists_map_eq hspells
  refine ⟨q, q', t, t', hq, hq', rfl, fs, ?_, fun l hl => ?_⟩
  · rw [← hq.config_eq, ← hq'.config_eq, hfs]
  · obtain ⟨f, hf, hl⟩ := List.mem_flatMap.1 hl
    have hscoped := hlabels f hf l hl
    rw [hq'.after] at hscoped
    exact (Scope.labels_withItem hscoped).symm.imp_left (hq.eq_of_mem_labels hscope l)

end

/-! ## Joins -/

theorem Statement.rename_nil (s : Statement) (label : String) : s.rename label [] = s := by
  have hreach : ∀ r : Reach, r.rename label [] = r := by
    intro r
    cases r with
    | ambiguous => rfl
    | through l direct renames => simp [Reach.rename, Renames.andThen, Renames.newName?]
  simp [rename, hreach]

theorem Brings.joined {t t' : Statement} {left right : Node}
    {leftItem rightItem : String × String} {q q' : Query} (hq : Brings s left leftItem t q)
    (hq' : Brings t right rightItem t' q') (hscope : s.scope = []) (keyword : String)
    (clauses : Clauses) {fs : List Fragment} {changes : Renames}
    (hwritten : (Query.joined n clauses keyword fs leftItem.2 q rightItem.2 q'
      changes).Written) :
    Writes s n (clauses.select s.config.identifierQuote
      (joinSource n.kind keyword leftItem.1 rightItem.1
        (fs.map (Fragment.text s.config.identifierQuote)))).render
          (t'.rename rightItem.2 changes)
      (.joined n clauses keyword fs leftItem.2 q rightItem.2 q' changes) where
  table := rfl
  written := hwritten
  text := by
    rw [← hq.text, ← hq'.text, hq.config_eq]
    rfl
  labels := by
    have hfirst : t.labels = s.labels + (q.labels.length + 1) := by rw [hq.after]
    rw [Query.labels, hq.labels, hq'.labels, hfirst, Statement.labelsFrom_append]
    simp [Statement.labelsFrom]
  after := by
    have hcount :
        s.labels + (Query.labels
          (.joined n clauses keyword fs leftItem.2 q rightItem.2 q' changes)).length
        = s.labels + (q.labels.length + 1) + (q'.labels.length + 1) := by
      simp only [Query.labels, List.length_append, List.length_singleton, Nat.add_assoc]
    rw [hcount, hq'.after, hq.after, hscope, Query.scope, hq.table, hq'.table]
    rfl

section

variable (hn : n.Built) (hbelow : WritesBelow n (rules.emitWithin depth))
    (hscope : s.scope = [])

include hn hbelow hscope

theorem wideJoinRule_writes (hkind : n.kind ∈ NodeKind.wideJoins) {keyword : String}
    (hkeyword : IsPlain keyword)
    (h : (joinRule n.kind keyword (rules.emitWithin depth) n).run ⟨s, none⟩
      = (.ok text, after)) :
    ∃ q, Writes s n text after.target q := by
  obtain ⟨hleftField, hrightField, hpredicates⟩ : n.kind.validator? "left" = some .table
      ∧ n.kind.validator? "right" = some .table
      ∧ n.kind.validator? "predicates" = some (.tupleOf Catalogue.condition) := by
    rcases NodeKind.mem_wideJoins.1 hkind with hk | hk | hk | hk <;> rw [hk]
      <;> exact ⟨rfl, rfl, rfl⟩
  obtain ⟨left, right, leftItem, rightItem, predicates, l, r, s₁, s₂, s₃, hleft, hright,
    hleftItem, hrightItem, hrun, hl, hr, rfl, rfl⟩ := joinRule_eq_ok hkind h
  obtain ⟨q, q', t, t', hq, hq', rfl, fs, rfl, hlabels⟩ :=
    joined_items hn hbelow hscope hleftField hrightField hpredicates hleft hright
      hleftItem hrightItem hrun
  have hentries : (joinItems l.names r.names).map
      (Item.render t' (sideLabels leftItem.2 rightItem.2))
      = ((l.names.map fun c => Entry.column leftItem.2 c c)
          ++ r.names.map fun c =>
            Entry.column rightItem.2 c (Rules.markedName l.names c)).map
        (Entry.text s.config.identifierQuote) := by
    rw [← hq.config_eq, ← hq'.config_eq]
    simp only [joinItems, List.map_append, List.map_map]
    rfl
  simp only [hentries]
  have hne : q.table ≠ q'.table := by
    rw [hq.table, hq'.table]
    rintro rfl
    cases hq'.fresh _ hq.reach?_eq
  exact ⟨_, hq.joined hq' hscope keyword { entries := _ }
    (.joined hkind hkeyword (hq.table ▸ hleft) (hq'.table ▸ hright) hne
    (hq.table ▸ hl) (hq'.table ▸ hr) rfl hlabels ⟨rfl, rfl⟩ hq.written hq'.written)⟩

theorem semiJoinRule_writes (hkind : n.kind = .leftSemiJoin ∨ n.kind = .leftAntiJoin)
    {keyword : String} (hkeyword : IsPlain keyword)
    (h : (joinRule n.kind keyword (rules.emitWithin depth) n).run ⟨s, none⟩
      = (.ok text, after)) :
    ∃ q, Writes s n text after.target q := by
  obtain ⟨hleftField, hrightField, hpredicates⟩ : n.kind.validator? "left" = some .table
      ∧ n.kind.validator? "right" = some .table
      ∧ n.kind.validator? "predicates" = some (.tupleOf Catalogue.condition) := by
    rcases hkind with hk | hk <;> rw [hk] <;> exact ⟨rfl, rfl, rfl⟩
  obtain ⟨left, hleft, h⟩ := run_lift_bind_eq_ok h
  obtain ⟨right, hright, h⟩ := run_lift_bind_eq_ok h
  obtain ⟨leftItem, s₁, hleftItem, h⟩ := run_bind_eq_ok h
  obtain ⟨rightItem, s₂, hrightItem, h⟩ := run_bind_eq_ok h
  obtain ⟨predicates, s₃, hrun, h⟩ := run_bind_eq_ok h
  obtain ⟨q, q', t, t', hq, hq', rfl, fs, rfl, hlabels⟩ :=
    joined_items hn hbelow hscope hleftField hrightField hpredicates hleft hright
      hleftItem hrightItem hrun
  have hsemi : (n.kind = .leftSemiJoin || n.kind = .leftAntiJoin) = true := by
    simpa using hkind
  simp only [] at h
  rw [if_pos hsemi] at h
  cases h
  have hwrites := hq.joined hq' hscope keyword { entries := [.all leftItem.2] }
    (.semi hkind hkeyword (hq.table ▸ hleft) (hq'.table ▸ hright) rfl hlabels
      ⟨rfl, rfl⟩ hq.written hq'.written)
  rw [Statement.rename_nil] at hwrites
  exact ⟨_, hwrites⟩

end

end

/-! ## All tables -/

/-- The text of a table is that of a query, from whatever statement without items it is
written. -/
theorem emitWithin_writes {n : Node} (hn : n.Built) (htable : n.kind.isTable = true)
    {depth : Nat} {s : Statement} (hscope : s.scope = []) {text : String}
    {after : Session Statement String}
    (h : (rules.emitWithin depth n).run ⟨s, none⟩ = (.ok text, after)) :
    ∃ q, Writes s n text after.target q := by
  induction depth generalizing n s text after with
  | zero => cases h
  | succ depth ih =>
      have hbelow : WritesBelow n (rules.emitWithin depth) :=
        fun m hm s text after hscope hrun hm' =>
        ih (hn.of_mem_children hm) hm' hscope hrun
      rw [RuleTable.emitWithin_eq_walk] at h
      obtain ⟨k, rule, middle, hresolve, hrule, htarget⟩ :=
        RuleTable.walk_eq_ok (keeps_none _) h
      rw [← RuleTable.emitWithin_eq_walk] at hrule
      rw [← htarget]
      obtain ⟨hlineage, hmem | ⟨hmem, hne⟩ | heq⟩ := mem_of_resolve hresolve
      · have hplain := plain_of_mem_plainRules hlineage hmem
        have hne : ∀ kind ∈ NodeKind.all, kind.isTable = true →
            ¬ (kind.isValue = true ∨ kind = .sortKey) := by
          set_option maxRecDepth 2000 in decide
        exact absurd hplain (hne n.kind n.kind.mem_all htable)
      · obtain rfl := eq_of_mem_tableRules hlineage hmem
        simp only [tableRules, List.mem_cons, Prod.mk.injEq, List.not_mem_nil,
          or_false] at hmem
        rcases hmem with ⟨hk, rfl⟩ | ⟨hk, rfl⟩ | ⟨hk, rfl⟩ | ⟨hk, rfl⟩ | ⟨hk, rfl⟩
          | ⟨hk, rfl⟩ | ⟨hk, rfl⟩ | ⟨hk, rfl⟩ | ⟨hk, rfl⟩ | hmem
        · exact databaseTableRule_writes hscope hk hrule
        · exact inMemoryTableRule_writes hn hscope hk hrule
        · exact absurd hk hne
        · exact selectionRule_writes hn hbelow hscope hk hrule
        · exact aggregationRule_writes hn hbelow hscope hk hrule
        · exact limitRule_writes hn hbelow hscope hk hrule
        · exact distinctRule_writes hn hbelow hscope hk hrule
        · exact dropNullsRule_writes hn hbelow hscope hk hrule
        · exact fillNullsRule_writes hn hbelow hscope hk hrule
        · by_cases hwide : n.kind ∈ NodeKind.wideJoins
          · obtain ⟨keyword, hkeyword, hjoin⟩ := resolve_wideJoin hwide
            cases hresolve.symm.trans hjoin
            exact wideJoinRule_writes hn hbelow hscope hwide hkeyword hrule
          · rw [NodeKind.mem_wideJoins] at hwide
            rcases hmem with ⟨hk, -⟩ | ⟨hk, -⟩ | ⟨hk, -⟩ | ⟨hk, -⟩ | ⟨hk, rfl⟩ | ⟨hk, rfl⟩
            · simp [hk] at hwide
            · simp [hk] at hwide
            · simp [hk] at hwide
            · simp [hk] at hwide
            · exact semiJoinRule_writes hn hbelow hscope (Or.inl hk) (by decide) (hk ▸ hrule)
            · exact semiJoinRule_writes hn hbelow hscope (Or.inr hk) (by decide) (hk ▸ hrule)
      · cases heq
        cases hrule

/-- A table as an item, whatever texts were kept before. -/
theorem fromItem_eq_ok {n : Node} (hn : n.Built)
    (htable : n.kind.isTable = true) {depth : Nat} (hdepth : n.depth ≤ depth)
    {s after : Session Statement String} {item : String × String}
    (h : (fromItem (rules.emitWithin depth) n).run s = (.ok item, after)) :
    ∃ q, Brings s.target n item after.target q := by
  have hemit : ∀ t text last, t.scope = [] →
      (rules.emitWithin depth n).run ⟨t, s.memo.map fun _ => []⟩ = (.ok text, last) →
        ∃ q, Writes t n text last.target q := by
    intro t text last hscope hrun
    cases hmemo : s.memo with
    | none => exact emitWithin_writes hn htable hscope (by rw [hmemo] at hrun; exact hrun)
    | some _ =>
        -- The isolated walk keeps texts, and does what the walk does that keeps none.
        rw [hmemo, Option.map_some, RuleTable.emitWithin_eq_walk] at hrun
        obtain ⟨hresult, hsame⟩ := walk_matches faithful_return hn hdepth hdepth
          ⟨t, some []⟩ ⟨t, none⟩ ⟨rfl, rfl, rfl⟩
        rw [hrun] at hresult hsame
        rcases hplain : (rules.emitWithin depth n).run ⟨t, none⟩ with ⟨result, other⟩
        rw [hplain] at hresult hsame
        cases hresult
        exact (show last.target = other.target from hsame)
          ▸ emitWithin_writes hn htable hscope hplain
  obtain ⟨q, hq, -⟩ := fromItem_brings hemit h
  exact ⟨q, hq⟩

end TypedQuery.Sql
