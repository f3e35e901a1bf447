import TypedQuery.Proofs.Memoization
import TypedQuery.Proofs.Sql.Carried
import TypedQuery.Proofs.Sql.LaidValues

/-!
# Tables are laid out

The rules for tables, and with them all rules. A table whose `SELECT` lists the columns of
its own schema, or of the tables that it is made of, lists nothing where there is no
column; all others fall back on all columns of their item. The counts of a limit are the
numbers that it was built with, whatever they are.
-/

namespace TypedQuery.Sql

open Emission

/-! ## Clauses -/

section

variable {quote : Char} {n : Node}

theorem clause_laid {keyword separator : String} (hkeyword : Unreserved keyword)
    (hseparator : Unreserved separator) {entries : List String}
    (h : ∀ t ∈ entries, LaidOut quote n [] t) :
    LaidOut quote n [] (Select.clause keyword separator entries) := by
  unfold Select.clause
  split
  · exact .words (by decide)
  · exact (LaidOut.between (by decide) (.words hkeyword) (by decide)).append
      (.intercalate hseparator h)

/-- The counts that a `SELECT` shows. -/
def Select.counts (s : Select) (n : Node) : List Mark :=
  (match s.limit with
    | some rows => [.count .limit n rows]
    | none => [])
  ++ if s.offset = 0 then [] else [.count .offset n s.offset]

theorem counts_laid {s : Select} (hlimit : ∀ rows ∈ s.limit, rows = rowCount n .limit)
    (hoffset : s.offset = rowCount n .offset) :
    LaidOut quote n (s.counts n) ((match s.limit with
      | some rows => " LIMIT " ++ toString rows
      | none => "") ++ if s.offset = 0 then "" else " OFFSET " ++ toString s.offset) := by
  refine .append ?_ ?_
  · cases hs : s.limit with
    | none => exact .words (by decide)
    | some rows => exact .count .limit (hlimit rows hs)
  · split
    · exact .words (by decide)
    · exact .count .offset hoffset

/-- A `SELECT` shows its items and its counts. -/
theorem render_laid {s : Select} (hitems : ∀ t ∈ s.items, LaidOut quote n [] t)
    (hempty : s.items.length = 0 ↔ n.LeavesEmpty) (hsource : LaidOut quote n [] s.source)
    (hfilters : ∀ t ∈ s.filters, LaidOut quote n [] t)
    (hgroup : ∀ t ∈ s.groupBy, LaidOut quote n [] t)
    (horder : ∀ t ∈ s.orderBy, LaidOut quote n [] t)
    (hlimit : ∀ rows ∈ s.limit, rows = rowCount n .limit)
    (hoffset : s.offset = rowCount n .offset) :
    LaidOut quote n (.list .items n s.items.length :: s.counts n) s.render := by
  have hhead : LaidOut quote n [] (if s.distinct then "DISTINCT " else "") := by
    split <;> exact .words (by decide)
  have hlist := LaidOut.list .items hhead hitems hempty
  rw [show Listing.closing .items = "" from rfl, String.append_empty] at hlist
  have hfrom := (hlist.append (.words (show Unreserved " FROM " by decide))).append hsource
  have hwhere :=
    hfrom.append (clause_laid (show Unreserved "WHERE" by decide)
      (show Unreserved " AND " by decide) hfilters)
  have hby := hwhere.append (clause_laid (show Unreserved "GROUP BY" by decide)
    (show Unreserved ", " by decide) hgroup)
  have hsorted :=
    hby.append (clause_laid (show Unreserved "ORDER BY" by decide)
      (show Unreserved ", " by decide) horder)
  have htext := hsorted.append (counts_laid hlimit hoffset)
  rw [← String.append_assoc] at htext
  exact htext

/-- A `SELECT` without counts. -/
theorem render_complete {config : SqlConfig} {s : Select}
    (hitems : ∀ t ∈ s.items, Laid config n t) (hempty : s.items.length = 0 ↔ n.LeavesEmpty)
    (hsource : Laid config n s.source) (hfilters : ∀ t ∈ s.filters, Laid config n t)
    (hgroup : ∀ t ∈ s.groupBy, Laid config n t) (horder : ∀ t ∈ s.orderBy, Laid config n t)
    (hkind : n.kind ≠ .limit) (hplain : s.limit = none ∧ s.offset = 0) :
    Complete config n s.render := by
  have htext := render_laid hitems hempty hsource hfilters hgroup horder (by simp [hplain.1])
    (by rw [hplain.2, rowCount_of_ne hkind])
  have hcounts : s.counts n = [] := by rw [Select.counts, hplain.1, hplain.2]; rfl
  rw [hcounts] at htext
  exact .of_list .items htext hempty.2 hkind

end

/-! ## Stored rows -/

section

variable {config : SqlConfig} {n : Node} {s : Statement}

theorem cell_laid (hs : InOrder config s) {column : ColumnInfo}
    {value : Option Value} {text : String} (h : cell s column value = .ok text) :
    Laid config n text := by
  obtain ⟨written, type, hwritten, htype, rfl⟩ := cell_eq_ok h
  have hvalue : Laid config n written := by
    rcases hwritten with ⟨-, rfl⟩ | ⟨v, -, hwritten⟩
    · exact .words (by decide)
    · exact .constant hwritten
  have hcast : Laid config n ("CAST(" ++ written ++ " AS ") :=
    .between (by decide) hvalue (by decide)
  exact ((hcast.append (typeName_laid htype)).append (.words (by decide))).append
    (hs.quote _)

/-- A row lists its cells, which are as many as the columns. -/
theorem row_laid (hs : InOrder config s) {columns : List ColumnInfo}
    (hempty : columns.length = 0 ↔ n.LeavesEmpty) {text : String}
    (h : IsRow s columns text) :
    LaidOut config.identifierQuote n [.list .items n columns.length] text := by
  obtain ⟨texts, rfl, hcells⟩ := h
  have hcount := hcells.length_eq.symm
  have hlaid : ∀ t ∈ texts, Laid config n t := by
    intro t ht
    obtain ⟨column, -, value, hcell⟩ := exists_of_forall₂_right hcells ht
    exact cell_laid hs hcell
  have hlist := LaidOut.list .items (LaidOut.words (show Unreserved "" by decide)) hlaid
    (hcount ▸ hempty)
  rw [hcount] at hlist
  simpa [Listing.opening, Listing.separator, Listing.closing] using hlist

/-- What the first of some texts shows, all of them show. -/
theorem LaidOut.intercalate_cons {quote : Char} {shown : List Mark} {separator t : String}
    (hseparator : Unreserved separator) (ht : LaidOut quote n shown t) {texts : List String}
    (h : ∀ u ∈ texts, LaidOut quote n [] u) :
    LaidOut quote n shown (separator.intercalate (t :: texts)) := by
  cases texts with
  | nil => simpa using ht
  | cons u more =>
      rw [String.intercalate_cons_cons]
      simpa using (ht.append (.words hseparator)).append (.intercalate hseparator h)

theorem storedRows_complete (hn : n.Built) (hkind : n.kind = .inMemoryTable)
    (hs : InOrder config s) {text : String} (h : storedRows s n = .ok text) :
    Complete config n text := by
  have hlimit : n.kind ≠ .limit := by rw [hkind]; decide
  obtain ⟨schema, first, hschema, hfirst, hrest⟩ := storedRows_eq_ok hn hkind h
  have hempty := (Node.leavesEmpty_table (by rw [hkind]; decide) hschema).symm
  rcases hrest with rfl | ⟨rest, rfl, hrest⟩
  · have htext := (row_laid hs hempty hfirst).append
      (LaidOut.count (n := n) .limit (rowCount_of_ne hlimit .limit).symm)
    refine ⟨_, htext, fun hleft => ⟨.items, ?_⟩, fun clause hneg => ?_⟩
    · rw [hempty.2 hleft]
      exact List.mem_cons_self
    · rw [rowCount_of_ne hlimit] at hneg
      exact absurd hneg (Int.lt_irrefl 0)
  · exact .of_list _ (.intercalate_cons (by decide) (row_laid hs hempty hfirst)
      fun t ht => (row_laid hs hempty (hrest t ht)).hide) hempty.2 hlimit

end

/-! ## Items -/

/-- All columns of an item. -/
theorem allColumns_laid {quote : Char} {n : Node} {label : String}
    (h : ∃ i, label = Statement.label i) :
    LaidOut quote n [] (label ++ ".*") := by
  obtain ⟨i, rfl⟩ := h
  exact (LaidOut.label i).append (.words (by decide))

section

variable {config : SqlConfig} {n : Node} {emit : Node → Writing String}
    (h : LaysFields config n emit)

include h

/-- A table in a field, as an item. -/
theorem LaysFields.fromItem {field : String} {table : Node}
    (htable : n.child field = .ok table) :
    Orderly config
      (fun item : String × String => Laid config n item.1 ∧ ∃ i, item.2 = Statement.label i)
        (fromItem emit table) := by
  have hm := h.built.mem_children_of_child htable
  exact (fromItem_orderly (h.child table hm)).mono fun _ hitem =>
    hitem.imp_left fun hlaid => hlaid.of_child hm

theorem selectItem_laid {m : Node} (hm : m ∈ n.children) :
    Orderly config (Laid config n) (selectItem emit m) := by
  refine .bind (h.emit_child hm) fun text htext => .lift_bind fun name _ =>
    .target_bind fun s hs => ?_
  have hitem : ∀ keepsName : Bool,
      Laid config n (if keepsName then text else text ++ " AS " ++ s.quote name) := by
    intro keepsName
    split
    · exact htext
    · exact htext.beside (by decide) (hs.quote name)
  simp only []
  split
  · exact .lift_bind fun _ _ => .lift_bind fun _ _ =>
      .bind (.pure (P := fun _ => True) trivial) fun keepsName _ =>
      .pure (hitem keepsName)
  · exact .bind (.pure (P := fun _ => True) trivial) fun keepsName _ =>
      .pure (hitem keepsName)

theorem valueItems_laid {ms : List Node} (hms : ∀ m ∈ ms, m ∈ n.children) :
    Orderly config (fun items : List String => items.length = ms.length
      ∧ ∀ t ∈ items, Laid config n t) (valueItems emit ms) := by
  induction ms with
  | nil => exact .pure ⟨rfl, fun _ ht => absurd ht List.not_mem_nil⟩
  | cons m rest ih =>
      obtain ⟨hm, hrest⟩ := List.forall_mem_cons.1 hms
      refine .bind (selectItem_laid h hm) fun item hitem =>
        .bind (ih hrest) fun items hitems => .pure ?_
      exact ⟨congrArg (· + 1) hitems.1, List.forall_mem_cons.2 ⟨hitem, hitems.2⟩⟩

omit h in
theorem expand_laid (table : Node) :
    Orderly config (fun items : List String => ∀ t ∈ items, Laid config n t)
      (expand table) := by
  refine .target_bind fun s hs => ?_
  split
  · next label hreach =>
      exact .pure (List.forall_mem_singleton.2
        (allColumns_laid ((List.forall_mem_cons.1 hs.2).1 _ (Scope.mem_labels hreach))))
  · refine .lift fun items hitems => ?_
    obtain ⟨schema, -, hitems⟩ := bind_eq_ok.1 hitems
    intro t ht
    obtain ⟨column, -, hcolumn⟩ := exists_of_forall₂_right (mapM_eq_ok.1 hitems) ht
    obtain ⟨item, hitem, hcolumn⟩ := bind_eq_ok.1 hcolumn
    cases hcolumn
    split
    · exact hs.column hitem
    · exact (hs.column hitem).beside (by decide) (hs.quote _)
  · exact .throw _

theorem selectionItems_laid {ms : List Node} (hms : ∀ m ∈ ms, m ∈ n.children) :
    Orderly config (fun items : List String => ∀ t ∈ items, Laid config n t)
      (selectionItems emit ms) := by
  induction ms with
  | nil => exact .pure fun _ ht => absurd ht List.not_mem_nil
  | cons m rest ih =>
      obtain ⟨hm, hrest⟩ := List.forall_mem_cons.1 hms
      have happend : ∀ items : List String, (∀ t ∈ items, Laid config n t) →
          Orderly config (fun items : List String => ∀ t ∈ items, Laid config n t)
            (selectionItems emit rest >>= fun more => Pure.pure (items ++ more)) :=
        fun items hitems => .bind (ih hrest) fun more hmore =>
          .pure (List.forall_mem_append.2 ⟨hitems, hmore⟩)
      simp only [selectionItems]
      refine .ite (fun _ => .bind (expand_laid m) happend) fun _ => ?_
      refine .bind (selectItem_laid h hm) fun item hitem => ?_
      exact .bind (.pure (P := fun items : List String => ∀ t ∈ items, Laid config n t)
        (List.forall_mem_singleton.2 hitem)) happend

/-- Each column is an item, with a replacement or without. -/
theorem filledItems_laid {replacements : Arg}
    (hvalues : ∀ m ∈ replacements.nodes, m ∈ n.children) {label : String}
    (hlabel : ∃ i, label = Statement.label i) {columns : List ColumnInfo}
    (hn : columns ≠ [] → ¬ n.LeavesEmpty) :
    Orderly config (fun items : List String => items.length = columns.length
      ∧ ∀ t ∈ items, Laid config n t)
      (filledItems emit label replacements columns) := by
  induction columns with
  | nil => exact .pure ⟨rfl, fun _ ht => absurd ht List.not_mem_nil⟩
  | cons column rest ih =>
      have hn := hn (List.cons_ne_nil _ _)
      have hmore (item : String) (hitem : Laid config n item) :
          Orderly config (fun items : List String => items.length = (column :: rest).length
            ∧ ∀ t ∈ items, Laid config n t)
            (do
              let items ← filledItems emit label replacements rest
              return item :: items) :=
        .bind (ih fun _ => hn) fun items hitems =>
          .pure ⟨congrArg (· + 1) hitems.1, List.forall_mem_cons.2 ⟨hitem, hitems.2⟩⟩
      refine .target_bind fun s hs => ?_
      have hcurrent : Laid config n (s.qualified label column.name) := hs.qualified hlabel _
      simp only []
      cases hvalue : replacementFor replacements column with
      | none =>
          rw [pure_bind]
          exact hmore _ hcurrent
      | some value =>
          refine .bind (h.emit_child (hvalues value (mem_nodes_of_replacementFor hvalue)))
            fun text htext => ?_
          rw [pure_bind]
          refine hmore _ ?_
          have hcall :
              Laid config n (call "coalesce" [s.qualified label column.name, text]) :=
            .arguments (by decide) (Laid.pair hcurrent htext) (List.cons_ne_nil _ _) hn
          have hitem := (hcall.append (.words (show Unreserved " AS " by decide))).append
            (hs.quote (n := n) column.name)
          simpa [call, String.append_assoc] using hitem

end

/-! ## Rules -/

theorem Rules.length_of_pushValues {field : String} {s out : Schema} {ms : List Node}
    (hs : s.names.Nodup) (h : Rules.pushValues field s ms = .ok out) :
    out.columns.length = s.columns.length + ms.length := by
  induction ms generalizing s with
  | nil =>
      cases h
      rfl
  | cons m rest ih =>
      obtain ⟨column, -, h⟩ := bind_eq_ok.1 h
      obtain ⟨next, hnext, h⟩ := bind_eq_ok.1 h
      obtain ⟨hcolumns, hnodup⟩ := Rules.pushUnique_eq_ok hs hnext
      rw [ih hnodup h, hcolumns, List.length_append, List.length_singleton, List.length_cons]
      omega

/-- The rule for a kind of table lays its text out, and shows what the table leaves empty. -/
def LaysTable (kind : NodeKind) (rule : SqlRule) : Prop :=
  ∀ config n emit, n.kind = kind → LaysFields config n emit →
    Orderly config (Complete config n) (rule emit n)

theorem not_leavesEmpty {n : Node} (h : n.kind ∉ Node.listingKinds) : ¬ n.LeavesEmpty :=
  fun hn => h hn.mem_kinds

theorem databaseTableRule_lays : LaysTable .databaseTable databaseTableRule := by
  intro config n emit hkind h
  have hn : ¬ n.LeavesEmpty := not_leavesEmpty (by rw [hkind]; decide)
  refine .target_bind fun s hs => .lift_bind fun name _ =>
    .pure (.of_laid ?_ hn (by rw [hkind]; decide))
  have hhead : LaidOut config.identifierQuote n [] "" := .words (by decide)
  have hlist :=
    LaidOut.nonempty .items hhead
      (List.forall_mem_singleton.2 (LaidOut.words (show Unreserved "*" by decide)))
      (List.cons_ne_nil _ _) hn
  have htext := (hlist.append (.words (show Unreserved " FROM " by decide))).append
    (hs.quote (n := n) name)
  simpa [Listing.opening, Listing.separator, Listing.closing, String.append_assoc]
    using htext

theorem inMemoryTableRule_lays : LaysTable .inMemoryTable inMemoryTableRule :=
  fun _ _ _ hkind h => .target_bind fun _ hs => .lift fun _ htext =>
    storedRows_complete h.built hkind hs htext

theorem selectionRule_lays : LaysTable .selection selectionRule := by
  intro config n emit hkind h
  have hn : ¬ n.LeavesEmpty := not_leavesEmpty (by rw [hkind]; decide)
  have hlimit : n.kind ≠ .limit := by rw [hkind]; decide
  refine .lift_bind fun table htable => .bind (h.fromItem htable) fun item hitem =>
    .lift_bind fun selected hselected => ?_
  refine .bind (selectionItems_laid h fun m hm =>
    h.built.mem_children_of_childList hselected hm) fun items hitems => ?_
  refine .bind (h.sequence "predicates") fun filters hfilters =>
    .bind (h.sequence "sort_keys") fun orderBy horder => ?_
  refine .ite (fun _ => ?_) fun hnonempty =>
    .bind (.update fun _ hs => hs.forgetRenames) fun _ _ => ?_
  · exact .pure (render_complete (List.forall_mem_singleton.2 (allColumns_laid hitem.2))
      ⟨fun hnone => absurd hnone (by simp), fun h => absurd h hn⟩ hitem.1 hfilters.2
      nofun horder.2 hlimit ⟨rfl, rfl⟩)
  · have hempty : items.length = 0 ↔ n.LeavesEmpty :=
      ⟨fun hnone => absurd (List.isEmpty_iff.2 (List.length_eq_zero_iff.1 hnone)) hnonempty,
        fun h => absurd h hn⟩
    exact .pure (render_complete hitems hempty hitem.1 hfilters.2 nofun horder.2
      hlimit ⟨rfl, rfl⟩)

theorem aggregationRule_lays : LaysTable .aggregation aggregationRule := by
  intro config n emit hkind h
  have hlimit : n.kind ≠ .limit := by rw [hkind]; decide
  refine .lift_bind fun table htable => .bind (h.fromItem htable) fun item hitem =>
    .lift_bind fun keys hkeys => ?_
  refine .bind (valueItems_laid h fun m hm => h.built.mem_children_of_childList hkeys hm)
    fun keyItems hkeyItems => ?_
  refine .lift_bind fun metrics hmetrics => ?_
  refine .bind (valueItems_laid h fun m hm => h.built.mem_children_of_childList hmetrics hm)
    fun metricItems hmetricItems => ?_
  refine .bind (h.sequence "predicates") fun filters hfilters => .pure ?_
  obtain ⟨schema, hrule, hschema⟩ := h.built.schemaRule_eq (by rw [hkind]; rfl)
  have hlength : schema.columns.length = keys.length + metrics.length := by
    rw [hkind] at hrule
    obtain ⟨grouped, hgrouped, hrule⟩ := bind_eq_ok.1 hrule
    rw [h.built.nodesIn_eq (by rw [hkind]; rfl) hkeys] at hgrouped
    rw [h.built.nodesIn_eq (by rw [hkind]; rfl) hmetrics] at hrule
    rw [Rules.length_of_pushValues
      (Rules.pushValues_nodup Schema.nodup_empty hgrouped) hrule,
      Rules.length_of_pushValues Schema.nodup_empty hgrouped]
    simp [Schema.empty]
  have hempty : (keyItems ++ metricItems).length = 0 ↔ n.LeavesEmpty := by
    rw [Node.leavesEmpty_table (by rw [hkind]; decide) (Node.outputSchema_eq_ok hschema),
      List.length_append, hkeyItems.1, hmetricItems.1, hlength]
  refine render_complete (List.forall_mem_append.2 ⟨hkeyItems.2, hmetricItems.2⟩) hempty
    hitem.1 hfilters.2 (fun t ht => ?_)
    nofun hlimit ⟨rfl, rfl⟩
  obtain ⟨i, -, rfl⟩ := List.mem_map.1 ht
  exact .position _

theorem limitRule_lays : LaysTable .limit limitRule := by
  intro config n emit hkind h
  have hn : ¬ n.LeavesEmpty := not_leavesEmpty (by rw [hkind]; decide)
  refine .lift_bind fun table htable => .bind (h.fromItem htable) fun item hitem => ?_
  refine .lift_bind fun count hcount => .lift_bind fun offset hoffset => .pure ?_
  have hrows (clause : CountClause) {k : Int64} (hk : n.intField clause.field = .ok k) :
      k.toInt = rowCount n clause := by
    rw [rowCount, if_pos hkind, hk]
  have htext := render_laid
    (s :=
      { source := item.1
        items := [item.2 ++ ".*"]
        limit := some count.toInt
        offset := offset.toInt })
    (List.forall_mem_singleton.2 (allColumns_laid hitem.2))
      ⟨fun hnone => absurd hnone (by simp), fun h => absurd h hn⟩
    hitem.1 nofun nofun nofun (fun rows heq => Option.some.inj heq ▸ hrows .limit hcount)
      (hrows .offset hoffset)
  refine ⟨_, htext, fun h => absurd h hn, fun clause hneg => List.mem_cons_of_mem _ ?_⟩
  cases clause with
  | limit =>
      rw [← hrows .limit hcount]
      exact List.mem_append_left _ (List.mem_singleton_self _)
  | offset =>
      rw [← hrows .offset hoffset] at hneg ⊢
      refine List.mem_append_right _ ?_
      rw [if_neg (Int.ne_of_lt hneg)]
      exact List.mem_singleton_self _

theorem distinctRule_lays : LaysTable .distinct distinctRule := by
  intro config n emit hkind h
  have hn : ¬ n.LeavesEmpty := not_leavesEmpty (by rw [hkind]; decide)
  refine .lift_bind fun table htable => .bind (h.fromItem htable) fun item hitem => .pure ?_
  exact render_complete (List.forall_mem_singleton.2 (allColumns_laid hitem.2))
    ⟨fun hnone => absurd hnone (by simp), fun h => absurd h hn⟩ hitem.1
    nofun nofun nofun (by rw [hkind]; decide) ⟨rfl, rfl⟩

theorem dropNullsRule_lays : LaysTable .dropNa dropNullsRule := by
  intro config n emit hkind h
  have hn : ¬ n.LeavesEmpty := not_leavesEmpty (by rw [hkind]; decide)
  have hlimit : n.kind ≠ .limit := by rw [hkind]; decide
  refine .lift_bind fun table htable => .bind (h.fromItem htable) fun item hitem =>
    .target_bind fun s hs => ?_
  have hrender {filters : List String} (hfilters : ∀ t ∈ filters, Laid config n t) :
      Complete config n
          (Select.render { source := item.1, items := [item.2 ++ ".*"], filters }) :=
    render_complete (List.forall_mem_singleton.2 (allColumns_laid hitem.2))
      ⟨fun hnone => absurd hnone (by simp), fun h => absurd h hn⟩ hitem.1 hfilters
      nofun nofun hlimit ⟨rfl, rfl⟩
  -- However the columns are given, they are tested for nulls.
  have hrest : ∀ subset : List String, (∀ t ∈ subset, Laid config n t) →
      Orderly config (Complete config n) (
      if subset.isEmpty then
        return Select.render { source := item.1, items := [item.2 ++ ".*"] }
      else do
        let how ← n.stringField "how"
        let checks := subset.map (· ++ " IS NOT NULL")
        let filter :=
          if how = "all" then "(" ++ " OR ".intercalate checks ++ ")"
            else " AND ".intercalate checks
        return Select.render
            { source := item.1, items := [item.2 ++ ".*"], filters := [filter] }) := by
    intro subset hsubset
    have hchecks : ∀ t ∈ subset.map (· ++ " IS NOT NULL"), Laid config n t := by
      intro t ht
      obtain ⟨column, hcolumn, rfl⟩ := List.mem_map.1 ht
      exact (hsubset column hcolumn).append (.words (by decide))
    refine .ite (fun _ => .pure (hrender nofun)) fun _ => .lift_bind fun how _ =>
      .pure (hrender ?_)
    refine List.forall_mem_singleton.2 ?_
    split
    · exact .between (by decide) (.intercalate (by decide) hchecks) (by decide)
    · exact .intercalate (by decide) hchecks
  simp only []
  split
  · exact .bind (h.sequence "subset") fun subset hsubset => hrest subset hsubset.2
  · refine .lift_bind fun schema _ =>
      .bind (.pure (P := fun subset : List String => ∀ t ∈ subset, Laid config n t) ?_) hrest
    intro t ht
    obtain ⟨name, -, rfl⟩ := List.mem_map.1 ht
    exact hs.qualified hitem.2 name

theorem fillNullsRule_lays : LaysTable .fillNa fillNullsRule := by
  intro config n emit hkind h
  have hlimit : n.kind ≠ .limit := by rw [hkind]; decide
  refine .lift_bind fun table htable => .lift_bind fun schema hschema =>
    .lift_bind fun replacements hreplacements => ?_
  simp only []
  split
  · exact .throw _
  · have hown : n.outputSchema = .ok schema :=
      (h.built.outputSchema_of_chosen (by simp [hkind]) htable).trans hschema
    have hempty := (Node.leavesEmpty_table (by rw [hkind]; decide) hown).symm
    refine .bind (h.fromItem htable) fun item hitem => ?_
    refine .bind
      (filledItems_laid h
        (fun m hm =>
          h.built.mem_children_of_get? (Node.field_eq_ok hreplacements) hm) hitem.2
      fun hne hleft => hne (List.length_eq_zero_iff.1 (hempty.2 hleft)))
      fun items hitems => .pure ?_
    have hnone : ∀ t ∈ ([] : List String), Laid config n t :=
      fun _ ht => absurd ht List.not_mem_nil
    exact render_complete hitems.2 (hitems.1 ▸ hempty) hitem.1 hnone hnone hnone
      hlimit ⟨rfl, rfl⟩

/-! ### Joins -/

theorem joinSource_laid {quote : Char} {n : Node} (kind : NodeKind) {keyword : String}
    (hkeyword : Unreserved keyword) {left right : String} (hleft : LaidOut quote n [] left)
    (hright : LaidOut quote n [] right) {predicates : List String}
    (h : ∀ t ∈ predicates, LaidOut quote n [] t) :
    LaidOut quote n [] (joinSource kind keyword left right predicates) := by
  have hsides : LaidOut quote n [] (left ++ " " ++ keyword ++ " " ++ right) :=
    (hleft.beside (by decide) (.words hkeyword)).beside (by decide) hright
  unfold joinSource
  split
  · split
    · exact hleft.beside (by decide) hright
    · exact hsides.append (.words (by decide))
  · exact hsides.beside (by decide) (.intercalate (by decide) h)

theorem joinRule_lays {kind : NodeKind}
    (hkind : kind ∈ NodeKind.wideJoins ∨ kind = .leftSemiJoin ∨ kind = .leftAntiJoin)
    {keyword : String} (hkeyword : Unreserved keyword) :
    LaysTable kind (joinRule kind keyword) := by
  rintro config n emit rfl h
  have hlimit : n.kind ≠ .limit := by
    rw [NodeKind.mem_wideJoins] at hkind
    rcases hkind with (hk | hk | hk | hk) | hk | hk <;> rw [hk] <;> decide
  refine .lift_bind fun left hleft => .lift_bind fun right hright =>
    .bind (h.fromItem hleft) fun leftPart hleftPart => ?_
  refine .bind (h.fromItem hright) fun rightPart hrightPart =>
    .bind (h.sequence "predicates") fun predicates hpredicates => ?_
  have hsource := joinSource_laid n.kind hkeyword hleftPart.1 hrightPart.1 hpredicates.2
  refine .ite (fun hsemi => ?_) fun hwide => ?_
  · have hn : ¬ n.LeavesEmpty := by
      refine not_leavesEmpty ?_
      rw [Bool.or_eq_true, decide_eq_true_eq, decide_eq_true_eq] at hsemi
      rcases hsemi with hk | hk <;> rw [hk] <;> decide
    exact .pure (render_complete (List.forall_mem_singleton.2 (allColumns_laid hleftPart.2))
      ⟨fun hnone => absurd hnone (by simp), fun h => absurd h hn⟩ hsource
      nofun nofun nofun hlimit ⟨rfl, rfl⟩)
  · have hjoin : n.kind ∈ NodeKind.wideJoins :=
      hkind.resolve_right fun hk => hwide (by simpa using hk)
    obtain ⟨left', right', l, r, s, hj⟩ := h.built.joins hjoin
    obtain ⟨rfl, rfl⟩ := hj.of_children hleft hright
    refine .lift_bind fun l' hl => .lift_bind fun r' hr => .target_bind fun t ht => ?_
    cases hl.symm.trans hj.leftSchema
    cases hr.symm.trans hj.rightSchema
    refine .bind (.update fun _ hs => hs.rename _ _) fun _ _ => .pure ?_
    refine render_complete
      (List.forall_mem_append.2 ⟨fun item hitem => ?_, fun item hitem => ?_⟩) ?_ hsource
      nofun nofun nofun
      hlimit ⟨rfl, rfl⟩
    · obtain ⟨name, -, rfl⟩ := List.mem_map.1 hitem
      exact ht.qualified hleftPart.2 name
    · obtain ⟨column, -, rfl⟩ := List.mem_map.1 hitem
      unfold rightItem
      simp only []
      split
      · exact (ht.qualified hrightPart.2 _).beside (by decide) (ht.quote _)
      · exact ht.qualified hrightPart.2 _
    · have hlength := (Rules.columns_of_pushRight hj.pushed).2
      have hnames : l.names.length = l.columns.length := List.length_map _
      rw [Node.leavesEmpty_table (List.mem_append_right _ hjoin) hj.schema,
        List.length_append, List.length_map, List.length_map, hnames, hlength]

theorem tableRules_lay : ∀ x ∈ tableRules, x.1 ≠ .sortKey → LaysTable x.1 x.2 := by
  have hwide {kind : NodeKind} (h : kind ∈ NodeKind.wideJoins) {keyword : String}
    (hkeyword : Unreserved keyword) :
      LaysTable kind (joinRule kind keyword) := joinRule_lays (Or.inl h) hkeyword
  simp only [tableRules, List.forall_mem_cons]
  exact ⟨fun _ => databaseTableRule_lays, fun _ => inMemoryTableRule_lays,
    fun h => absurd rfl h, fun _ => selectionRule_lays, fun _ => aggregationRule_lays,
    fun _ => limitRule_lays, fun _ => distinctRule_lays, fun _ => dropNullsRule_lays,
    fun _ => fillNullsRule_lays, fun _ => hwide (by decide) (by decide),
    fun _ => hwide (by decide) (by decide), fun _ => hwide (by decide) (by decide),
    fun _ => hwide (by decide) (by decide), fun _ => joinRule_lays (Or.inr (Or.inl rfl))
    (by decide), fun _ => joinRule_lays (Or.inr (Or.inr rfl)) (by decide),
      fun _ hx => absurd hx List.not_mem_nil⟩

/-! ## All nodes -/

/-- The rule that was resolved for a node lays its text out. -/
theorem rule_complete {config : SqlConfig} {n : Node} {k : NodeKind} {rule : SqlRule}
    (hresolve : rules.resolve n.kind = .ok (k, rule)) {emit : Node → Writing String}
    (h : LaysFields config n emit) :
    Orderly config (Complete config n) (rule emit n) := by
  obtain ⟨hlineage, hmem | ⟨hmem, hne⟩ | heq⟩ := mem_of_resolve hresolve
  · have hleaf : ∀ kind ∈ NodeKind.all, ∀ k ∈ kind.lineage, k ∈ plainRules.map (·.1) →
        kind = k ∧ kind ≠ .limit ∧ (kind ∈ Node.listingKinds →
          kind ∈ [.contains, .notContains, .simpleCase, .searchedCase, .coalesce, .greatest,
            .least]) := by set_option maxRecDepth 2000 in decide
    obtain ⟨hkind, hlimit, hlisting⟩ :=
      hleaf n.kind n.kind.mem_all k hlineage (List.mem_map_of_mem (f := (·.1)) hmem)
    by_cases hlist : n.kind ∈ Node.listingKinds
    · exact listingRule_complete (hlisting hlist) hresolve h
    · have hn := not_leavesEmpty hlist
      exact (plainRules_lay _ hmem (hkind ▸ hlist) config n emit hn h).mono fun _ htext =>
        .of_laid htext hn hlimit
  · obtain rfl := eq_of_mem_tableRules hlineage hmem
    exact tableRules_lay _ hmem hne config n emit rfl h
  · cases heq
    exact .throw _

theorem emitWithin_complete {config : SqlConfig} {n : Node} (hn : n.Built) (depth : Nat) :
    Orderly config (Complete config n) (rules.emitWithin depth n) := by
  induction depth generalizing n with
  | zero => exact .throw _
  | succ depth ih =>
      have hknown : Orderly config (· = none) (known? n : Writing (Option String)) := by
        intro s found after hs hrun
        cases hrun
        exact ⟨⟨s, rfl, hs⟩, rfl⟩
      have hremember (text : String) :
          Orderly config (fun _ => True) (remember n text : Writing Unit) := by
        intro s u after hs hrun
        cases hrun
        exact ⟨⟨s, rfl, hs⟩, trivial⟩
      have hfields : LaysFields config n (rules.emitWithin depth) :=
        ⟨hn, fun m hm => (ih (hn.of_mem_children hm)).mono fun _ htext => htext.laid⟩
      refine .bind hknown fun found hfound => ?_
      subst hfound
      refine .lift_bind fun (k, rule) hresolve =>
        .bind (rule_complete hresolve hfields) fun text htext => ?_
      exact .bind (hremember text) fun _ _ => .pure htext

/-- Whatever is written for a node is laid out. -/
theorem compile_complete {n : Node} (hn : n.Built) {config : Config} {text : String}
    (h : compile config n = .ok text) :
    Complete config.sql n text := by
  have hplain := (compile_memoizing_false hn config).trans h
  have hstart : InOrder config.sql { config := config.sql } :=
    ⟨rfl, List.forall_mem_singleton.2 fun _ hl => absurd hl List.not_mem_nil⟩
  exact (emitWithin_complete hn n.depth { config := config.sql } text _ hstart
    (Prod.ext hplain rfl)).2

end TypedQuery.Sql
