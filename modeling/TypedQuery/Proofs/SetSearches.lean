import TypedQuery.Proofs.Columnar.RowView
import TypedQuery.Proofs.Engine.Operands
import TypedQuery.Proofs.Sql.Meaning

/-!
# Texts in lists of texts

Where a text is looked for among others, the engine compares it with each of them, and SQL
is given all of them in one text with commas in between. That text stands for the list as
long as there is something in it and no comma in any of them: then the positions are the
same. Otherwise there is a text that is found on the one target and not on the other.
-/

namespace TypedQuery

/-- What stands between separators holds none. -/
theorem not_mem_of_mem_splitOn {sep : Char} {cs piece : List Char}
    (h : piece ∈ cs.splitOn sep) : sep ∉ piece := by
  induction cs generalizing piece with
  | nil =>
      rw [List.splitOn_nil, List.mem_singleton] at h
      rw [h]
      exact List.not_mem_nil
  | cons c rest ih =>
      obtain ⟨head, more, hrest⟩ := List.exists_cons_of_ne_nil (List.splitOn_ne_nil sep rest)
      rw [List.splitOn_cons_eq_if_modifyHead, hrest] at h
      rw [hrest] at ih
      split at h
      · rcases List.mem_cons.1 h with rfl | h
        · exact List.not_mem_nil
        · exact ih h
      · next hc =>
          rcases List.mem_cons.1 h with rfl | h
          · rw [List.mem_cons, not_or]
            exact ⟨fun hsep => hc (beq_iff_eq.2 hsep.symm), ih List.mem_cons_self⟩
          · exact ih (List.mem_cons_of_mem _ h)

/-! ## Positions in lists -/

/-- The position of the first equal text, and -1 if there is none. -/
def indexIn (values : List String) (needle : String) : Int :=
  ((values.findIdx? (· = needle)).map Int.ofNat).getD (-1)

/-- There is a text in the list, and no comma in any of them. -/
def Separable (values : List String) : Prop := values ≠ [] ∧ ∀ v ∈ values, ',' ∉ v.toList

instance (values : List String) : Decidable (Separable values) :=
  inferInstanceAs (Decidable (values ≠ [] ∧ ∀ v ∈ values, ',' ∉ v.toList))

theorem indexIn_nonneg_iff {values : List String} {needle : String} :
    0 ≤ indexIn values needle ↔ needle ∈ values := by
  unfold indexIn
  cases hindex : values.findIdx? (· = needle) with
  | none =>
      have hnone := List.findIdx?_eq_none_iff.1 hindex
      simpa using hnone needle
  | some i =>
      obtain ⟨hi, heq, -⟩ := List.findIdx?_eq_some_iff_getElem.1 hindex
      have hmem : needle ∈ values := of_decide_eq_true heq ▸ List.getElem_mem hi
      simp [hmem]

namespace Sql

theorem positionInSet_intercalate {values : List String} (h : Separable values)
    (needle : String) :
    (positionInSet needle (",".intercalate values) : Int) = indexIn values needle + 1 := by
  have hsplit : (",".intercalate values).toList.splitOn ',' = values.map String.toList := by
    rw [String.toList_intercalate]
    refine List.splitOn_intercalate ',' (fun cs hcs => ?_) (by simpa using h.1)
    obtain ⟨v, hv, rfl⟩ := List.mem_map.1 hcs
    exact h.2 v hv
  have hsame : ((fun cs : List Char => decide (cs = needle.toList)) ∘ String.toList)
      = fun v => decide (v = needle) := by
    funext v
    simp [String.toList_inj]
  rw [positionInSet, hsplit, List.findIdx?_map, hsame, indexIn]
  cases values.findIdx? (· = needle) <;> simp

/-- A text with a comma is no element of any set. -/
theorem positionInSet_of_comma {needle : String} (h : ',' ∈ needle.toList) (set : String) :
    positionInSet needle set = 0 := by
  have hnone : (set.toList.splitOn ',').findIdx? (· = needle.toList) = none := by
    rw [List.findIdx?_eq_none_iff]
    intro piece hpiece
    refine decide_eq_false fun heq => ?_
    exact not_mem_of_mem_splitOn hpiece (heq ▸ h)
  rw [positionInSet, hnone]
  rfl

/-- The set stands for the list exactly if there is something in it that holds no comma. -/
theorem positionInSet_eq_iff (values : List String) :
    (∀ needle, (positionInSet needle (",".intercalate values) : Int) - 1
      = indexIn values needle) ↔ Separable values := by
  constructor
  · intro h
    refine ⟨fun hnil => ?_, fun v hv hcomma => ?_⟩
    · subst hnil
      exact absurd (h "") (by decide)
    · have hfound := indexIn_nonneg_iff.2 hv
      have hmissed := h v
      rw [positionInSet_of_comma hcomma] at hmissed
      omega
  · intro h needle
    rw [positionInSet_intercalate h]
    omega

end Sql

/-! ## What a search is compiled to -/

variable {n m : Node} {nodes : List Node} {values : List String}

/-- The nodes are constants, of these texts. -/
def Node.Texts (nodes : List Node) (values : List String) : Prop :=
  List.Forall₂ (fun l v => l.literal? = some (.string v)) nodes values

theorem Node.Texts.mapM_eq (h : Node.Texts nodes values) :
    (nodes.map Arg.node).mapM Engine.textOf? = some values := by
  induction h with
  | nil => rfl
  | @cons l v _ _ hv _ ih =>
      have htext : Engine.textOf? (.node l) = some v := by rw [Engine.textOf?, hv]
      rw [List.map_cons, List.mapM_cons, htext, ih]
      rfl

theorem Engine.readSet_eq (hnodes : n.get? "values" = some (.seq (nodes.map .node)))
    (hvalues : Node.Texts nodes values) :
    readSet n = .ok (.findInSet values) := by
  have htexts : (Arg.seq (nodes.map .node)).seq?.bind (fun items => items.mapM textOf?)
    = some values := hvalues.mapM_eq
  rw [readSet, Node.field_of_get? hnodes]
  simp only [bind, Except.bind, htexts]

namespace Sql

variable {s : Statement} {needle : String}

/-- The text of a search in a list of constants. -/
theorem textOf_findInSet (h : n.Built) (hkind : n.kind = .findInSet)
    (hm : n.child "needle" = .ok m)
    (hnodes : n.get? "values" = some (.seq (nodes.map .node)))
    (hvalues : Node.Texts nodes values) (hneedle : TextOf s m needle) :
    TextOf s n (unshifted
      (call "find_in_set" [needle, quotedText (",".intercalate values)]) s.offset) := by
  have htexts : constantTexts nodes = .ok values :=
    mapM_eq_ok.2 (hvalues.imp fun l v hl => by rw [constantText, hl])
  have hresolve : rules.resolve n.kind = .ok (.findInSet, findInSetRule) :=
    resolve_of_kind hkind rfl
  refine textOf_of_run ⟨h, .inl (by rw [hkind]; rfl)⟩ hresolve ?_
  rw [findInSetRule, Emission.run_bind_of_ok (run_field hm hneedle _),
    Node.childList_of_get? hnodes, Emission.run_bind_of_ok (Emission.run_lift _ _), htexts,
    Emission.run_bind_of_ok (Emission.run_lift _ _)]
  rfl

/-- The position of a text in a list, and null for null. -/
def foundIn (values : List String) : Cell → Cell :=
  Column.mappedText fun needle => some (.int (indexIn values (String.ofList needle)))

/-- What the search in the set gives, and null for null. -/
def foundInSet (values : List String) : Cell → Datum
  | .text needle => .int (positionInSet needle (",".intercalate values) - 1)
  | _ => .null

/-- Where positions count from one, the text of a search denotes what is found in the set. -/
theorem denotes_findInSet (h : n.Built) (hkind : n.kind = .findInSet)
    (hm : n.child "needle" = .ok m)
    (hnodes : n.get? "values" = some (.seq (nodes.map .node)))
    (hvalues : Node.Texts nodes values) (hone : s.offset = 1)
    {given : Phrase → Option Datum} {cell : Cell}
    (hcell : (∃ needle, cell = .text needle) ∨ cell.isNull = true)
    (hdenotes : Denotes s given m (.ofCell cell)) :
    Denotes s given n (foundInSet values cell) := by
  obtain ⟨needle, p, hneedle, hp, hd⟩ := hdenotes
  have htext := textOf_findInSet h hkind hm hnodes hvalues hneedle
  have hlegible := Legible.search (s := s) namesFunction_findInSet
    (.cons hp (.cons (.quotedText s.config.identifierQuote (",".intercalate values)) .nil))
  have hargs : List.Forall₂ (fun p d => p.denotes given = some [d])
      [p, .atom (.text (",".intercalate values))]
      [.ofCell cell, .text (",".intercalate values)] := .cons hd (.cons rfl .nil)
  rw [hone] at htext hlegible
  refine ⟨_, _, htext, hlegible, ?_⟩
  have hsearch := Phrase.denotes_search (Or.inr (rfl : "find_in_set" = "find_in_set")) hargs
  rcases hcell with ⟨content, rfl⟩ | hnull
  · have hcontent : Datum.ofCell (.text content) = .text content := rfl
    rw [hcontent, search_findInSet] at hsearch
    exact denotes_positionFound hsearch
  · have hcell : Datum.ofCell cell = .null ∧ foundInSet values cell = .null := by
      cases cell <;> first | exact ⟨rfl, rfl⟩ | cases hnull
    rw [hcell.1, search_null List.mem_cons_self] at hsearch
    rw [denotes_positionFound hsearch, hcell.2]
    rfl

end Sql

/-- A search in a list of constants finds the first equal text on the engine, and the first
element of the set in SQL. Both positions are the same for every text exactly if there is
something in the list and no comma in any of its texts. -/
theorem set_searches {clock : Engine.Clock} {arg : Expr} (h : n.Built)
    (hkind : n.kind = .findInSet) (hm : n.child "needle" = .ok m)
    (harg : Engine.Compiled clock m arg)
    (hnodes : n.get? "values" = some (.seq (nodes.map .node)))
    (hvalues : Node.Texts nodes values) :
    Engine.Compiled clock n (arg.callOne (.findInSet values))
      ∧ (∀ (s : Sql.Statement) (needle : String), Sql.TextOf s m needle →
        Sql.TextOf s n (Sql.unshifted
          (Sql.call "find_in_set" [needle, Sql.quotedText (",".intercalate values)])
          s.offset))
      ∧ ((∀ needle, (Sql.positionInSet needle (",".intercalate values) : Int) - 1
        = indexIn values needle) ↔ Separable values)
      ∧ ∀ (b : Batch) (c : Column), arg.evaluate b = .ok c → c.OfTexts →
        ∃ out, (arg.callOne (.findInSet values)).evaluate b = .ok out
          ∧ (∀ i needle, c.row i = .text needle → out.row i = .int (indexIn values needle))
          ∧ (∀ i, (c.row i).isNull = true → (out.row i).isNull = true)
          ∧ ∀ (s : Sql.Statement) (given : Sql.Phrase → Option Sql.Datum),
            s.config.indexOrigin = .one →
            ∀ i, Sql.Denotes s given m (.ofCell (c.row i)) →
              Sql.Denotes s given n (Sql.foundInSet values (c.row i))
              ∧ (Separable values → Sql.Denotes s given n (.ofCell (out.row i))) := by
  refine ⟨Engine.compiled_callWith h (Engine.resolve_of_kind hkind rfl)
    (Engine.readSet_eq hnodes hvalues) ⟨m, hm, harg⟩,
    fun s needle hneedle => Sql.textOf_findInSet h hkind hm hnodes hvalues hneedle,
    Sql.positionInSet_eq_iff values, fun b c hc htexts => ?_⟩
  have hfind : (Function.findInSet values).apply [c]
      = .ok ⟨.int64, c.cells.map (Sql.foundIn values)⟩ := by
    show c.mapTexts .int64
      (fun needle => some (.int (indexIn values (String.ofList needle)))) = _
    exact Column.mapTexts_eq htexts .int64 _
  have hrow : ∀ i, Column.row ⟨.int64, c.cells.map (Sql.foundIn values)⟩ i
      = Sql.foundIn values (c.row i) :=
    Column.row_mappedText .int64 _
  have hfound (needle : String) : Sql.foundIn values (.text needle)
      = .int (indexIn values needle) := by
    show Cell.int (indexIn values (String.ofList needle.toList)) = _
    rw [String.ofList_toList]
  refine ⟨_, (Expr.callOne_eq_ok hc).2 hfind, fun i needle hneedle => ?_, fun i hnull => ?_,
    fun s given horigin i hdenotes => ?_⟩
  · rw [hrow, hneedle, hfound]
  · rw [hrow]
    cases hcell : c.row i <;> rw [hcell] at hnull <;> first | rfl | cases hnull
  · have hset := Sql.denotes_findInSet h hkind hm hnodes hvalues
      (congrArg IndexOrigin.offset horigin) (htexts.row i) hdenotes
    refine ⟨hset, fun hseparable => ?_⟩
    have hsame : Sql.Datum.ofCell (Sql.foundIn values (c.row i))
        = Sql.foundInSet values (c.row i) := by
      rcases htexts.row i with ⟨needle, hneedle⟩ | hnull
      · rw [hneedle, hfound, Sql.foundInSet, (Sql.positionInSet_eq_iff values).2 hseparable]
        rfl
      · cases hcell : c.row i <;> rw [hcell] at hnull <;> first | rfl | cases hnull
    rw [hrow, hsame]
    exact hset

/-- An empty text is found between two others on both targets. -/
theorem set_searches_of_three :
    ∃ (n : Node) (e : Expr) (out : Column),
      Node.build .findInSet [.node (Node.literal (.string "")),
          .seq ((["x", "", "y z"].map fun v => Node.literal (.string v)).map .node)] []
            = .ok n
        ∧ Engine.Compiled ⟨0⟩ n e ∧ Sql.compile {} n = .ok "find_in_set('', 'x,,y z') - 1"
        ∧ e.evaluate ⟨1, []⟩ = .ok out ∧ out.row 0 = .int 1
        ∧ ∀ given, Sql.Denotes { config := {} } given n (.int 1) := by
  obtain ⟨n, hn, hkind, hm, hnodes⟩ : ∃ n : Node,
      Node.build .findInSet [.node (Node.literal (.string "")),
          .seq ((["x", "", "y z"].map fun v => Node.literal (.string v)).map .node)] []
          = .ok n
        ∧ n.kind = .findInSet ∧ n.child "needle" = .ok (Node.literal (.string ""))
        ∧ n.get? "values"
            = some (.seq
              ((["x", "", "y z"].map fun v => Node.literal (.string v)).map .node)) :=
    ⟨_, rfl, rfl, rfl, rfl⟩
  have bn : n.Built := by
    refine .of_build hn (fun k hk => ?_) nofun
    simp only [Arg.nodesOfItems, Arg.nodes, List.map_cons, List.map_nil,
      List.singleton_append, List.append_nil, List.mem_cons,
      List.not_mem_nil, or_false] at hk
    rcases hk with rfl | rfl | rfl | rfl <;> exact .literal _
  have harg : Engine.Compiled ⟨0⟩ (Node.literal (.string "")) (.constant (.string "")) := rfl
  obtain ⟨he, htexts, -, hrows⟩ :=
    set_searches bn hkind hm harg hnodes (.cons rfl (.cons rfl (.cons rfl .nil)))
  have hneedle {s : Sql.Statement} : Sql.TextOf s (Node.literal (.string "")) "''" :=
    Sql.textOf_literal (.literal _) rfl rfl
  have htext := htexts { config := {} } "''" hneedle
  obtain ⟨out, hout, hfound, -, hdenotes⟩ :=
    hrows ⟨1, []⟩ ⟨.text, [.text ""]⟩ rfl ⟨List.forall_mem_singleton.2 rfl, .inl rfl⟩
  have hrow : out.row 0 = .int 1 := (hfound 0 "" rfl).trans (by decide)
  refine ⟨n, _, out, hn, he, (Sql.textOf_iff_compile bn {}).1 htext, hout, hrow,
    fun given => ?_⟩
  have hsame :=
    (hdenotes { config := {} } given rfl 0 ⟨_, _, hneedle, .quotedText _ "", rfl⟩).2
      (by decide)
  rwa [hrow] at hsame

/-- Two lists are written as one set: one of a text with a comma, and that of the two
parts. So are the empty list and that of the empty text. The engine tells them apart. -/
theorem set_searches_ambiguous :
    ∃ whole parts empty blank : Node,
      Node.build .findInSet [.value (.string "b"), .seq [.value (.string "a,b")]] []
        = .ok whole
        ∧ Node.build .findInSet [.value (.string "b"),
          .seq [.value (.string "a"), .value (.string "b")]] [] = .ok parts
        ∧ Sql.compile {} whole = .ok "find_in_set('b', 'a,b') - 1"
        ∧ Sql.compile {} parts = .ok "find_in_set('b', 'a,b') - 1"
        ∧ (Sql.positionInSet "b" "a,b" : Int) - 1 = 1 ∧ indexIn ["a,b"] "b" = -1
        ∧ indexIn ["a", "b"] "b" = 1
        ∧ Node.build .findInSet [.value (.string ""), .seq []] [] = .ok empty
        ∧ Node.build .findInSet [.value (.string ""), .seq [.value (.string "")]] []
          = .ok blank
        ∧ Sql.compile {} empty = .ok "find_in_set('', '') - 1"
        ∧ Sql.compile {} blank = .ok "find_in_set('', '') - 1"
        ∧ indexIn [] "" = -1 ∧ indexIn [""] "" = 0 := by
  refine ⟨_, _, _, _, rfl, rfl, ?_, ?_, by decide, by decide, by decide, rfl, rfl, ?_, ?_,
    by decide, by decide⟩ <;>
    set_option maxRecDepth 2000 in with_unfolding_all decide

end TypedQuery
