import TypedQuery.Proofs.CharacterSearch
import TypedQuery.Proofs.Columnar.Counts
import TypedQuery.Proofs.Columnar.RowView
import TypedQuery.Proofs.Engine.Operands
import TypedQuery.Proofs.Sql.Meaning

/-!
# Texts in texts

Where a text is searched for in another one, SQL is asked for the first position at or
after a start and the engine looks for it itself. The engine counts from zero and gives -1
for what it does not find; a target that counts from one gives 0. Both agree for every text
and every start that has room for one more.
-/

namespace TypedQuery

/-! ## First positions -/

namespace Text

/-- A text occurs first where the rest begins with it for the first time. -/
theorem indexOf?_eq_find? (needle cs : List Char) :
    indexOf? needle cs = (List.range (cs.length + 1)).find? fun i =>
      needle.isPrefixOf (cs.drop i) := by
  induction cs with
  | nil =>
      rw [indexOf?]
      cases needle <;> simp
  | cons c rest ih =>
      rw [indexOf?, ih, List.length_cons, @List.range_succ_eq_map (rest.length + 1),
        List.find?_cons, List.find?_map, List.drop_zero]
      cases needle.isPrefixOf (c :: rest) <;> rfl

/-- A search from a start on passes over the positions in front of it. -/
theorem find_eq (needle : List Char) (start : Nat) (cs : List Char) :
    find needle start cs = (((List.range (cs.length + 1)).find? fun i =>
      decide (start ≤ i) && needle.isPrefixOf (cs.drop i)).map Int.ofNat).getD (-1) := by
  rw [find_eq_indexOf?]
  split
  · next h =>
      have hnone :
          ((List.range (cs.length + 1)).find? fun i =>
              decide (start ≤ i) && needle.isPrefixOf (cs.drop i)) = none := by
        rw [List.find?_eq_none]
        intro i hi
        have hlt := List.mem_range.1 hi
        simp only [Bool.and_eq_true, decide_eq_true_eq, not_and]
        omega
      rw [hnone]
      rfl
  · next h =>
      have hlength : cs.length + 1 = start + ((cs.drop start).length + 1) := by
        rw [List.length_drop]
        omega
      have hbefore :
          ((List.range start).find? fun i =>
            decide (start ≤ i) && needle.isPrefixOf (cs.drop i)) = none := by
        rw [List.find?_eq_none]
        intro i hi
        have hlt := List.mem_range.1 hi
        simp only [Bool.and_eq_true, decide_eq_true_eq, not_and]
        omega
      have hafter :
          ((fun i => decide (start ≤ i) && needle.isPrefixOf (cs.drop i)) ∘ (start + ·))
          = fun i => needle.isPrefixOf ((cs.drop start).drop i) := by
        funext i
        simp [List.drop_drop]
      rw [hlength, List.range_add, List.find?_append, hbefore, Option.none_or,
        List.find?_map, hafter, ← indexOf?_eq_find?]
      cases indexOf? needle (cs.drop start) <;> rfl

end Text

namespace Sql

/-- What SQL locates from a position on is one after what is found from the
position before it on. -/
theorem locate_eq_find (needle haystack : List Char) (start : Nat) :
    (locate needle haystack (start + 1) : Int) = Text.find needle start haystack + 1 := by
  have hrest :
      ((fun i : Nat => decide (1 ≤ i ∧ (start + 1 : Int) ≤ i)
        && needle.isPrefixOf (haystack.drop (i - 1))) ∘ Nat.succ)
      = fun i => decide (start ≤ i) && needle.isPrefixOf (haystack.drop i) := by
    funext i
    simp
  rw [locate, List.range_succ_eq_map, List.find?_cons_of_neg (by simp), List.find?_map,
    hrest, Text.find_eq]
  cases (List.range (haystack.length + 1)).find? fun i =>
    decide (start ≤ i) && needle.isPrefixOf (haystack.drop i) <;> simp

end Sql

/-! ## Fields of a search -/

namespace Node

variable {n : Node} {k : Int64}

/-- The search has no end. -/
def Endless (n : Node) : Prop := (n.get? "end").getD .none = .none

/-- The search starts at a constant, and at zero if it starts nowhere in particular. -/
def StartsAt (n : Node) (k : Int64) : Prop :=
  n.optionalLiteral "sql" "start" = .ok (some (.int64 k))
    ∨ n.optionalLiteral "sql" "start" = .ok none ∧ k = 0

theorem Endless.child? (h : n.Endless) : n.child? "end" = none := by
  unfold Endless at h
  rw [Node.child?]
  cases hget : n.get? "end" with
  | none => rfl
  | some a =>
      rw [hget] at h
      cases h
      rfl

/-- The constant in a field does not depend on who asks for it. -/
theorem optionalLiteral_of_ok {target field : String} {v : Option Value}
    (h : n.optionalLiteral target field = .ok v) (other : String) :
    n.optionalLiteral other field = .ok v := by
  unfold optionalLiteral at *
  cases hget : n.get? field with
  | none => rwa [hget] at h
  | some a =>
      rw [hget] at h
      cases a with
      | node m =>
          simp only [] at h ⊢
          split at h
          · next hm => rwa [if_pos hm]
          · cases h
      | _ => first | exact h | cases h

end Node

/-! ## What a search is compiled to -/

theorem Engine.readFind_eq {n l : Node} {needle : String} {k : Int64} (hend : n.Endless)
    (hl : n.child "substr" = .ok l) (hneedle : l.literal? = some (.string needle))
    (hstart : n.StartsAt k) (hk : 0 ≤ k) :
    readFind n = .ok (.find needle k.toInt.toNat) := by
  have hpresent : (!((n.get? "end").getD .none).isNone) = false := by rw [hend]; rfl
  have htext : textLiteral n "substr" = .ok needle := textLiteral_eq hl hneedle
  rw [readFind, hpresent, htext]
  rcases hstart with hstart | ⟨hstart, rfl⟩
  · have hint : intLiteral? n "start" = .ok (some k) := by
      rw [intLiteral?, Node.optionalLiteral_of_ok hstart]
      rfl
    have hcount : countOf n "start" k = .ok k.toInt.toNat := if_neg (Int64.not_lt.2 hk)
    rw [hint]
    show (countOf n "start" k >>= fun start => Except.ok (Function.find needle start)) = _
    rw [hcount]
    rfl
  · have hint : intLiteral? n "start" = .ok none := by
      rw [intLiteral?, Node.optionalLiteral_of_ok hstart]
      rfl
    rw [hint]
    rfl

namespace Sql

variable {s : Statement} {n m l : Node} {hay needle : String} {k : Int64}

/-- The position at which a search starts, where positions count from `origin`; there is
none for the beginning. -/
def startPosition (origin : Int) (k : Int64) : List Int :=
  if k = 0 then [] else [k.toInt + origin]

theorem offset_eq (s : Statement) : s.offset = 0 ∨ s.offset = 1 := by
  unfold Statement.offset
  cases s.config.indexOrigin
  · exact .inl rfl
  · exact .inr rfl

/-- What is written for the start is its position, unless it has no room in 64 bits. -/
theorem run_searchStart (hstart : n.StartsAt k) {origin : Int}
    (horigin : origin = 0 ∨ origin = 1)
    (hfits : Instant.fitsInt64 (k.toInt + origin) = true)
    (session : Session Statement String) :
    (searchStart (answered s) n origin).run session
      = (.ok ((startPosition origin k).map toString), session) := by
  have hsum : (k + Int64.ofInt origin).toInt = k.toInt + origin := by
    obtain ⟨hmin, hmax⟩ := Instant.fitsInt64_iff.1 hfits
    have horigin : (Int64.ofInt origin).toInt = origin := by
      rcases horigin with rfl | rfl <;> decide
    rw [Int64.toInt_add, horigin]
    exact Int.bmod_eq_of_le (by omega) (by omega)
  rcases hstart with hstart | ⟨hstart, rfl⟩
  · rw [searchStart, hstart, startPosition]
    by_cases hk : k = 0
    · rw [if_pos hk]
      show (pure (if k = 0 then _ else _) : Writing _).run session = _
      rw [if_pos hk]
      rfl
    · rw [if_neg hk]
      show (pure (if k = 0 then _ else _) : Writing _).run session = _
      rw [if_neg hk, hsum]
      rfl
  · rw [searchStart, hstart]
    rfl

/-- The text of a search for a constant. -/
theorem textOf_find (h : n.Built) (hkind : n.kind = .stringFind) (hend : n.Endless)
    (hm : n.child "arg" = .ok m) (hl : n.child "substr" = .ok l)
    (hneedle : l.literal? = some (.string needle)) (hstart : n.StartsAt k)
    (hfits : Instant.fitsInt64 (k.toInt + s.offset) = true) (hhay : TextOf s m hay) :
    TextOf s n (unshifted
      (call "locate" ([quotedText needle, hay] ++ (startPosition s.offset k).map toString))
        s.offset) := by
  have hsubstr : TextOf s l (quotedText needle) := textOf_literal (h.of_child hl) hneedle rfl
  have hresolve : rules.resolve n.kind = .ok (.stringFind, findRule) :=
    resolve_of_kind hkind rfl
  refine textOf_of_run ⟨h, .inl (by rw [hkind]; rfl)⟩ hresolve ?_
  have hend : ¬ (n.child? "end").isSome = true := by rw [hend.child?]; nofun
  rw [findRule, if_neg hend]
  rw [Emission.run_bind_of_ok (Emission.run_target _),
    Emission.run_bind_of_ok (run_field hm hhay _),
    Emission.run_bind_of_ok (run_field hl hsubstr _),
    Emission.run_bind_of_ok (run_searchStart hstart (offset_eq s) hfits _)]
  rfl

/-! ## What a search denotes -/

theorem search_startPosition (needle hay : String) (hk : 0 ≤ k.toInt) :
    search "locate" ([.text needle, .text hay] ++ (startPosition 1 k).map .int)
      = some (.int (Text.find needle.toList k.toInt.toNat hay.toList + 1)) := by
  unfold startPosition
  split
  · next hzero =>
      have hlocate := locate_eq_find needle.toList hay.toList 0
      rw [hzero]
      exact (search_locate needle hay).trans
        (congrArg (fun position => some (Datum.int position)) hlocate)
  · have hlocate := locate_eq_find needle.toList hay.toList k.toInt.toNat
    rw [Int.toNat_of_nonneg hk] at hlocate
    exact (search_locate_from needle hay _).trans
      (congrArg (fun position => some (Datum.int position)) hlocate)

/-- The start as it is read. -/
theorem legible_startPosition (quote : Char) (given : Phrase → Option Datum)
    (origin : Int) (k : Int64) :
    ∃ ps, List.Forall₂ (Legible quote) ((startPosition origin k).map toString) ps
      ∧ List.Forall₂ (fun p d => p.denotes given = some [d]) ps
        ((startPosition origin k).map .int) := by
  unfold startPosition
  split
  · exact ⟨[], .nil, .nil⟩
  · refine ⟨[.signed (k.toInt + origin < 0) (toString (k.toInt + origin).natAbs)],
      .cons ⟨.integer _, Phrase.readable_signed _ _, ?_⟩ .nil,
      .cons (Phrase.denotes_signed _) .nil⟩
    rw [Phrase.level_signed]
    split <;> decide

/-- What is found in a text, and null for null. -/
def found (needle : String) (k : Int64) : Cell → Cell :=
  Column.mappedText fun hay => some (.int (Text.find needle.toList k.toInt.toNat hay))

/-- Where positions count from one, the text of a search denotes what is found in what the
text searched in denotes. -/
theorem denotes_find (h : n.Built) (hkind : n.kind = .stringFind) (hend : n.Endless)
    (hm : n.child "arg" = .ok m) (hl : n.child "substr" = .ok l)
    (hneedle : l.literal? = some (.string needle)) (hstart : n.StartsAt k)
    (hk : 0 ≤ k.toInt) (hfits : Instant.fitsInt64 (k.toInt + s.offset) = true)
    (hone : s.offset = 1) {given : Phrase → Option Datum} {cell : Cell}
    (hcell : (∃ hay, cell = .text hay) ∨ cell.isNull = true)
    (hdenotes : Denotes s given m (.ofCell cell)) :
    Denotes s given n (.ofCell (found needle k cell)) := by
  obtain ⟨hay, p, hhay, hp, hd⟩ := hdenotes
  obtain ⟨starts, hshown, hstarts⟩ :=
    legible_startPosition s.config.identifierQuote given 1 k
  have htext := textOf_find h hkind hend hm hl hneedle hstart hfits hhay
  have hlegible := Legible.search (s := s) namesFunction_locate
    (.cons (.quotedText s.config.identifierQuote needle) (.cons hp hshown))
  have hargs : List.Forall₂ (fun p d => p.denotes given = some [d])
      (.atom (.text needle) :: p :: starts)
      ([.text needle, .ofCell cell] ++ (startPosition 1 k).map .int) :=
        .cons rfl (.cons hd hstarts)
  rw [hone] at htext hlegible
  refine ⟨_, _, htext, hlegible, ?_⟩
  have hsearch := Phrase.denotes_search (Or.inl (rfl : "locate" = "locate")) hargs
  rcases hcell with ⟨content, rfl⟩ | hnull
  · have hcontent : Datum.ofCell (.text content) = .text content := rfl
    rw [hcontent, search_startPosition _ _ hk] at hsearch
    rw [denotes_positionFound hsearch]
    show some [Datum.int (Text.find needle.toList k.toInt.toNat content.toList + 1 - 1)] = _
    rw [Int.add_sub_cancel]
    rfl
  · have hcell : Datum.ofCell cell = .null ∧ Datum.ofCell (found needle k cell) = .null := by
      cases cell <;> first | exact ⟨rfl, rfl⟩ | cases hnull
    rw [hcell.1, search_null (by simp)] at hsearch
    rw [denotes_positionFound hsearch, hcell.2]
    rfl

end Sql

/-- A search that starts at a constant finds the same position on both targets. The
engine gives the first position at or after the start, or -1; for a target that counts
from zero, start and position are written as they are, and for one that counts from
one the start is written one higher and the position one lower, as long as the start
has room for one more. -/
theorem text_searches {clock : Engine.Clock} {n m l : Node} {arg : Expr} {needle : String}
    {k : Int64} (h : n.Built) (hkind : n.kind = .stringFind) (hend : n.Endless)
    (hm : n.child "arg" = .ok m) (harg : Engine.Compiled clock m arg)
    (hl : n.child "substr" = .ok l) (hneedle : l.literal? = some (.string needle))
    (hstart : n.StartsAt k) (hk : 0 ≤ k) :
    Engine.Compiled clock n (arg.callOne (.find needle k.toInt.toNat))
      ∧ (∀ (s : Sql.Statement) (hay : String), Sql.TextOf s m hay →
        (s.config.indexOrigin = .zero →
          Sql.TextOf s n (Sql.call "locate"
            ([Sql.quotedText needle, hay] ++ (Sql.startPosition 0 k).map toString)))
        ∧ (s.config.indexOrigin = .one → k.toInt + 1 < 2 ^ 63 →
          Sql.TextOf s n (Sql.call "locate"
            ([Sql.quotedText needle, hay] ++ (Sql.startPosition 1 k).map toString)
            ++ " - 1")))
      ∧ ∀ (b : Batch) (c : Column), arg.evaluate b = .ok c → c.OfTexts →
        ∃ out, (arg.callOne (.find needle k.toInt.toNat)).evaluate b = .ok out
          ∧ (∀ i hay, c.row i = .text hay →
            out.row i = .int (Text.find needle.toList k.toInt.toNat hay.toList))
          ∧ (∀ i, (c.row i).isNull = true → (out.row i).isNull = true)
          ∧ ∀ (s : Sql.Statement) (given : Sql.Phrase → Option Sql.Datum),
            s.config.indexOrigin = .one → k.toInt + 1 < 2 ^ 63 →
            ∀ i, Sql.Denotes s given m (.ofCell (c.row i)) →
              Sql.Denotes s given n (.ofCell (out.row i)) := by
  have hpos : 0 ≤ k.toInt := Int64.le_iff_toInt_le.1 hk
  have hmax : k.toInt < 2 ^ 63 := Int64.toInt_lt k
  have hzero {s : Sql.Statement} (horigin : s.config.indexOrigin = .zero) :
      s.offset = 0 ∧ Instant.fitsInt64 (k.toInt + s.offset) = true := by
    have hoffset : s.offset = 0 := congrArg IndexOrigin.offset horigin
    exact ⟨hoffset, Instant.fitsInt64_iff.2 ⟨by omega, by omega⟩⟩
  have hone {s : Sql.Statement} (horigin : s.config.indexOrigin = .one)
    (hroom : k.toInt + 1 < 2 ^ 63) :
      s.offset = 1 ∧ Instant.fitsInt64 (k.toInt + s.offset) = true := by
    have hoffset : s.offset = 1 := congrArg IndexOrigin.offset horigin
    exact ⟨hoffset, Instant.fitsInt64_iff.2 ⟨by omega, by omega⟩⟩
  refine ⟨Engine.compiled_callWith h (Engine.resolve_of_kind hkind rfl)
    (Engine.readFind_eq hend hl hneedle hstart hk)
    ⟨m, hm, harg⟩, fun s hay hhay => ⟨fun horigin => ?_, fun horigin hroom => ?_⟩,
      fun b c hc htexts => ?_⟩
  · obtain ⟨hoffset, hfits⟩ := hzero horigin
    have htext := Sql.textOf_find h hkind hend hm hl hneedle hstart hfits hhay
    rwa [hoffset, Sql.unshifted_zero] at htext
  · obtain ⟨hoffset, hfits⟩ := hone horigin hroom
    have htext := Sql.textOf_find h hkind hend hm hl hneedle hstart hfits hhay
    rwa [hoffset, Sql.unshifted_one] at htext
  · have hfind : (Function.find needle k.toInt.toNat).apply [c]
        = .ok ⟨.int64, c.cells.map (Sql.found needle k)⟩ := by
      show c.mapTexts .int64
        (fun hay => some (.int (Text.find needle.toList k.toInt.toNat hay))) = _
      exact Column.mapTexts_eq htexts .int64 _
    have hrow : ∀ i, Column.row ⟨.int64, c.cells.map (Sql.found needle k)⟩ i
        = Sql.found needle k (c.row i) :=
      Column.row_mappedText .int64 _
    refine ⟨_, (Expr.callOne_eq_ok hc).2 hfind, fun i hay hhay => ?_, fun i hnull => ?_,
      fun s given horigin hroom i hdenotes => ?_⟩
    · rw [hrow, hhay]
      rfl
    · rw [hrow]
      cases hcell : c.row i <;> rw [hcell] at hnull <;> first | rfl | cases hnull
    · obtain ⟨hoffset, hfits⟩ := hone horigin hroom
      rw [hrow]
      exact Sql.denotes_find h hkind hend hm hl hneedle hstart hpos hfits hoffset
        (htexts.row i) hdenotes

/-- From the fourth character on, the second of two occurrences is found. -/
theorem text_searches_from_three :
    ∃ (n : Node) (e : Expr) (out : Column),
      Node.build .stringFind
        [.node (Node.literal (.string "abcabc")), .node (Node.literal (.string "c")),
          .node (Node.literal (.int64 3))] [] = .ok n
        ∧ Engine.Compiled ⟨0⟩ n e ∧ Sql.compile {} n = .ok "locate('c', 'abcabc', 4) - 1"
        ∧ e.evaluate ⟨1, []⟩ = .ok out ∧ out.row 0 = .int 5
        ∧ ∀ given, Sql.Denotes { config := {} } given n (.int 5) := by
  obtain ⟨n, hn, hkind, hend, hm, hl, hstart⟩ : ∃ n : Node,
      Node.build .stringFind
      [.node (Node.literal (.string "abcabc")), .node (Node.literal (.string "c")),
          .node (Node.literal (.int64 3))] [] = .ok n
        ∧ n.kind = .stringFind ∧ n.Endless
        ∧ n.child "arg" = .ok (Node.literal (.string "abcabc"))
        ∧ n.child "substr" = .ok (Node.literal (.string "c"))
            ∧ n.optionalLiteral "sql" "start" = .ok (some (.int64 3)) :=
    ⟨_, rfl, rfl, rfl, rfl, rfl, rfl⟩
  have bn : n.Built := by
    refine .of_build hn (fun k hk => ?_) nofun
    simp only [Arg.nodesOfItems, Arg.nodes, List.singleton_append, List.mem_cons,
      List.not_mem_nil, or_false] at hk
    rcases hk with rfl | rfl | rfl <;> exact .literal _
  have harg : Engine.Compiled ⟨0⟩ (Node.literal (.string "abcabc"))
    (.constant (.string "abcabc")) := rfl
  obtain ⟨he, htexts, hrows⟩ :=
    text_searches bn hkind hend hm harg hl rfl (.inl hstart) (by decide)
  have hhay {s : Sql.Statement} :
      Sql.TextOf s (Node.literal (.string "abcabc")) "'abcabc'" :=
    Sql.textOf_literal (.literal _) rfl rfl
  have htext := (htexts { config := {} } "'abcabc'" hhay).2 rfl (by decide)
  obtain ⟨out, hout, hfound, -, hdenotes⟩ := hrows ⟨1, []⟩ ⟨.text, [.text "abcabc"]⟩ rfl
    ⟨List.forall_mem_singleton.2 rfl, .inl rfl⟩
  have hrow : out.row 0 = .int 5 := (hfound 0 "abcabc" rfl).trans (by decide)
  refine ⟨n, _, out, hn, he, (Sql.textOf_iff_compile bn {}).1 htext, hout, hrow,
    fun given => ?_⟩
  have hsame := hdenotes { config := {} } given rfl (by decide) 0
    ⟨_, _, hhay, .quotedText _ "abcabc", rfl⟩
  rwa [hrow] at hsame

/-- The last start has no room for one more: nothing is found from there on, but the start
that is written is below zero. -/
theorem text_searches_from_the_last :
    ∃ n : Node,
      Node.build .stringFind [.value (.string "abc"), .value (.string "b"),
        .value (.int64 9223372036854775807)] [] = .ok n
        ∧ Sql.compile {} n = .ok "locate('b', 'abc', -9223372036854775808) - 1"
        ∧ (Sql.locate "b".toList "abc".toList (-9223372036854775808) : Int) - 1 = 1
        ∧ Text.find "b".toList 9223372036854775807 "abc".toList = -1 := by
  refine ⟨_, rfl, ?_, by decide, by decide⟩
  set_option maxRecDepth 2000 in with_unfolding_all decide

end TypedQuery
