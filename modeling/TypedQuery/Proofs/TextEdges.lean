import TypedQuery.Proofs.Columnar.RowView
import TypedQuery.Proofs.Engine.Operands
import TypedQuery.Proofs.Sql.Meaning

/-!
# Beginnings and ends of texts

Whether a text begins or ends with another one is a pattern in SQL: the other text, and a
percent sign for what is before or after it. A pattern says what its parts say one after
the other (`Like.append_iff`), so it asks for a beginning or an end that is itself of the
pattern that the other text is. Such a part is the text only as long as there are no
wildcards in it: then the engine, which compares characters, gives the same. With a
wildcard in it, there is a text on which they differ.
-/

namespace TypedQuery

/-! ## Patterns -/

/-- A percent sign stands for any run of characters, and an underscore for any one. -/
def IsWildcard (c : Char) : Prop := c = '%' ∨ c = '_'

instance (c : Char) : Decidable (IsWildcard c) :=
  inferInstanceAs (Decidable (c = '%' ∨ c = '_'))

/-- The text is of the pattern. -/
inductive Like : List Char → List Char → Prop
  | nil : Like [] []
  | run (before : List Char) {pattern text : List Char} (h : Like pattern text) :
    Like ('%' :: pattern) (before ++ text)
  | one (c : Char) {pattern text : List Char} (h : Like pattern text) :
    Like ('_' :: pattern) (c :: text)
  | same {c : Char} (hc : ¬ IsWildcard c) {pattern text : List Char}
    (h : Like pattern text) : Like (c :: pattern) (c :: text)

namespace Like

variable {p q text : List Char}

theorem any (text : List Char) : Like ['%'] text := by
  simpa using run text nil

theorem append {a b : List Char} (ha : Like p a) (hb : Like q b) :
    Like (p ++ q) (a ++ b) := by
  induction ha with
  | nil => exact hb
  | run before _ ih => exact List.append_assoc .. ▸ run before ih
  | one c _ ih => exact one c ih
  | same hc _ ih => exact same hc ih

/-- The parts of a pattern stand for parts of the text. -/
theorem append_iff : Like (p ++ q) text ↔ ∃ a b, text = a ++ b ∧ Like p a ∧ Like q b := by
  constructor
  · intro h
    induction p generalizing text with
    | nil => exact ⟨[], text, rfl, nil, h⟩
    | cons c rest ih =>
        cases h with
        | run before h =>
            obtain ⟨a, b, rfl, ha, hb⟩ := ih h
            exact ⟨before ++ a, b, (List.append_assoc ..).symm, run before ha, hb⟩
        | one d h =>
            obtain ⟨a, b, rfl, ha, hb⟩ := ih h
            exact ⟨d :: a, b, rfl, one d ha, hb⟩
        | same hc h =>
            obtain ⟨a, b, rfl, ha, hb⟩ := ih h
            exact ⟨c :: a, b, rfl, same hc ha, hb⟩
  · rintro ⟨a, b, rfl, ha, hb⟩
    exact ha.append hb

/-- A wildcard may stand for any character, itself among them. -/
theorem map_of_wildcard {f : Char → Char} (hf : ∀ c, ¬ IsWildcard c → f c = c)
    (p : List Char) : Like p (p.map f) := by
  induction p with
  | nil => exact nil
  | cons c rest ih =>
      rw [List.map_cons]
      by_cases hc : IsWildcard c
      · rcases hc with rfl | rfl
        · exact run [_] ih
        · exact one _ ih
      · rw [hf c hc]
        exact same hc ih

theorem self (p : List Char) : Like p p := by
  simpa using map_of_wildcard (fun _ _ => rfl) p

/-- Without wildcards a pattern is a text. -/
theorem eq_of_plain (hp : ∀ c ∈ p, ¬ IsWildcard c) (h : Like p text) : text = p := by
  induction h with
  | nil => rfl
  | run => exact absurd (.inl rfl) (hp _ List.mem_cons_self)
  | one => exact absurd (.inr rfl) (hp _ List.mem_cons_self)
  | same _ _ ih => rw [ih fun c hc => hp c (List.mem_cons_of_mem _ hc)]

/-- With a wildcard in it, some other text of the same length is of the pattern. -/
theorem exists_other {c : Char} (hc : c ∈ p) (hwildcard : IsWildcard c) :
    ∃ text, Like p text ∧ text ≠ p ∧ text.length = p.length := by
  obtain ⟨f, hf⟩ : ∃ f : Char → Char, ∀ c, f c = if IsWildcard c then 'x' else c :=
    ⟨_, fun _ => rfl⟩
  refine ⟨p.map f, map_of_wildcard (fun d hd => (hf d).trans (if_neg hd)) p, fun heq => ?_,
    List.length_map f⟩
  have hsame : f c = c := List.map_inj_left.1 (heq.trans (List.map_id p).symm) c hc
  rw [hf, if_pos hwildcard] at hsame
  subst hsame
  exact absurd hwildcard (by decide)

end Like

/-! ## The two edges of a text -/

inductive Edge where
  | front
  | back
  deriving DecidableEq

namespace Edge

/-- The test of a text for a part at the edge. -/
def kind : Edge → NodeKind
  | front => .startsWith
  | back => .endsWith

/-- The field that holds the part. -/
def field : Edge → String
  | front => "start"
  | back => "end"

def function : Edge → String → Function
  | front => .startsWith
  | back => .endsWith

/-- The part stands at the edge of the text. -/
def Bounds : Edge → List Char → List Char → Prop
  | front, part, text => part <+: text
  | back, part, text => part <:+ text

instance (e : Edge) (part text : List Char) : Decidable (e.Bounds part text) :=
  match e with
  | front => inferInstanceAs (Decidable (part <+: text))
  | back => inferInstanceAs (Decidable (part <:+ text))

/-- What the pattern is made of. -/
def pieces : Edge → String → List String
  | front, part => [part, "%"]
  | back, part => ["%", part]

def pattern (e : Edge) (part : String) : List Char := (String.join (e.pieces part)).toList

variable {e : Edge} {part : String} {text : List Char}

theorem Bounds.length_eq {a b : List Char} (ha : e.Bounds a text) (hb : e.Bounds b text)
    (h : a.length = b.length) : a = b := by
  cases e with
  | front => exact List.prefix_of_prefix_length_le ha hb (Nat.le_of_eq h) |>.eq_of_length h
  | back => exact List.suffix_of_suffix_length_le ha hb (Nat.le_of_eq h) |>.eq_of_length h

theorem Bounds.self (text : List Char) : e.Bounds text text := by
  cases e with
  | front => exact List.prefix_rfl
  | back => exact List.suffix_rfl

/-- The pattern asks for a part at the edge that is itself of the pattern of the part. -/
theorem like_pattern_iff :
    Like (e.pattern part) text ↔ ∃ piece, e.Bounds piece text ∧ Like part.toList piece := by
  cases e with
  | front =>
      have hpattern : pattern front part = part.toList ++ ['%'] := by
        simp [pattern, pieces, String.join]
      rw [hpattern, Like.append_iff]
      constructor
      · rintro ⟨a, b, rfl, ha, -⟩
        exact ⟨a, List.prefix_append a b, ha⟩
      · rintro ⟨a, ⟨b, rfl⟩, ha⟩
        exact ⟨a, b, rfl, ha, .any b⟩
  | back =>
      have hpattern : pattern back part = ['%'] ++ part.toList := by
        simp [pattern, pieces, String.join]
      rw [hpattern, Like.append_iff]
      constructor
      · rintro ⟨a, b, rfl, -, hb⟩
        exact ⟨b, List.suffix_append a b, hb⟩
      · rintro ⟨b, ⟨a, rfl⟩, hb⟩
        exact ⟨a, b, rfl, .any a, hb⟩

/-- The pattern asks for the part itself exactly if there is no wildcard in it. -/
theorem like_pattern_iff_bounds :
    (∀ text, Like (e.pattern part) text ↔ e.Bounds part.toList text)
      ↔ ∀ c ∈ part.toList, ¬ IsWildcard c := by
  constructor
  · intro h c hc hwildcard
    obtain ⟨text, hlike, hne, hlength⟩ := Like.exists_other hc hwildcard
    have hbounds := (h text).1 (like_pattern_iff.2 ⟨text, .self text, hlike⟩)
    exact hne (Bounds.length_eq (.self text) hbounds hlength)
  · intro h text
    rw [like_pattern_iff]
    constructor
    · rintro ⟨piece, hpiece, hlike⟩
      exact hlike.eq_of_plain h ▸ hpiece
    · exact fun hbounds => ⟨_, hbounds, .self _⟩

end Edge

/-! ## What a test is compiled to -/

variable {n m l : Node} {e : Edge} {part : String}

theorem Engine.readText_eq {make : String → Function} {field : String}
    (hl : n.child field = .ok l) (hpart : l.literal? = some (.string part)) :
    readText make field n = .ok (make part) := by
  rw [readText, textLiteral_eq hl hpart]
  rfl

theorem Engine.compiled_edge {clock : Engine.Clock} {arg : Expr} (h : n.Built)
    (hkind : n.kind = e.kind) (harg : Engine.Operand clock n "arg" arg)
    (hl : n.child e.field = .ok l) (hpart : l.literal? = some (.string part)) :
    Engine.Compiled clock n (arg.callOne (e.function part)) := by
  cases e with
  | front =>
      exact Engine.compiled_callWith h (k := .startsWith) (Engine.resolve_of_kind hkind rfl)
        (Engine.readText_eq hl hpart) harg
  | back =>
      exact Engine.compiled_callWith h (k := .endsWith) (Engine.resolve_of_kind hkind rfl)
        (Engine.readText_eq hl hpart) harg

/-- Whether a text has the part at its edge, and null for null. -/
def Edge.tested (e : Edge) (part : String) : Cell → Cell :=
  Column.mappedText fun text => some (.bool (decide (e.Bounds part.toList text)))

theorem Edge.apply_function {c : Column} (hc : c.OfTexts) :
    (e.function part).apply [c] = .ok ⟨.boolean, c.cells.map (e.tested part)⟩ := by
  cases e with
  | front =>
      have hsame : front.tested part = Column.mappedText fun text =>
          some (.bool (part.toList.isPrefixOf text)) := by
        simp only [tested, Bounds, ← List.isPrefixOf_iff_prefix, Bool.decide_eq_true]
      rw [hsame]
      exact Column.mapTexts_eq hc .boolean fun text =>
        some (.bool (part.toList.isPrefixOf text))
  | back =>
      have hsame : back.tested part = Column.mappedText fun text =>
          some (.bool (part.toList.isSuffixOf text)) := by
        simp only [tested, Bounds, ← List.isSuffixOf_iff_suffix, Bool.decide_eq_true]
      rw [hsame]
      exact Column.mapTexts_eq hc .boolean fun text =>
        some (.bool (part.toList.isSuffixOf text))

namespace Sql

variable {s : Statement} {hay : String}

/-- The text of a test. -/
def edgeText (e : Edge) (part hay : String) : String :=
  hay ++ " like " ++ call "concat" ((e.pieces part).map quotedText)

/-- The phrase of a test. -/
def edgePhrase (e : Edge) (part : String) (p : Phrase) : Phrase :=
  .binary .like p
    (.call "concat" (.chain ((e.pieces part).map fun piece => .atom (.text piece))))

theorem textOf_edge (h : n.Built) (hkind : n.kind = e.kind) (hm : n.child "arg" = .ok m)
    (hl : n.child e.field = .ok l) (hpart : l.literal? = some (.string part))
    (hhay : TextOf s m hay) : TextOf s n (edgeText e part hay) := by
  have hquoted : TextOf s l (quotedText part) := textOf_literal (h.of_child hl) hpart rfl
  cases e with
  | front =>
      have hl : n.child "start" = .ok l := hl
      have hresolve : rules.resolve n.kind = .ok (.startsWith, startsWithRule) :=
        resolve_of_kind hkind rfl
      have htext : edgeText .front part hay
          = hay ++ " like concat(" ++ quotedText part ++ ", '%')" := by
        rw [← String.toList_inj]
        simp [edgeText, call, Edge.pieces, quotedText, quoted, doubled]
      refine textOf_of_run ⟨h, .inl (by rw [hkind]; rfl)⟩ hresolve ?_
      rw [startsWithRule, Emission.run_bind_of_ok (run_field hm hhay _),
        Emission.run_bind_of_ok (run_field hl hquoted _), htext]
      rfl
  | back =>
      have hl : n.child "end" = .ok l := hl
      have hresolve : rules.resolve n.kind = .ok (.endsWith, endsWithRule) :=
        resolve_of_kind hkind rfl
      have htext : edgeText .back part hay
          = hay ++ " like concat('%', " ++ quotedText part ++ ")" := by
        rw [← String.toList_inj]
        simp [edgeText, call, Edge.pieces, quotedText, quoted, doubled]
      refine textOf_of_run ⟨h, .inl (by rw [hkind]; rfl)⟩ hresolve ?_
      rw [endsWithRule, Emission.run_bind_of_ok (run_field hm hhay _),
        Emission.run_bind_of_ok (run_field hl hquoted _), htext]
      rfl

theorem legible_edge {quote : Char} {p : Phrase} (h : Legible quote hay p)
    (hlevel : 5 ≤ p.level) :
    Legible quote (edgeText e part hay) (edgePhrase e part p) := by
  have hpieces : Legible quote (call "concat" ((e.pieces part).map quotedText))
      (.call "concat" (.chain ((e.pieces part).map fun piece => .atom (.text piece)))) := by
    refine .call namesFunction_concat ?_
    rw [List.forall₂_map_left_iff, List.forall₂_map_right_iff, List.forall₂_same]
    exact fun piece _ => .quotedText quote piece
  refine ⟨?_, Phrase.readable_binary.2
    ⟨h.readable, hpieces.readable, hlevel, show 5 < 9 by decide⟩, show 2 ≤ 5 by decide⟩
  exact h.shown.infixed fixed_like separated_like hpieces.shown

/-! ## What a test says -/

/-- The text that a datum is. -/
def Datum.text? : Datum → Option String
  | .text s => some s
  | _ => none

/-- A phrase with `like` is true if its left side denotes a text that is of the pattern on
its right side, which is put together from texts. -/
def Phrase.IsTrue (given : Phrase → Option Datum) : Phrase → Prop
  | .binary .like p (.call "concat" args) =>
    ∃ text pieces, p.denotes given = some [.text text]
      ∧ (args.denotes given).bind (·.mapM Datum.text?) = some pieces
      ∧ Like (String.join pieces).toList text.toList
  | _ => False

theorem isTrue_edge_iff {given : Phrase → Option Datum} {p : Phrase} {text : String}
    (hp : p.denotes given = some [.text text]) : (edgePhrase e part p).IsTrue given
      ↔ Like (e.pattern part) text.toList := by
  have hpieces :
      (Phrase.chain ((e.pieces part).map fun piece => .atom (.text piece))).denotes given
      = some ((e.pieces part).map .text) := by
    refine Phrase.denotes_chain ?_
    rw [List.forall₂_map_left_iff, List.forall₂_map_right_iff, List.forall₂_same]
    exact fun _ _ => rfl
  have htexts : ((e.pieces part).map Datum.text).mapM Datum.text?
      = some (e.pieces part) := by
    rw [List.mapM_map]
    cases e <;> rfl
  show (∃ _ _, _) ↔ _
  rw [hpieces, hp]
  constructor
  · rintro ⟨t, pieces, ht, hpieces, hlike⟩
    cases ht
    cases htexts.symm.trans hpieces
    exact hlike
  · exact fun hlike => ⟨text, e.pieces part, rfl, htexts, hlike⟩

end Sql

/-- A test of an edge for a constant compares characters on the engine. In SQL it is a
pattern, which asks for something at the edge that is of the pattern of the constant. The
pattern is met wherever the engine finds the constant, and both are the same for every text
exactly if there is no wildcard in the constant. -/
theorem text_edges {clock : Engine.Clock} {n m l : Node} {arg : Expr} {e : Edge}
    {part : String} (h : n.Built) (hkind : n.kind = e.kind) (hm : n.child "arg" = .ok m)
    (harg : Engine.Compiled clock m arg) (hl : n.child e.field = .ok l)
    (hpart : l.literal? = some (.string part)) :
    (Engine.Compiled clock n (arg.callOne (e.function part))
        ∧ ∀ (b : Batch) (c : Column), arg.evaluate b = .ok c → c.OfTexts →
          ∃ out, (arg.callOne (e.function part)).evaluate b = .ok out
            ∧ (∀ i text, c.row i = .text text →
              out.row i = .bool (decide (e.Bounds part.toList text.toList)))
            ∧ ∀ i, (c.row i).isNull = true → (out.row i).isNull = true)
      ∧ (∀ (s : Sql.Statement) (hay : String), Sql.TextOf s m hay →
        Sql.TextOf s n (Sql.edgeText e part hay)
          ∧ ∀ (p : Sql.Phrase) (given : Sql.Phrase → Option Sql.Datum) (text : String),
            Sql.Legible s.config.identifierQuote hay p → 5 ≤ p.level →
              p.denotes given = some [.text text] →
            ∃ q, Sql.Phrase.read? s.config.identifierQuote (Sql.edgeText e part hay) = some q
              ∧ (q.IsTrue given ↔ Like (e.pattern part) text.toList))
      ∧ (∀ text, Like (e.pattern part) text
        ↔ ∃ piece, e.Bounds piece text ∧ Like part.toList piece)
      ∧ (∀ text, e.Bounds part.toList text → Like (e.pattern part) text)
      ∧ ((∀ text, Like (e.pattern part) text ↔ e.Bounds part.toList text)
        ↔ ∀ c ∈ part.toList, ¬ IsWildcard c) := by
  refine ⟨⟨Engine.compiled_edge h hkind ⟨m, hm, harg⟩ hl hpart, fun b c hc htexts => ?_⟩,
    fun s hay hhay => ?_, fun text => Edge.like_pattern_iff,
    fun text hbounds => Edge.like_pattern_iff.2 ⟨_, hbounds, .self _⟩,
    Edge.like_pattern_iff_bounds⟩
  · have hrow : ∀ i, Column.row ⟨.boolean, c.cells.map (e.tested part)⟩ i
        = e.tested part (c.row i) :=
      Column.row_mappedText .boolean _
    refine ⟨_, (Expr.callOne_eq_ok hc).2 (Edge.apply_function htexts),
      fun i text htext => ?_, fun i hnull => ?_⟩
    · rw [hrow, htext]
      rfl
    · rw [hrow]
      cases hcell : c.row i <;> rw [hcell] at hnull <;> first | rfl | cases hnull
  · refine ⟨Sql.textOf_edge h hkind hm hl hpart hhay,
      fun p given text hp hlevel hdenotes => ?_⟩
    exact ⟨_, (Sql.legible_edge hp hlevel).read?_eq, Sql.isTrue_edge_iff hdenotes⟩

/-- A quote in the constant is none of the pattern's. -/
theorem text_edges_of_a_quote :
    ∃ (n : Node) (e : Expr) (out : Column) (q : Sql.Phrase),
      Node.build .endsWith [.node (Node.literal (.string "it's")),
        .node (Node.literal (.string "'s"))] [] = .ok n
        ∧ Engine.Compiled ⟨0⟩ n e ∧ e.evaluate ⟨1, []⟩ = .ok out ∧ out.row 0 = .bool true
        ∧ Sql.compile {} n = .ok "'it''s' like concat('%', '''s')"
        ∧ Sql.Phrase.read? '`' "'it''s' like concat('%', '''s')" = some q
        ∧ (∀ given, q.IsTrue given)
        ∧ ∀ text, Like (Edge.back.pattern "'s") text
          ↔ Edge.back.Bounds "'s".toList text := by
  obtain ⟨n, hn, hkind, hm, hl⟩ : ∃ n : Node,
      Node.build .endsWith [.node (Node.literal (.string "it's")),
        .node (Node.literal (.string "'s"))] [] = .ok n
        ∧ n.kind = Edge.back.kind ∧ n.child "arg" = .ok (Node.literal (.string "it's"))
        ∧ n.child Edge.back.field = .ok (Node.literal (.string "'s")) :=
          ⟨_, rfl, rfl, rfl, rfl⟩
  have bn : n.Built := by
    refine .of_build hn (fun k hk => ?_) nofun
    simp only [Arg.nodesOfItems, Arg.nodes, List.singleton_append, List.mem_cons,
      List.not_mem_nil, or_false] at hk
    rcases hk with rfl | rfl <;> exact .literal _
  have harg : Engine.Compiled ⟨0⟩ (Node.literal (.string "it's"))
    (.constant (.string "it's")) := rfl
  obtain ⟨⟨he, hrows⟩, htexts, -, hlike, hplain⟩ := text_edges bn hkind hm harg hl rfl
  obtain ⟨out, hout, hrow, -⟩ :=
    hrows ⟨1, []⟩ ⟨.text, [.text "it's"]⟩ rfl ⟨List.forall_mem_singleton.2 rfl, .inl rfl⟩
  have hhay : Sql.TextOf { config := {} } (Node.literal (.string "it's")) "'it''s'" :=
    Sql.textOf_literal (.literal _) rfl rfl
  obtain ⟨htext, hread⟩ := htexts { config := {} } _ hhay
  have hshown : Sql.Legible '`' "'it''s'" (.atom (.text "it's")) := .quotedText _ "it's"
  obtain ⟨q, hq, -⟩ := hread _ (fun _ => none) "it's" hshown (by decide) rfl
  refine ⟨n, _, out, q, hn, he, hout, (hrow 0 "it's" rfl).trans rfl,
    (Sql.textOf_iff_compile bn {}).1 htext, hq, fun given => ?_,
    hplain.2 (List.forall_mem_cons.2 ⟨by decide, List.forall_mem_singleton.2 (by decide)⟩)⟩
  obtain ⟨q', hq', htrue⟩ := hread _ given "it's" hshown (by decide) rfl
  cases hq.symm.trans hq'
  exact htrue.2 (hlike _ (by decide))

/-- A percent sign in the constant stands for any run of characters, here for one
character: the text does not begin with the constant, but it is of the pattern. -/
theorem text_edges_of_a_wildcard :
    ∃ n : Node, Node.build .startsWith [.value (.string "abc"),
      .value (.string "a%c")] [] = .ok n
      ∧ Sql.compile {} n = .ok "'abc' like concat('a%c', '%')"
      ∧ Like (Edge.front.pattern "a%c") "abc".toList
      ∧ ¬ Edge.front.Bounds "a%c".toList "abc".toList
      ∧ (Function.startsWith "a%c").apply [⟨.text, [.text "abc"]⟩]
        = .ok ⟨.boolean, [.bool false]⟩ := by
  refine ⟨_, rfl, ?_, ?_, by decide, ?_⟩
  · set_option maxRecDepth 2000 in with_unfolding_all decide
  · exact .same (by decide) (.run ['b'] (.same (by decide) (.run [] .nil)))
  · have hc : (⟨.text, [.text "abc"]⟩ : Column).OfTexts :=
      ⟨List.forall_mem_singleton.2 rfl, .inl rfl⟩
    exact Edge.apply_function (e := .front) hc

end TypedQuery
