import TypedQuery.Proofs.Memoization
import TypedQuery.Proofs.Node.Held
import TypedQuery.Proofs.OperandSplicing

/-!
# Texts of values and what they denote

The text of a value depends on the statement that it is written in and does not change it.
So it is put together from the texts of the values in its fields, each of them as it would
be written in that statement alone.

The searches of SQL, and what a phrase that is made of them denotes. Positions count from
one, and zero stands for what is not found: `locate` looks for a text in another one from a
position on, and `find_in_set` for an element in a text of elements between commas. What
all other phrases denote, the columns among them, is given (`Phrase.denotes`).
-/

namespace TypedQuery.Sql

open Emission

section

variable {s : Statement} {n m : Node} {name text : String}

/-! ## Which rule a value gets -/

/-- The rules of SQL in the order in which they are given. -/
def listed : List (NodeKind × SqlRule) :=
  (.node, RuleTable.refuse "sql") :: (genericRules ++ operatorRules ++ reductionRules
    ++ textRules ++ timeRules ++ tableRules)

theorem rules_eq : rules = ⟨"sql", listed⟩ :=
  RuleTable.registered_eq (by set_option maxRecDepth 2000 in decide)

/-- A rule is looked up in the list, which takes less than to put the table together first.
-/
theorem resolve_of_kind {kind : NodeKind} {found : NodeKind × SqlRule} (hk : n.kind = kind)
    (h : RuleTable.resolve ⟨"sql", listed⟩ kind = .ok found) :
    rules.resolve n.kind = .ok found := by
  rw [rules_eq, hk]
  exact h

/-! ## Answers -/

/-- The texts of nodes as steps. -/
def answered (s : Statement) (m : Node) : Writing String := liftM (rules.answer s m)

theorem answer_of_resolve (h : Plain n) {k : NodeKind} {rule : SqlRule}
    (hresolve : rules.resolve n.kind = .ok (k, rule)) :
    rules.answer s n = ((rule (answered s) n).run ⟨s, none⟩).1 :=
  RuleTable.answer_eq (T := (· = s)) rfl (fun _ _ _ ha hb => ha.trans hb.symm) rules_consult
    (fun _ _ hn hm h => eq_of_plain hn hm h) h hresolve

theorem compile_eq_answer (h : n.Built) (config : Config) :
    compile config n = rules.answer { config := config.sql } n :=
  (compile_memoizing_false h config).symm.trans rfl

theorem field_of_child (h : n.child name = .ok m) :
    field (answered s) n name = liftM (rules.answer s m) := by
  unfold field
  rw [h]
  rfl

theorem field?_of_child? (h : n.child? name = some m) :
    field? (answered s) n name = liftM ((rules.answer s m).map some) := by
  unfold field? answered
  rw [h]
  cases hm : rules.answer s m <;> simp only [hm] <;> rfl

theorem sequence_of_one (h : n.childList name = .ok [m]) :
    Emission.sequence (answered s) n name
      = liftM ((rules.answer s m).map fun text => [text]) := by
  unfold Emission.sequence
  rw [h]
  show each (answered s) [m] = _
  unfold each each answered
  cases hm : rules.answer s m <;> rfl

/-! ## Texts in statements -/

/-- The text that is written for a value in a statement. -/
def TextOf (s : Statement) (n : Node) (text : String) : Prop := rules.answer s n = .ok text

theorem TextOf.unique {text' : String} (h : TextOf s n text) (h' : TextOf s n text') :
    text = text' :=
  Except.ok.inj (h.symm.trans h')

/-- Compiling a value writes it in a statement without any table. -/
theorem textOf_iff_compile (h : n.Built) (config : Config) :
    TextOf { config := config.sql } n text ↔ compile config n = .ok text := by
  rw [compile_eq_answer h config]
  exact Iff.rfl

/-- What the rule for a value gives is what is written for it. -/
theorem textOf_of_run (h : Plain n) {k : NodeKind} {rule : SqlRule}
    (hresolve : rules.resolve n.kind = .ok (k, rule))
    (hrun : (rule (answered s) n).run ⟨s, none⟩ = (.ok text, ⟨s, none⟩)) :
    TextOf s n text := by
  rw [TextOf, answer_of_resolve h hresolve]
  exact congrArg Prod.fst hrun

theorem run_field (hm : n.child name = .ok m) (htext : TextOf s m text)
    (session : Session Statement String) :
    (field (answered s) n name).run session = (.ok text, session) := by
  rw [field_of_child hm, show rules.answer s m = .ok text from htext]
  rfl

/-- A constant is written as itself in every statement. -/
theorem textOf_literal (h : n.Built) {v : Value} (hv : n.literal? = some v)
    (htext : literal v = .ok text) :
    TextOf s n text := by
  have hk : n.kind = .literal := Classical.byContradiction fun hne => by
    have hnone : n.literal? = none := by simp [Node.literal?, Node.isLiteral, hne]
    rw [hnone] at hv
    cases hv
  have hresolve : rules.resolve n.kind = .ok (.literal, literalRule) :=
    resolve_of_kind hk rfl
  refine textOf_of_run ⟨h, .inl (by rw [hk]; rfl)⟩ hresolve ?_
  rw [literalRule, hv]
  exact Prod.ext htext rfl

end

/-! ## Data -/

/-- The values that searches take and give. -/
inductive Datum where
  | null
  | text (s : String)
  | int (n : Int)
  deriving DecidableEq

/-- What stands in a cell, of the values that searches take and give. -/
def Datum.ofCell : Cell → Datum
  | .text s => text s
  | .int n => int n
  | _ => null

/-! ## Searches -/

/-- The first position at or after a position at which a text occurs in another one. The
empty text also occurs at the end. -/
def locate (needle haystack : List Char) (first : Int) : Nat :=
  ((List.range (haystack.length + 2)).find? fun i : Nat =>
    decide (1 ≤ i ∧ first ≤ i) && needle.isPrefixOf (haystack.drop (i - 1))).getD 0

/-- The position of the first element that is the text; the elements stand between commas. -/
def positionInSet (needle set : String) : Nat :=
  (((set.toList.splitOn ',').findIdx? (· = needle.toList)).map (· + 1)).getD 0

/-- What a search gives for its arguments; for a null it gives a null. -/
def search (function : String) (args : List Datum) : Option Datum :=
  if .null ∈ args then some .null
  else match args with
    | [.text needle, .text other] =>
      if function = "locate" then some (.int (locate needle.toList other.toList 1))
      else if function = "find_in_set" then some (.int (positionInSet needle other))
      else none
    | [.text needle, .text haystack, .int first] =>
      if function = "locate" then
        some (.int (locate needle.toList haystack.toList first)) else none
    | _ => none

theorem search_null {function : String} {args : List Datum} (h : .null ∈ args) :
    search function args = some .null := if_pos h

theorem search_locate (needle haystack : String) :
    search "locate" [.text needle, .text haystack]
      = some (.int (locate needle.toList haystack.toList 1)) := by
  simp [search]

theorem search_locate_from (needle haystack : String) (first : Int) :
    search "locate" [.text needle, .text haystack, .int first]
      = some (.int (locate needle.toList haystack.toList first)) := by
  simp [search]

theorem search_findInSet (needle set : String) :
    search "find_in_set" [.text needle, .text set]
      = some (.int (positionInSet needle set)) := by
  simp [search]

/-! ## Phrases -/

/-- An operation on whole numbers; with a null it gives a null. -/
def combined (op : Int → Int → Int) : List Datum → List Datum → Option (List Datum)
  | [.int m], [.int n] => some [.int (op m n)]
  | [.null], [.int _] | [.int _], [.null] | [.null], [.null] => some [.null]
  | _, _ => none

/-- What a phrase denotes: a list what its items denote, and a value one thing. -/
def Phrase.denotes (given : Phrase → Option Datum) : Phrase → Option (List Datum)
  | .nothing => some []
  | .atom .null => some [.null]
  | .atom (.text content) => some [.text content]
  | .atom (.number digits) =>
    if digits.toList.all Char.isDigit then
      some [.int (Nat.ofDigitChars 10 digits.toList 0)] else none
  | .paren p => p.denotes given
  | .negate p => (p.denotes given).bind (combined (· - ·) [.int 0])
  | .binary .comma p q => (p.denotes given).bind fun ds => (q.denotes given).map (ds ++ ·)
  | .binary .plus p q => (p.denotes given).bind fun ds =>
    (q.denotes given).bind (combined (· + ·) ds)
  | .binary .minus p q => (p.denotes given).bind fun ds =>
    (q.denotes given).bind (combined (· - ·) ds)
  | .call function args =>
    if function = "locate" ∨ function = "find_in_set" then
      (args.denotes given).bind fun ds => (search function ds).map ([·])
    else (given (.call function args)).map ([·])
  | p => (given p).map ([·])

namespace Phrase

variable {given : Phrase → Option Datum} {p q : Phrase} {ps : List Phrase} {d : Datum}
    {ds : List Datum}

/-- The items of a list denote one thing each. -/
theorem denotes_chain (h : List.Forall₂ (fun p d => p.denotes given = some [d]) ps ds) :
    (chain ps).denotes given = some ds := by
  cases h with
  | nil => rfl
  | @cons p d rest more hp hrest =>
      have hfold : ∀ (p : Phrase) (before : List Datum), p.denotes given = some before →
          (rest.foldl (binary .comma) p).denotes given = some (before ++ more) := by
        clear hp
        induction hrest with
        | nil =>
            intro p before hp
            rw [List.foldl_nil, hp, List.append_nil]
        | @cons q d rest more hq _ ih =>
            intro p before hp
            have hboth : (binary .comma p q).denotes given = some (before ++ [d]) := by
              rw [denotes, hp, hq]
              rfl
            rw [List.foldl_cons, ih _ _ hboth, List.append_assoc]
            rfl
      exact hfold p [d] hp

theorem denotes_search {function : String}
    (hfunction : function = "locate" ∨ function = "find_in_set")
    (h : List.Forall₂ (fun p d => p.denotes given = some [d]) ps ds) :
    (call function (chain ps)).denotes given = (search function ds).map ([·]) := by
  rw [denotes, if_pos hfunction, denotes_chain h]
  rfl

theorem denotes_number (n : Nat) :
    (atom (.number (toString n))).denotes given = some [.int n] := by
  have hdigits : (toString n).toList = Nat.toDigits 10 n := by
    rw [Nat.toString_eq_ofList_toDigits, String.toList_ofList]
  rw [denotes, hdigits, if_pos (List.all_eq_true.2 isDigit_toDigits),
    Nat.ofDigitChars_ten_toDigits]

/-- The phrase of a constant denotes it. -/
theorem denotes_signed (k : Int) :
    (signed (k < 0) (toString k.natAbs)).denotes given = some [.int k] := by
  by_cases hk : k < 0
  · rw [decide_eq_true hk, signed, if_pos rfl, denotes, denotes_number]
    show some [Datum.int (0 - k.natAbs)] = _
    rw [show 0 - (k.natAbs : Int) = k by omega]
  · rw [decide_eq_false hk, signed, if_neg nofun, denotes_number,
      Int.natAbs_of_nonneg (by omega)]

end Phrase

/-! ## Texts that are read -/

/-- The text shows a phrase that can be read, wherever a value may stand. -/
structure Legible (quote : Char) (text : String) (p : Phrase) : Prop where
  shown : Shown quote text p
  readable : p.Readable
  level : 2 ≤ p.level

theorem Legible.read?_eq {quote : Char} {text : String} {p : Phrase}
    (h : Legible quote text p) :
    Phrase.read? quote text = some p := (h.shown.read?_eq_some_iff h.level).2 h.readable

theorem Legible.quotedText (quote : Char) (content : String) :
    Legible quote (Sql.quotedText content) (.atom (.text content)) :=
  ⟨.quotedText content, Phrase.readable_atom _, show 2 ≤ 9 by decide⟩

theorem Legible.call {quote : Char} {function : String} {texts : List String}
    {ps : List Phrase} (hname : NamesFunction function)
    (h : List.Forall₂ (Legible quote) texts ps) :
    Legible quote (Sql.call function texts) (.call function (.chain ps)) where
  shown := .call hname (h.imp fun _ _ h => h.shown)
  readable := by
    have hall : ∀ p ∈ ps, 2 ≤ p.level ∧ p.Readable := fun p hp => by
      obtain ⟨_, _, htext⟩ := exists_of_forall₂_right h hp
      exact ⟨htext.level, htext.readable⟩
    exact (Phrase.readable_chain fun p hp => (hall p hp).1).2 fun p hp => (hall p hp).2
  level := show 2 ≤ 9 by decide

/-- A search, counted as expressions count. -/
theorem Legible.search {s : Statement} {function : String} {texts : List String}
    {ps : List Phrase} (hname : NamesFunction function)
    (h : List.Forall₂ (Legible s.config.identifierQuote) texts ps) :
    Legible s.config.identifierQuote (unshifted (Sql.call function texts) s.offset)
      (positionFound s.offset (.call function (.chain ps))) := by
  have hcall := Legible.call hname h
  refine ⟨.positionFound hcall.shown, (readable_positionFound rfl).2 hcall.readable, ?_⟩
  rw [level_positionFound rfl]
  split <;> omega

/-! ## What values denote -/

theorem unshifted_zero (text : String) : unshifted text 0 = text := if_pos rfl

theorem unshifted_one (text : String) : unshifted text 1 = text ++ " - 1" := by
  rw [unshifted, if_neg (by decide), String.append_assoc]
  rfl

/-- A position that counts from one denotes one less when it is counted from
zero; a null stays null. -/
theorem denotes_positionFound {given : Phrase → Option Datum} {p : Phrase} {d : Datum}
    (h : p.denotes given = some [d]) :
    (positionFound 1 p).denotes given = combined (· - ·) [d] [.int 1] := by
  have hone : (Phrase.atom (.number (toString (1 : Int)))).denotes given = some [.int 1] :=
    Phrase.denotes_number 1
  rw [positionFound, if_neg (by decide), Phrase.denotes, h, hone]
  rfl

/-- In the statement, the text of the value can be read, and what is read denotes the
datum. -/
def Denotes (s : Statement) (given : Phrase → Option Datum) (n : Node) (d : Datum) : Prop :=
  ∃ text p, TextOf s n text ∧ Legible s.config.identifierQuote text p
    ∧ p.denotes given = some [d]

/-- A value denotes one thing at most. -/
theorem Denotes.unique {s : Statement} {given : Phrase → Option Datum}
    {n : Node} {d d' : Datum} (h : Denotes s given n d)
    (h' : Denotes s given n d') : d = d' := by
  obtain ⟨text, p, htext, hp, hd⟩ := h
  obtain ⟨text', p', htext', hp', hd'⟩ := h'
  obtain rfl := htext.unique htext'
  obtain rfl := Option.some.inj (hp.read?_eq.symm.trans hp'.read?_eq)
  rw [hd] at hd'
  cases hd'
  rfl

end TypedQuery.Sql
