import Mathlib.Data.List.Forall2
import TypedQuery.Proofs.Sql.Phrase
import TypedQuery.Sql.Rule

/-!
# Texts that show phrases

`Shown` says that a text was put together the way a phrase is, be it readable or not. Such
a text is read back as the phrase exactly if the phrase is readable: everything in it holds
together where it stands, and no minus sign follows another one. Each shape of a phrase has
its lemma, which adds to the texts of the parts what stands between them.
-/

namespace TypedQuery.Sql

/-! ## Readable phrases -/

namespace Phrase

/-- The phrase begins with a minus sign. -/
def Leads : Phrase → Prop
  | negate _ => True
  | binary _ p _ | between p _ _ | among _ p _ | null _ p => p.Leads
  | nothing | atom _ | call .. | cast .. | paren _ | not _ => False

/-- No minus sign is followed by another. -/
def Clean : Phrase → Prop
  | nothing | atom _ => True
  | call _ p | cast p _ | paren p | not p | null _ p => p.Clean
  | negate p => p.Clean ∧ ¬ p.Leads
  | binary _ p q | among _ p q => p.Clean ∧ q.Clean
  | between p q r => p.Clean ∧ q.Clean ∧ r.Clean

def Readable (p : Phrase) : Prop := p.Fits ∧ p.Clean

/-- The items of a list between commas. -/
def chain : List Phrase → Phrase
  | [] => nothing
  | p :: rest => rest.foldl (binary .comma) p

variable {p q r : Phrase}

/-- Among the phrases that a sign can stand in front of, the signed ones begin with a sign.
-/
theorem leads_iff (h : 8 ≤ p.level) : p.Leads ↔ p.level < 9 := by
  cases p with
  | binary op _ _ => exact absurd (Nat.le_trans h op.level_le) (by decide)
  | negate => exact iff_of_true trivial (Nat.lt_succ_self 8)
  | atom | call | cast | paren => exact iff_of_false id (Nat.lt_irrefl 9)
  | nothing | not | between | among | null => exact absurd h (by simp [level])

@[simp] theorem readable_nothing : nothing.Readable := ⟨trivial, trivial⟩

@[simp] theorem readable_atom (a : Atom) : (atom a).Readable := ⟨trivial, trivial⟩

@[simp] theorem readable_call {function : String} :
    (call function p).Readable ↔ p.Readable := Iff.rfl

@[simp] theorem readable_cast {type : String} :
    (cast p type).Readable ↔ p.Readable ∧ 2 ≤ p.level := and_right_comm

@[simp] theorem readable_paren :
    (paren p).Readable ↔ p.Readable ∧ 2 ≤ p.level := and_right_comm

@[simp] theorem readable_not : (not p).Readable ↔ p.Readable ∧ 4 ≤ p.level := and_right_comm

@[simp] theorem readable_null {negated : Bool} :
    (null negated p).Readable ↔ p.Readable ∧ 5 ≤ p.level := and_right_comm

/-- A sign stands in front of what has none. -/
@[simp] theorem readable_negate : (negate p).Readable ↔ p.Readable ∧ 9 ≤ p.level := by
  constructor
  · rintro ⟨⟨hfits, hlevel⟩, hclean, hleads⟩
    exact ⟨⟨hfits, hclean⟩, Nat.le_of_not_lt fun hlt => hleads ((leads_iff hlevel).2 hlt)⟩
  · rintro ⟨⟨hfits, hclean⟩, hlevel⟩
    have hsign : 8 ≤ p.level := Nat.le_trans (by decide) hlevel
    exact ⟨⟨hfits, hsign⟩, hclean,
      fun hleads => Nat.not_lt.2 hlevel ((leads_iff hsign).1 hleads)⟩

@[simp] theorem readable_binary {op : Operator} :
    (binary op p q).Readable
      ↔ p.Readable ∧ q.Readable ∧ op.level ≤ p.level ∧ op.level < q.level := by
  simp only [Readable, Fits, Clean]
  grind

@[simp] theorem readable_between :
    (between p q r).Readable ↔ p.Readable ∧ q.Readable ∧ r.Readable ∧ 5 ≤ p.level
      ∧ 5 < q.level ∧ 5 < r.level := by
  simp only [Readable, Fits, Clean]
  grind

@[simp] theorem readable_among {negated : Bool} :
    (among negated p q).Readable ↔ p.Readable ∧ q.Readable ∧ 5 ≤ p.level := by
  simp only [Readable, Fits, Clean]
  grind

/-- A list is readable if its items are, and none of them falls apart at a comma. -/
theorem readable_chain {ps : List Phrase} (h : ∀ p ∈ ps, 2 ≤ p.level) :
    (chain ps).Readable ↔ ∀ p ∈ ps, p.Readable := by
  cases ps with
  | nil => simp [chain]
  | cons p rest =>
      have hfold : ∀ p : Phrase, 1 ≤ p.level → (∀ q ∈ rest, 2 ≤ q.level) →
          ((rest.foldl (binary .comma) p).Readable
            ↔ p.Readable ∧ ∀ q ∈ rest, q.Readable) := by
        clear h
        induction rest with
        | nil => simp
        | cons q rest ih =>
            intro p hp hrest
            obtain ⟨hq, hrest⟩ := List.forall_mem_cons.1 hrest
            rw [List.foldl_cons, ih (binary .comma p q) (Nat.le_refl 1) hrest,
              List.forall_mem_cons, readable_binary]
            have hcomma : Operator.comma.level ≤ p.level
              ∧ Operator.comma.level < q.level := ⟨hp, hq⟩
            simp only [hcomma, and_true, and_assoc]
      obtain ⟨hp, hrest⟩ := List.forall_mem_cons.1 h
      rw [chain, hfold p (Nat.le_trans (by decide) hp) hrest, List.forall_mem_cons]

end Phrase

/-! ## Texts -/

/-- A text that is made of the lexemes and the beginning of nothing. -/
structure Fixed (text : String) (found : List Lexeme) : Prop where
  scans : ∀ quote, scan quote .blank text.toList = (found, .blank)
  dashes_eq : dashes found = text.toList.count '-'

/-- The text begins with a separator. -/
def Separated (text : String) : Prop := ∃ c ∈ separators, text.toList.head? = some c

/-- The text is put together the way the phrase is. -/
structure Shown (quote : Char) (text : String) (p : Phrase) : Prop where
  lexed : Lexed quote text.toList p.lexemes p.Clean
  head : text.toList.head? = some '-' ↔ p.Leads
  nonempty : text.toList ≠ []

variable {quote : Char} {a b c : String} {p q r : Phrase} {found more : List Lexeme}
    {clean clean' : Prop}

namespace Lexed

theorem fixed (hfixed : Fixed a found) (h : Lexed quote b.toList more clean) :
    Lexed quote (a ++ b).toList (found ++ more) clean := by
  rw [String.toList_append]
  exact h.after (hfixed.scans quote) hfixed.dashes_eq

theorem append (ha : Lexed quote a.toList found clean)
    (hb : Lexed quote b.toList more clean') (hb' : Separated b) :
    Lexed quote (a ++ b).toList (found ++ more) (clean ∧ clean') := by
  rw [String.toList_append]
  exact ha.beside hb hb'

theorem of_fixed (hfixed : Fixed a found) : Lexed quote a.toList found True := by
  have h := fixed hfixed (b := "") (nil quote)
  rwa [String.append_empty, List.append_nil] at h

/-- A piece between two fixed texts. -/
theorem within (hbefore : Fixed a found) (hb : Lexed quote b.toList more clean)
    {last : List Lexeme} (hafter : Fixed c last) (hc : Separated c) :
    Lexed quote (a ++ b ++ c).toList (found ++ (more ++ last)) clean := by
  rw [String.append_assoc]
  exact fixed hbefore ((hb.append (of_fixed hafter) hc).congr (and_iff_left trivial))

/-- Two pieces with a fixed text between them. -/
theorem joined (ha : Lexed quote a.toList found clean) {middle : List Lexeme}
    (hb : Fixed b middle) (hb' : Separated b) (hc : Lexed quote c.toList more clean') :
    Lexed quote (a ++ b ++ c).toList (found ++ (middle ++ more)) (clean ∧ clean') := by
  rw [String.append_assoc]
  refine ha.append (fixed hb hc) ?_
  obtain ⟨s, hs, hhead⟩ := hb'
  refine ⟨s, hs, ?_⟩
  rw [String.toList_append, List.head?_append, hhead]
  rfl

end Lexed

namespace Shown

/-- A text that begins with something else than a minus sign. -/
theorem of_lexed (h : Lexed quote a.toList p.lexemes p.Clean) {s : Char}
    (hs : a.toList.head? = some s) (hne : s ≠ '-') (hp : ¬ p.Leads) : Shown quote a p := by
  refine ⟨h, iff_of_false (fun hdash => hne ?_) hp, fun hnil => ?_⟩
  · rw [hs] at hdash
    exact Option.some.inj hdash
  · rw [hnil] at hs
    cases hs

/-- A text that goes on behind that of a phrase begins as it does. -/
theorem of_append (ha : Shown quote a p) (h : Lexed quote (a ++ b).toList q.lexemes q.Clean)
    (hleads : q.Leads ↔ p.Leads) :
    Shown quote (a ++ b) q := by
  obtain ⟨s, rest, hs⟩ := List.exists_cons_of_ne_nil ha.nonempty
  have hhead : (a ++ b).toList.head? = a.toList.head? := by
    rw [String.toList_append, hs]; rfl
  exact ⟨h, by rw [hhead, ha.head, hleads],
    by rw [String.toList_append, hs]; exact List.cons_ne_nil _ _⟩

end Shown

/-! ### The shapes -/

namespace Operator

/-- The sign or the word of an operator. -/
def symbol : Operator → String
  | comma => ","
  | or => "OR"
  | and => "AND"
  | equal => "="
  | unequal => "!="
  | greater => ">"
  | atLeast => ">="
  | less => "<"
  | atMost => "<="
  | like => "LIKE"
  | plus => "+"
  | minus => "-"
  | times => "*"
  | slash => "/"
  | percent => "%"
  | div => "DIV"

theorem fixed_symbol (op : Operator) : Fixed (" " ++ op.symbol ++ " ") [op.lexeme] := by
  cases op <;> exact ⟨fun _ => rfl, rfl⟩

theorem separated_symbol (op : Operator) : Separated (" " ++ op.symbol ++ " ") :=
  ⟨' ', by decide, by rw [String.toList_append, String.toList_append]; rfl⟩

end Operator

theorem separated_comma : Separated ", " := ⟨',', by decide, rfl⟩

theorem fixed_comma : Fixed ", " [Operator.comma.lexeme] := ⟨fun _ => rfl, rfl⟩

theorem fixed_closing : Fixed ")" [.sign .closing] := ⟨fun _ => rfl, rfl⟩

theorem separated_closing : Separated ")" := ⟨')', by decide, rfl⟩

namespace Shown

theorem paren (h : Shown quote a p) : Shown quote ("(" ++ a ++ ")") (.paren p) := by
  have hopening : Fixed "(" [.sign .opening] := ⟨fun _ => rfl, rfl⟩
  exact of_lexed (.within hopening h.lexed fixed_closing separated_closing) (s := '(')
    (by simp) (by decide) id

theorem negate (h : Shown quote a p) : Shown quote ("-" ++ a) (.negate p) := by
  have htext : ("-" ++ a).toList = '-' :: a.toList := by simp
  have hlexed := h.lexed.minus.congr (and_congr_right' (not_congr h.head))
  exact ⟨htext ▸ hlexed, iff_of_true (by rw [htext]; rfl) trivial,
    by rw [htext]; exact List.cons_ne_nil _ _⟩

theorem not (h : Shown quote a p) : Shown quote ("NOT " ++ a) (.not p) := by
  have hnot : Fixed "NOT " [.keyword .not] := ⟨fun _ => rfl, rfl⟩
  exact of_lexed (.fixed hnot h.lexed) (s := 'N') (by simp) (by decide) id

theorem infixed {op : Operator} {middle : String} (ha : Shown quote a p)
    (hfixed : Fixed middle [op.lexeme]) (hmiddle : Separated middle)
    (hb : Shown quote b q) : Shown quote (a ++ middle ++ b) (.binary op p q) := by
  have hlexed := Lexed.joined ha.lexed hfixed hmiddle hb.lexed
  rw [← List.append_assoc] at hlexed
  rw [String.append_assoc] at hlexed ⊢
  exact ha.of_append hlexed Iff.rfl

/-- An operator between its operands. -/
theorem binary (op : Operator) (ha : Shown quote a p) (hb : Shown quote b q) :
    Shown quote (a ++ (" " ++ op.symbol ++ " ") ++ b) (.binary op p q) :=
  ha.infixed op.fixed_symbol op.separated_symbol hb

theorem between (ha : Shown quote a p) (hb : Shown quote b q) (hc : Shown quote c r) :
    Shown quote (a ++ " BETWEEN " ++ b ++ " AND " ++ c) (.between p q r) := by
  have hbetween : Fixed " BETWEEN " [.keyword .between] := ⟨fun _ => rfl, rfl⟩
  have hand : Fixed " AND " [.keyword .and] := ⟨fun _ => rfl, rfl⟩
  have hbounds := Lexed.joined hb.lexed hand ⟨' ', by decide, rfl⟩ hc.lexed
  have hlexed := Lexed.joined ha.lexed hbetween ⟨' ', by decide, rfl⟩ hbounds
  have htext : a ++ " BETWEEN " ++ b ++ " AND " ++ c
      = a ++ (" BETWEEN " ++ (b ++ " AND " ++ c)) := by
    simp only [String.append_assoc]
  have hlexemes : (Phrase.between p q r).lexemes
      = p.lexemes ++ ([.keyword .between]
        ++ (q.lexemes ++ ([.keyword .and] ++ r.lexemes))) := by
    simp [Phrase.lexemes, Joint.lexemes]
  rw [String.append_assoc] at hlexed
  rw [htext]
  exact ha.of_append (hlexemes ▸ hlexed) Iff.rfl

theorem null (h : Shown quote a p) : Shown quote (a ++ " IS NULL") (.null false p) := by
  have his : Lexed quote " IS NULL".toList ([.keyword .is] ++ [.keyword .null]) True :=
    .whole (m := .word "NULL".toList) rfl rfl (Mode.ends_word _) rfl
  exact h.of_append
    ((h.lexed.append his ⟨' ', by decide, rfl⟩).congr (and_iff_left trivial)) Iff.rfl

theorem notNull (h : Shown quote a p) :
    Shown quote (a ++ " IS NOT NULL") (.null true p) := by
  have his : Lexed quote " IS NOT NULL".toList
      ([.keyword .is, .keyword .not] ++ [.keyword .null]) True :=
    .whole (m := .word "NULL".toList) rfl rfl (Mode.ends_word _) rfl
  exact h.of_append
    ((h.lexed.append his ⟨' ', by decide, rfl⟩).congr (and_iff_left trivial)) Iff.rfl

theorem list {texts : List String} {ps : List Phrase}
    (h : List.Forall₂ (Shown quote) texts ps) (ha : Shown quote a p) :
    Shown quote (", ".intercalate (a :: texts)) (.chain (p :: ps)) := by
  induction h generalizing a p with
  | nil => simpa [Phrase.chain] using ha
  | @cons b q texts ps hb _ ih =>
      have hpair : ", ".intercalate (a :: b :: texts)
          = ", ".intercalate ((a ++ ", " ++ b) :: texts) := by
        cases texts with
        | nil => simp
        | cons t rest => simp only [String.intercalate_cons_cons, String.append_assoc]
      rw [hpair]
      exact ih (ha.infixed fixed_comma separated_comma hb)

end Shown

/-- The items of a list, of which there may be none. -/
theorem Lexed.list {texts : List String} {ps : List Phrase}
    (h : List.Forall₂ (Shown quote) texts ps) :
    Lexed quote (", ".intercalate texts).toList (Phrase.chain ps).lexemes
      (Phrase.chain ps).Clean := by
  cases h with
  | nil => exact .nil quote
  | cons hp hrest => exact (Shown.list hrest hp).lexed

/-- The word is read as the name of a function when a bracket follows. -/
def NamesFunction (name : String) : Prop :=
  Fixed (name ++ "(") [.word name, .sign .opening]
    ∧ ∃ s, name.toList.head? = some s ∧ s ≠ '-'

namespace Shown

variable {texts : List String} {ps : List Phrase}

theorem call {name : String} (hname : NamesFunction name)
    (h : List.Forall₂ (Shown quote) texts ps) :
    Shown quote (Sql.call name texts) (.call name (.chain ps)) := by
  obtain ⟨hfixed, s, hs, hne⟩ := hname
  refine of_lexed (.within hfixed (.list h) fixed_closing separated_closing) ?_ hne id
  rw [Sql.call, String.append_assoc, String.append_assoc, String.toList_append,
    List.head?_append, hs]
  rfl

theorem among {opening : String} {negated : Bool} (ha : Shown quote a p)
    (hopening : Fixed opening (Joint.among negated).lexemes) (hsep : Separated opening)
    (h : List.Forall₂ (Shown quote) texts ps) :
    Shown quote (a ++ opening ++ ", ".intercalate texts ++ ")")
      (.among negated p (.chain ps)) := by
  have hlist := (Lexed.list h).append (.of_fixed fixed_closing) separated_closing
  have hlexed := Lexed.joined ha.lexed hopening hsep (hlist.congr (and_iff_left trivial))
  have hlexemes : (Phrase.among negated p (.chain ps)).lexemes
      = p.lexemes ++ ((Joint.among negated).lexemes
        ++ ((Phrase.chain ps).lexemes ++ [.sign .closing])) := by
    simp [Phrase.lexemes]
  rw [String.append_assoc] at hlexed ⊢
  rw [String.append_assoc]
  exact ha.of_append (hlexemes ▸ hlexed) Iff.rfl

end Shown

/-! ### Reading back -/

/-- A text is read as the phrase that it shows exactly if the phrase is readable. -/
theorem Shown.read?_eq_some_iff (h : Shown quote a p) (hlevel : 2 ≤ p.level) :
    Phrase.read? quote a = some p ↔ p.Readable := by
  have hread : Phrase.read? quote a = some p
      ↔ ∃ ls, lexemes? quote a = some ls ∧ p.Fits ∧ 2 ≤ p.level ∧ p.lexemes = ls := by
    simp only [Phrase.read?, Option.bind_eq_some_iff, Phrase.ofLexemes?_eq_some_iff]
  rw [hread]
  constructor
  · rintro ⟨ls, hls, hfits, -, rfl⟩
    refine ⟨hfits, Classical.byContradiction fun hclean => ?_⟩
    -- A comment has hidden two minus signs of the text, which the lexemes of the phrase all
    -- have.
    obtain ⟨last, hlast, heq⟩ := Option.map_eq_some_iff.1 hls
    have hlost := h.lexed.loses hclean
    have hkept := h.lexed.dashes_eq
    have hclosed := Mode.dashes_closed? hlast
    rw [← heq, dashes_append] at hkept
    omega
  · rintro ⟨hfits, hclean⟩
    obtain ⟨last, hlast, heq, -⟩ := h.lexed.settles hclean
    exact ⟨p.lexemes, Option.map_eq_some_iff.2 ⟨last, hlast, heq⟩, hfits, hlevel, rfl⟩

end TypedQuery.Sql
