import TypedQuery.Proofs.Sql.Lexeme

/-!
# Phrases

What SQL reads in a row of lexemes. Every phrase has a level, and every place in a phrase
asks for one: an operator takes on its left what binds at least as tightly as itself and on
its right what binds more tightly, so that operators of one level associate to the left. A
phrase fits if everything in it stands where it may. The reader climbs from level to level;
it reads a row of lexemes as a phrase exactly if the phrase fits and is written with these
lexemes. So a row is read in one way at most, whatever brackets there are.
-/

namespace TypedQuery.Sql

/-! ## Phrases -/

/-- Operators between two operands, the comma of lists among them. -/
inductive Operator where
  | comma
  | or
  | and
  | equal
  | unequal
  | greater
  | atLeast
  | less
  | atMost
  | like
  | plus
  | minus
  | times
  | slash
  | percent
  | div
  deriving DecidableEq

namespace Operator

def lexeme : Operator → Lexeme
  | comma => .sign .comma
  | or => .keyword .or
  | and => .keyword .and
  | equal => .sign .equal
  | unequal => .sign .unequal
  | greater => .sign .greater
  | atLeast => .sign .atLeast
  | less => .sign .less
  | atMost => .sign .atMost
  | like => .keyword .like
  | plus => .sign .plus
  | minus => .sign .minus
  | times => .sign .times
  | slash => .sign .slash
  | percent => .sign .percent
  | div => .keyword .div

def level : Operator → Nat
  | comma => 1
  | or => 2
  | and => 3
  | equal | unequal | greater | atLeast | less | atMost | like => 5
  | plus | minus => 6
  | times | slash | percent | div => 7

def all : List Operator :=
  [comma, or, and, equal, unequal, greater, atLeast, less, atMost, like, plus, minus, times,
    slash, percent, div]

def ofLexeme? (l : Lexeme) : Option Operator := all.find? (·.lexeme == l)

@[simp] theorem ofLexeme?_lexeme (op : Operator) :
    ofLexeme? op.lexeme = some op := by cases op <;> rfl

theorem lexeme_of_ofLexeme? {l : Lexeme} {op : Operator} (h : ofLexeme? l = some op) :
    op.lexeme = l := by
  have hop := List.find?_some h
  simpa using hop

theorem level_le (op : Operator) : op.level ≤ 7 := by cases op <;> decide

end Operator

/-- Phrases that hold no others. -/
inductive Atom where
  | null
  | truth (b : Bool)
  | number (digits : String)
  | text (content : String)
  | name (label : Option String) (column : String)
  | date (content : String)
  | timestamp (content : String)
  | interval (negative : Bool) (steps unit : String)
  deriving DecidableEq

namespace Atom

def lexemes : Atom → List Lexeme
  | null => [.keyword .null]
  | truth b => [.keyword (.truth b)]
  | number digits => [.number digits]
  | text content => [.text content]
  | name none column => [.name column]
  | name (some label) column => [.word label, .sign .dot, .name column]
  | date content => [.keyword .date, .text content]
  | timestamp content => [.keyword .timestamp, .text content]
  | interval false steps unit => [.keyword .interval, .number steps, .word unit]
  | interval true steps unit => [.keyword .interval, .sign .minus, .number steps, .word unit]

def read? : List Lexeme → Option (Atom × List Lexeme)
  | .keyword .null :: rest => some (null, rest)
  | .keyword (.truth b) :: rest => some (truth b, rest)
  | .number digits :: rest => some (number digits, rest)
  | .text content :: rest => some (text content, rest)
  | .name column :: rest => some (name none column, rest)
  | .word label :: .sign .dot :: .name column :: rest =>
    some (name (some label) column, rest)
  | .keyword .date :: .text content :: rest => some (date content, rest)
  | .keyword .timestamp :: .text content :: rest => some (timestamp content, rest)
  | .keyword .interval :: .number steps :: .word unit :: rest =>
    some (interval false steps unit, rest)
  | .keyword .interval :: .sign .minus :: .number steps :: .word unit :: rest =>
    some (interval true steps unit, rest)
  | _ => none

theorem read?_sound {ls rest : List Lexeme} {a : Atom} (h : read? ls = some (a, rest)) :
    ls = a.lexemes ++ rest := by
  unfold read? at h
  split at h <;> cases h <;> rfl

end Atom

/-- What a row of lexemes says. A list is a phrase too: its items stand between commas, and
an empty one says nothing. -/
inductive Phrase where
  | nothing
  | atom (a : Atom)
  | call (function : String) (args : Phrase)
  | cast (p : Phrase) (type : String)
  | paren (p : Phrase)
  | negate (p : Phrase)
  | not (p : Phrase)
  | binary (op : Operator) (left right : Phrase)
  | between (p lower upper : Phrase)
  | among (negated : Bool) (p options : Phrase)
  | null (negated : Bool) (p : Phrase)
  deriving DecidableEq

/-- What comes between an operand and what follows it. -/
inductive Joint where
  | binary (op : Operator)
  | between
  | among (negated : Bool)
  | null (negated : Bool)

namespace Joint

def lexemes : Joint → List Lexeme
  | binary op => [op.lexeme]
  | between => [.keyword .between]
  | among false => [.keyword .among, .sign .opening]
  | among true => [.keyword .not, .keyword .among, .sign .opening]
  | null false => [.keyword .is, .keyword .null]
  | null true => [.keyword .is, .keyword .not, .keyword .null]

def level : Joint → Nat
  | binary op => op.level
  | between | among _ | null _ => 5

def read? : List Lexeme → Option (Joint × List Lexeme)
  | .keyword .between :: rest => some (between, rest)
  | .keyword .among :: .sign .opening :: rest => some (among false, rest)
  | .keyword .not :: .keyword .among :: .sign .opening :: rest => some (among true, rest)
  | .keyword .is :: .keyword .null :: rest => some (null false, rest)
  | .keyword .is :: .keyword .not :: .keyword .null :: rest => some (null true, rest)
  | l :: rest => (Operator.ofLexeme? l).map fun op => (binary op, rest)
  | [] => none

@[simp] theorem read?_lexemes (j : Joint) (rest : List Lexeme) :
    read? (j.lexemes ++ rest) = some (j, rest) := by
  cases j with
  | binary op => cases op <;> rfl
  | between => rfl
  | among negated => cases negated <;> rfl
  | null negated => cases negated <;> rfl

theorem read?_sound {ls rest : List Lexeme} {j : Joint} (h : read? ls = some (j, rest)) :
    ls = j.lexemes ++ rest := by
  unfold read? at h
  split at h
  case h_6 =>
    obtain ⟨op, hop, heq⟩ := Option.map_eq_some_iff.1 h
    cases heq
    rw [← Operator.lexeme_of_ofLexeme? hop]
    rfl
  all_goals cases h <;> rfl

end Joint

namespace Phrase

/-- How tightly a phrase holds together. -/
def level : Phrase → Nat
  | nothing => 0
  | binary op _ _ => op.level
  | not _ => 4
  | between .. | among .. | null .. => 5
  | negate _ => 8
  | atom _ | call .. | cast .. | paren _ => 9

@[simp] theorem level_atom (a : Atom) : (atom a).level = 9 := rfl

@[simp] theorem level_call (function : String) (args : Phrase) :
    (call function args).level = 9 := rfl

@[simp] theorem level_paren (p : Phrase) : (paren p).level = 9 := rfl

@[simp] theorem level_negate (p : Phrase) : (negate p).level = 8 := rfl

@[simp] theorem level_not (p : Phrase) : (not p).level = 4 := rfl

@[simp] theorem level_binary (op : Operator) (left right : Phrase) :
    (binary op left right).level = op.level := rfl

def lexemes : Phrase → List Lexeme
  | nothing => []
  | atom a => a.lexemes
  | call function args => .word function :: .sign .opening :: args.lexemes
    ++ [.sign .closing]
  | cast p type =>
    .keyword .cast :: .sign .opening :: p.lexemes
      ++ [.keyword .as, .word type, .sign .closing]
  | paren p => .sign .opening :: p.lexemes ++ [.sign .closing]
  | negate p => .sign .minus :: p.lexemes
  | not p => .keyword .not :: p.lexemes
  | binary op left right => left.lexemes ++ (Joint.binary op).lexemes ++ right.lexemes
  | between p lower upper =>
    p.lexemes ++ Joint.between.lexemes ++ lower.lexemes ++ .keyword .and :: upper.lexemes
  | among negated p options => p.lexemes ++ (Joint.among negated).lexemes ++ options.lexemes
    ++ [.sign .closing]
  | null negated p => p.lexemes ++ (Joint.null negated).lexemes

/-- Every operand in the phrase holds together as tightly as its place asks for. -/
def Fits : Phrase → Prop
  | nothing | atom _ => True
  | call _ args => args.Fits
  | cast p _ | paren p => p.Fits ∧ 2 ≤ p.level
  | negate p => p.Fits ∧ 8 ≤ p.level
  | not p => p.Fits ∧ 4 ≤ p.level
  | binary op left right => left.Fits ∧ right.Fits ∧ op.level ≤ left.level
    ∧ op.level < right.level
  | between p lower upper => p.Fits ∧ lower.Fits ∧ upper.Fits ∧ 5 ≤ p.level
    ∧ 5 < lower.level ∧ 5 < upper.level
  | among _ p options => p.Fits ∧ options.Fits ∧ 5 ≤ p.level
  | null _ p => p.Fits ∧ 5 ≤ p.level

end Phrase

/-! ## Reading -/

namespace Phrase

/-- A phrase that was read, and the lexemes after it. -/
abbrev Found := Option (Phrase × List Lexeme)

/-- Goes on behind a lexeme that has to be there. -/
def expect (l : Lexeme) (p : Phrase) : List Lexeme → Found
  | [] => none
  | l' :: rest => if l' = l then some (p, rest) else none

/-- The beginning of a phrase, up to the first joint. A list may begin with nothing. -/
def first (operand : Nat → List Lexeme → Found) (least : Nat) : List Lexeme → Found
  | .keyword .not :: rest =>
    if least ≤ 4 then (operand 4 rest).map fun (p, rest) => (not p, rest) else none
  | .sign .minus :: rest =>
    if least ≤ 8 then (operand 8 rest).map fun (p, rest) => (negate p, rest) else none
  | .sign .opening :: rest => (operand 2 rest).bind fun (p, rest) =>
    expect (.sign .closing) (paren p) rest
  | .keyword .cast :: .sign .opening :: rest =>
    (operand 2 rest).bind fun
      | (p, .keyword .as :: .word type :: rest) => expect (.sign .closing) (cast p type) rest
      | _ => none
  | .word function :: .sign .opening :: rest =>
    (operand 0 rest).bind fun (args, rest) =>
      expect (.sign .closing) (call function args) rest
  | ls =>
    match Atom.read? ls with
    | some (a, rest) => some (atom a, rest)
    | none => if least = 0 then some (nothing, ls) else none

/-- What a joint makes of the phrase in front of it. -/
def joined (operand : Nat → List Lexeme → Found) (left : Phrase)
    (ls : List Lexeme) : Joint → Found
  | .binary op => (operand (op.level + 1) ls).map fun (right, rest) =>
    (binary op left right, rest)
  | .between =>
    (operand 6 ls).bind fun
      | (lower, .keyword .and :: rest) => (operand 6 rest).map fun (upper, rest) =>
        (between left lower upper, rest)
      | _ => none
  | .among negated => (operand 0 ls).bind fun (options, rest) =>
    expect (.sign .closing) (among negated left options) rest
  | .null negated => some (null negated left, ls)

mutual

/-- Reads a phrase of a level at least, with so much fuel. -/
def operand : Nat → Nat → List Lexeme → Found
  | 0, _, _ => none
  | fuel + 1, least, ls =>
      (first (operand fuel) least ls).bind fun (p, rest) => climb fuel least p rest

/-- Goes on with a phrase as long as joints of the level follow. -/
def climb : Nat → Nat → Phrase → List Lexeme → Found
  | 0, _, _, _ => none
  | fuel + 1, least, left, ls =>
    match Joint.read? ls with
    | none => some (left, ls)
    | some (j, rest) =>
      if least ≤ j.level ∧ j.level ≤ left.level then
        (joined (operand fuel) left rest j).bind fun (p, rest) => climb fuel least p rest
      else some (left, ls)

end

/-- Reads a row of lexemes to its end, as a value. -/
def ofLexemes? (ls : List Lexeme) : Option Phrase :=
  match operand (3 * ls.length + 2) 2 ls with
  | some (p, []) => some p
  | _ => none

/-- Reads a text. -/
def read? (quote : Char) (text : String) : Option Phrase :=
  (lexemes? quote text).bind ofLexemes?

/-! ### What is read fits -/

variable {operandAt : Nat → List Lexeme → Found} {p q left : Phrase} {ls rest : List Lexeme}
    {least fuel : Nat}

theorem expect_eq_some_iff {l : Lexeme} : expect l p ls = some (q, rest)
    ↔ p = q ∧ ls = l :: rest := by
  cases ls with
  | nil => simp [expect]
  | cons l' ls =>
      by_cases h : l' = l <;> simp [expect, h]

/-- What was found at a level fits, belongs to the level, and is written with the
lexemes up to the rest. -/
def FoundAt (least : Nat) (ls : List Lexeme) (p : Phrase) (rest : List Lexeme) : Prop :=
  p.Fits ∧ least ≤ p.level ∧ ls = p.lexemes ++ rest

/-- Everything the reader finds is found at the level that was asked for. -/
def Sound (operandAt : Nat → List Lexeme → Found) : Prop :=
  ∀ ⦃least ls p rest⦄, least ≤ 9 → operandAt least ls = some (p, rest) →
    FoundAt least ls p rest

theorem first_sound (hoperand : Sound operandAt) (hleast : least ≤ 9)
    (h : first operandAt least ls = some (p, rest)) :
    FoundAt least ls p rest := by
  unfold first at h
  split at h
  case h_1 =>
    split at h
    · next hnot =>
        obtain ⟨⟨q, _⟩, hq, heq⟩ := Option.map_eq_some_iff.1 h
        cases heq
        obtain ⟨hfits, hlevel, rfl⟩ := hoperand (by decide) hq
        exact ⟨⟨hfits, hlevel⟩, hnot, rfl⟩
    · cases h
  case h_2 =>
    split at h
    · next hnegate =>
        obtain ⟨⟨q, _⟩, hq, heq⟩ := Option.map_eq_some_iff.1 h
        cases heq
        obtain ⟨hfits, hlevel, rfl⟩ := hoperand (by decide) hq
        exact ⟨⟨hfits, hlevel⟩, hnegate, rfl⟩
    · cases h
  case h_3 =>
    obtain ⟨⟨q, _⟩, hq, hexpect⟩ := Option.bind_eq_some_iff.1 h
    obtain ⟨rfl, rfl⟩ := expect_eq_some_iff.1 hexpect
    obtain ⟨hfits, hlevel, rfl⟩ := hoperand (by decide) hq
    exact ⟨⟨hfits, hlevel⟩, hleast, by simp [lexemes]⟩
  case h_4 =>
    obtain ⟨⟨q, _⟩, hq, hcast⟩ := Option.bind_eq_some_iff.1 h
    split at hcast
    · next heq =>
        cases heq
        obtain ⟨rfl, rfl⟩ := expect_eq_some_iff.1 hcast
        obtain ⟨hfits, hlevel, rfl⟩ := hoperand (by decide) hq
        exact ⟨⟨hfits, hlevel⟩, hleast, by simp [lexemes]⟩
    · cases hcast
  case h_5 =>
    obtain ⟨⟨q, _⟩, hq, hexpect⟩ := Option.bind_eq_some_iff.1 h
    obtain ⟨rfl, rfl⟩ := expect_eq_some_iff.1 hexpect
    obtain ⟨hfits, -, rfl⟩ := hoperand (by decide) hq
    exact ⟨hfits, hleast, by simp [lexemes]⟩
  case h_6 =>
    split at h
    · next hatom =>
        cases h
        exact ⟨trivial, hleast, Atom.read?_sound hatom⟩
    · split at h
      · next hzero =>
          cases h
          exact ⟨trivial, Nat.le_of_eq hzero, rfl⟩
      · cases h

theorem joined_sound (hoperand : Sound operandAt) {j : Joint} (hleft : left.Fits)
    (hlevel : j.level ≤ left.level) (h : joined operandAt left ls j = some (p, rest)) :
    p.Fits ∧ p.level = j.level ∧ left.lexemes ++ j.lexemes ++ ls = p.lexemes ++ rest := by
  cases j with
  | binary op =>
      obtain ⟨⟨right, _⟩, hright, heq⟩ := Option.map_eq_some_iff.1 h
      cases heq
      obtain ⟨hfits, hmore, rfl⟩ :=
        hoperand (Nat.le_trans (Nat.succ_le_succ op.level_le) (by decide)) hright
      exact ⟨⟨hleft, hfits, hlevel, hmore⟩, rfl, by simp [lexemes]⟩
  | between =>
      obtain ⟨⟨lower, _⟩, hlower, hbounds⟩ := Option.bind_eq_some_iff.1 h
      split at hbounds
      · next hpair =>
          cases hpair
          obtain ⟨⟨upper, _⟩, hupper, heq⟩ := Option.map_eq_some_iff.1 hbounds
          cases heq
          obtain ⟨hfitsLower, hmore, rfl⟩ := hoperand (by decide) hlower
          obtain ⟨hfitsUpper, hmore', rfl⟩ := hoperand (by decide) hupper
          exact ⟨⟨hleft, hfitsLower, hfitsUpper, hlevel, hmore, hmore'⟩, rfl,
            by simp [lexemes]⟩
      · cases hbounds
  | among negated =>
      obtain ⟨⟨options, _⟩, hoptions, hexpect⟩ := Option.bind_eq_some_iff.1 h
      obtain ⟨rfl, rfl⟩ := expect_eq_some_iff.1 hexpect
      obtain ⟨hfits, -, rfl⟩ := hoperand (by decide) hoptions
      exact ⟨⟨hleft, hfits, hlevel⟩, rfl, by simp [lexemes]⟩
  | null negated =>
      cases h
      exact ⟨⟨hleft, hlevel⟩, rfl, rfl⟩

/-- Climbing only adds to what fits. -/
theorem climb_sound (hoperand : ∀ f < fuel, Sound (operand f)) (hleft : left.Fits)
    (hlevel : least ≤ left.level) (h : climb fuel least left ls = some (p, rest)) :
    p.Fits ∧ least ≤ p.level ∧ left.lexemes ++ ls = p.lexemes ++ rest := by
  induction fuel generalizing left ls with
  | zero => cases h
  | succ fuel ih =>
      rw [climb] at h
      split at h
      · cases h
        exact ⟨hleft, hlevel, rfl⟩
      · next j ls' hj =>
          split at h
          · next hjoint =>
              obtain ⟨⟨q, rest'⟩, hq, hclimb⟩ := Option.bind_eq_some_iff.1 h
              obtain ⟨hfits, heq, hlexemes⟩ :=
                joined_sound (hoperand fuel (Nat.lt_succ_self _)) hleft hjoint.2 hq
              obtain ⟨hp, hmore, hrest⟩ :=
                ih (fun f hf => hoperand f (Nat.lt_succ_of_lt hf)) hfits
                  (heq ▸ hjoint.1) hclimb
              refine ⟨hp, hmore, ?_⟩
              rw [← hrest, ← hlexemes, Joint.read?_sound hj, List.append_assoc]
          · cases h
            exact ⟨hleft, hlevel, rfl⟩

theorem operand_sound (fuel : Nat) : Sound (operand fuel) := by
  induction fuel using Nat.strongRecOn with
  | ind fuel ih =>
      intro least ls p rest hleast h
      cases fuel with
      | zero => cases h
      | succ fuel =>
          obtain ⟨⟨q, rest'⟩, hq, hclimb⟩ := Option.bind_eq_some_iff.1 h
          obtain ⟨hfits, hlevel, rfl⟩ := first_sound (ih fuel (Nat.lt_succ_self _)) hleast hq
          exact climb_sound (fun f hf => ih f (Nat.lt_succ_of_lt hf)) hfits hlevel hclimb

/-! ### What fits is read -/

/-- No joint of the level follows. -/
def Stops (least : Nat) (ls : List Lexeme) : Prop :=
  ∀ j rest, Joint.read? ls = some (j, rest) → j.level < least

theorem Stops.of_none (h : Joint.read? ls = none) : Stops least ls := by
  intro j rest hj
  rw [h] at hj
  cases hj

theorem Stops.mono {n m : Nat} (h : Stops n ls) (hle : n ≤ m) : Stops m ls :=
  fun j rest hj => Nat.lt_of_lt_of_le (h j rest hj) hle

/-- A sign and a negation bind what follows them: no joint has their level. -/
theorem Stops.behind {n : Nat} (h : Stops (n + 1) ls) (hn : n = 4 ∨ n = 8) : Stops n ls := by
  intro j rest hj
  refine Nat.lt_of_le_of_ne (Nat.le_of_lt_succ (h j rest hj)) fun heq => ?_
  cases j with
  | binary op => cases op <;> rcases hn with rfl | rfl <;> exact absurd heq (by decide)
  | _ => rcases hn with rfl | rfl <;> cases heq

theorem climb_stops (fuel : Nat) (h : Stops least ls) (p : Phrase) :
    climb (fuel + 1) least p ls = some (p, ls) := by
  rw [climb]
  split
  · rfl
  · next j rest hj => exact if_neg fun hjoint => absurd (h j rest hj) (Nat.not_lt.2 hjoint.1)

/-- With fuel for its lexemes, the reader gets to the end of the phrase and goes on from
there. -/
def ReadsOn (p : Phrase) : Prop :=
  ∀ (budget : Nat) ⦃least tail result⦄, least ≤ p.level → Stops (p.level + 1) tail →
    (∀ fuel ≥ budget, climb fuel least p tail = some result) →
    ∀ fuel ≥ budget + 3 * p.lexemes.length + 1,
      operand fuel least (p.lexemes ++ tail) = some result

/-- The same for the lists that end with a bracket. -/
def ReadsList (p : Phrase) : Prop :=
  ∀ tail, ∀ fuel ≥ 3 * p.lexemes.length + 2,
    operand fuel 0 (p.lexemes ++ .sign .closing :: tail) = some (p, .sign .closing :: tail)

namespace ReadsOn

variable {lower upper options args right : Phrase} {tail : List Lexeme}

/-- Nothing follows that belongs to the phrase. -/
theorem operand (h : ReadsOn p) (hleast : least ≤ p.level) (htail : Stops least tail)
    (hfuel : 3 * p.lexemes.length + 2 ≤ fuel) :
    operand fuel least (p.lexemes ++ tail) = some (p, tail) := by
  refine h 1 hleast (htail.mono (Nat.le_succ_of_le hleast)) (fun f hf => ?_) fuel (by omega)
  obtain ⟨f, rfl⟩ := Nat.exists_eq_add_of_le' hf
  exact climb_stops f htail p

theorem list (h : ReadsOn p) : ReadsList p :=
  fun _ _ hfuel => h.operand (Nat.zero_le _) (.of_none rfl) hfuel

theorem both (h : ReadsOn p) : ReadsList p ∧ (1 ≤ p.level → ReadsOn p) :=
  ⟨h.list, fun _ => h⟩

/-- A phrase that is read at once. -/
theorem of_first
    (h : ∀ least ≤ p.level, ∀ tail, Stops (p.level + 1) tail →
      ∀ fuel ≥ 3 * p.lexemes.length, first (Phrase.operand fuel) least (p.lexemes ++ tail)
        = some (p, tail)) : ReadsOn p := by
  intro budget least tail result hleast htail hclimb fuel hfuel
  obtain ⟨fuel, rfl⟩ := Nat.exists_eq_add_of_le' (Nat.le_trans (Nat.le_add_left 1 _) hfuel)
  rw [Phrase.operand, h least hleast tail htail fuel (by omega)]
  exact hclimb fuel (by omega)

theorem atom (a : Atom) : ReadsOn (.atom a) := by
  refine of_first fun least _ tail _ fuel _ => ?_
  cases a with
  | name label column => cases label <;> rfl
  | interval negative steps unit => cases negative <;> rfl
  | _ => rfl

theorem paren (h : ReadsOn p) (hp : 2 ≤ p.level) : ReadsOn (.paren p) := by
  refine of_first fun least _ tail _ fuel hfuel => ?_
  simp only [lexemes, List.cons_append, List.append_assoc, List.length_cons,
    List.length_append, List.nil_append, List.length_nil] at hfuel ⊢
  rw [first, h.operand hp (.of_none rfl) (by omega)]
  rfl

theorem cast (h : ReadsOn p) (hp : 2 ≤ p.level) (type : String) :
    ReadsOn (.cast p type) := by
  refine of_first fun least _ tail _ fuel hfuel => ?_
  simp only [lexemes, List.cons_append, List.append_assoc, List.length_cons,
    List.length_append, List.nil_append, List.length_nil] at hfuel ⊢
  rw [first, h.operand hp (.of_none rfl) (by omega)]
  rfl

theorem call (h : ReadsList args) (function : String) : ReadsOn (.call function args) := by
  refine of_first fun least _ tail _ fuel hfuel => ?_
  simp only [lexemes, List.cons_append, List.append_assoc, List.length_cons,
    List.length_append, List.nil_append, List.length_nil] at hfuel ⊢
  rw [first, h tail fuel (by omega)]
  rfl

theorem negate (h : ReadsOn p) (hp : 8 ≤ p.level) : ReadsOn (.negate p) := by
  refine of_first fun least hleast tail htail fuel hfuel => ?_
  simp only [lexemes, List.cons_append, List.length_cons] at hfuel ⊢
  have hleast : least ≤ 8 := hleast
  rw [first, if_pos hleast, h.operand hp (htail.behind (.inr rfl)) (by omega)]
  rfl

theorem not (h : ReadsOn p) (hp : 4 ≤ p.level) : ReadsOn (.not p) := by
  refine of_first fun least hleast tail htail fuel hfuel => ?_
  simp only [lexemes, List.cons_append, List.length_cons] at hfuel ⊢
  have hleast : least ≤ 4 := hleast
  rw [first, if_pos hleast, h.operand hp (htail.behind (.inl rfl)) (by omega)]
  rfl

/-- A phrase that a joint makes of the one in front of it and of more lexemes. -/
theorem of_joint (j : Joint) (more : List Lexeme) (need : Nat) (hleft : ReadsOn left)
    (hlevel : j.level ≤ left.level) (hp : p.level = j.level)
    (hlexemes : p.lexemes = left.lexemes ++ (j.lexemes ++ more))
    (hneed : need + 1 ≤ 3 * (j.lexemes ++ more).length)
    (hjoined : ∀ tail, Stops (j.level + 1) tail → ∀ fuel ≥ need,
      joined (Phrase.operand fuel) left (more ++ tail) j = some (p, tail)) : ReadsOn p := by
  intro budget least tail result hleast htail hclimb fuel hfuel
  rw [hp] at hleast htail
  rw [hlexemes, List.append_assoc, List.append_assoc]
  rw [hlexemes, List.length_append] at hfuel
  refine hleft (max need budget + 1) (Nat.le_trans hleast hlevel) ?_
    (fun f hf => ?_) fuel (by omega)
  · intro j' rest hj'
    rw [Joint.read?_lexemes] at hj'
    cases hj'
    exact Nat.lt_succ_of_le hlevel
  · obtain ⟨f, rfl⟩ := Nat.exists_eq_add_of_le' (Nat.le_trans (Nat.le_add_left 1 _) hf)
    rw [climb, Joint.read?_lexemes]
    simp only [if_pos (And.intro hleast hlevel), hjoined tail htail f (by omega),
      Option.bind_some]
    exact hclimb f (by omega)

theorem binary {op : Operator} (hleft : ReadsOn left) (hright : ReadsOn right)
    (hl : op.level ≤ left.level) (hr : op.level < right.level) :
    ReadsOn (.binary op left right) := by
  refine of_joint (.binary op) right.lexemes (3 * right.lexemes.length + 2) hleft hl rfl
    (by simp [lexemes]) (by simp [Joint.lexemes]; omega) fun tail htail fuel hfuel => ?_
  rw [joined, hright.operand hr htail hfuel]
  rfl

theorem between (h : ReadsOn left) (hlower : ReadsOn lower) (hupper : ReadsOn upper)
    (hp : 5 ≤ left.level) (hl : 5 < lower.level) (hu : 5 < upper.level) :
    ReadsOn (.between left lower upper) := by
  refine of_joint .between (lower.lexemes ++ .keyword .and :: upper.lexemes)
    (3 * (lower.lexemes.length + upper.lexemes.length) + 2) h hp rfl (by simp [lexemes])
    (by simp [Joint.lexemes]; omega) fun tail htail fuel hfuel => ?_
  have hand : Stops 6 (.keyword .and :: (upper.lexemes ++ tail)) := by
    intro j rest hj
    cases hj
    decide
  rw [joined, List.append_assoc, List.cons_append, hlower.operand hl hand (by omega)]
  have hread : Phrase.operand fuel 6 (upper.lexemes ++ tail) = some (upper, tail) :=
    hupper.operand hu htail (by omega)
  exact congrArg
    (Option.map fun (upper, rest) => (Phrase.between left lower upper, rest)) hread

theorem among (h : ReadsOn left) (hoptions : ReadsList options) (hp : 5 ≤ left.level)
    (negated : Bool) :
    ReadsOn (.among negated left options) := by
  refine of_joint (.among negated) (options.lexemes ++ [.sign .closing])
    (3 * options.lexemes.length + 2) h hp rfl (by simp [lexemes])
    (by cases negated <;> simp [Joint.lexemes] <;> omega) fun tail _ fuel hfuel => ?_
  rw [joined, List.append_assoc, List.singleton_append, hoptions tail fuel hfuel]
  rfl

theorem null (h : ReadsOn left) (hp : 5 ≤ left.level) (negated : Bool) :
    ReadsOn (.null negated left) :=
  of_joint (.null negated) [] 0 h hp rfl (by simp [lexemes])
    (by cases negated <;> simp [Joint.lexemes]) fun _ _ _ _ => rfl

end ReadsOn

theorem ReadsList.nothing : ReadsList .nothing := by
  intro tail fuel hfuel
  have hstops : Stops 0 (.sign .closing :: tail) := .of_none rfl
  obtain ⟨fuel, rfl⟩ : ∃ f, fuel = f + 2 := Nat.exists_eq_add_of_le' hfuel
  exact climb_stops fuel hstops .nothing

/-- Lists and phrases that fit are read. -/
theorem reads_of_fits (hp : p.Fits) : ReadsList p ∧ (1 ≤ p.level → ReadsOn p) := by
  induction p with
  | nothing => exact ⟨.nothing, fun h => absurd h (by decide)⟩
  | atom a => exact (ReadsOn.atom a).both
  | call function args ih => exact (ReadsOn.call (ih hp).1 function).both
  | cast p type ih =>
      exact (ReadsOn.cast ((ih hp.1).2 (Nat.le_trans (by decide) hp.2)) hp.2 type).both
  | paren p ih =>
      exact (ReadsOn.paren ((ih hp.1).2 (Nat.le_trans (by decide) hp.2)) hp.2).both
  | negate p ih =>
      exact (ReadsOn.negate ((ih hp.1).2 (Nat.le_trans (by decide) hp.2)) hp.2).both
  | not p ih => exact (ReadsOn.not ((ih hp.1).2 (Nat.le_trans (by decide) hp.2)) hp.2).both
  | binary op left right ihl ihr =>
      obtain ⟨hleft, hright, hl, hr⟩ := hp
      have hop : 1 ≤ op.level := by cases op <;> decide
      exact (ReadsOn.binary ((ihl hleft).2 (Nat.le_trans hop hl))
        ((ihr hright).2 (Nat.le_trans hop (Nat.le_of_lt hr))) hl hr).both
  | between p lower upper ih ihl ihu =>
      obtain ⟨hleft, hlower, hupper, hp, hl, hu⟩ := hp
      exact (ReadsOn.between ((ih hleft).2 (by omega)) ((ihl hlower).2 (by omega))
        ((ihu hupper).2 (by omega)) hp hl hu).both
  | among negated p options ih iho =>
      obtain ⟨hleft, hoptions, hp⟩ := hp
      exact (ReadsOn.among ((ih hleft).2 (by omega)) (iho hoptions).1 hp negated).both
  | null negated p ih =>
      exact (ReadsOn.null ((ih hp.1).2 (Nat.le_trans (by decide) hp.2)) hp.2 negated).both

/-- A row of lexemes is read as the phrase that fits and is written with them, and as no
other. -/
theorem ofLexemes?_eq_some_iff :
    ofLexemes? ls = some p ↔ p.Fits ∧ 2 ≤ p.level ∧ p.lexemes = ls := by
  constructor
  · intro h
    unfold ofLexemes? at h
    split at h
    · next hp =>
        cases h
        obtain ⟨hfits, hlevel, rfl⟩ := operand_sound _ (by decide) hp
        exact ⟨hfits, hlevel, (List.append_nil _).symm⟩
    · cases h
  · rintro ⟨hfits, hlevel, rfl⟩
    have hreads := (reads_of_fits hfits).2 (Nat.le_trans (by decide) hlevel)
    have hend : Stops 2 [] := .of_none rfl
    have hread := hreads.operand hlevel hend (Nat.le_refl _)
    rw [List.append_nil] at hread
    rw [ofLexemes?, hread]

end Phrase

end TypedQuery.Sql
