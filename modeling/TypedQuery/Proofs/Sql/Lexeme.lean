import TypedQuery.Sql.Literal

/-!
# The lexemes of SQL text

Text is read from left to right, one character at a time, the way SQL reads it: a word, a
number or a name goes on as long as it can, a quote that is doubled does not end what is
quoted, and two minus signs begin a comment that runs to the end of the line. `Lexed` says
what a piece of text contributes to the whole, whatever follows it. Pieces are told apart
by what stands between them, so that the lexemes of a text are those of its pieces in
order, unless two minus signs meet.
-/

namespace TypedQuery.Sql

/-! ## Lexemes -/

/-- The words that are no names. -/
inductive Keyword where
  | null
  | truth (b : Bool)
  | or
  | and
  | not
  | between
  | among
  | is
  | like
  | div
  | date
  | timestamp
  | interval
  | cast
  | as
  deriving DecidableEq

/-- The keywords in the spellings that are in use. -/
def Keyword.ofText? : String → Option Keyword
  | "NULL" => some .null
  | "TRUE" => some (.truth true)
  | "FALSE" => some (.truth false)
  | "OR" => some .or
  | "AND" => some .and
  | "NOT" => some .not
  | "BETWEEN" => some .between
  | "IN" => some .among
  | "IS" => some .is
  | "LIKE" | "like" => some .like
  | "DIV" => some .div
  | "DATE" => some .date
  | "TIMESTAMP" => some .timestamp
  | "INTERVAL" => some .interval
  | "CAST" => some .cast
  | "AS" => some .as
  | _ => none

inductive Sign where
  | opening
  | closing
  | comma
  | dot
  | plus
  | minus
  | times
  | slash
  | percent
  | equal
  | unequal
  | less
  | atMost
  | greater
  | atLeast
  deriving DecidableEq

inductive Lexeme where
  | word (text : String)
  | keyword (k : Keyword)
  | number (text : String)
  /-- What stands between single quotes. -/
  | text (content : String)
  /-- What stands between the quotes of names. -/
  | name (content : String)
  | sign (s : Sign)
  deriving DecidableEq

def Lexeme.ofWord (text : String) : Lexeme :=
  match Keyword.ofText? text with
  | some k => .keyword k
  | none => .word text

/-! ## Reading a character -/

/-- What the last characters belong to. -/
inductive Mode where
  | blank
  | word (chars : List Char)
  | number (chars : List Char)
  | minus
  | less
  | greater
  | bang
  | quoted (quote : Char) (content : List Char)
  /-- A quote within quotes, which ends them unless another one follows. -/
  | closing (quote : Char) (content : List Char)
  | comment
  | broken

namespace Mode

/-- The lexemes that a character makes at the beginning of something, and what it belongs
to. -/
def opened? (c : Char) : Option (List Lexeme × Mode) :=
  if c.isAlpha then some ([], word [c])
  else if c.isDigit then some ([], number [c])
  else if c.isWhitespace then some ([], blank)
  else match c with
    | '\'' => some ([], quoted c [])
    | '(' => some ([.sign .opening], blank)
    | ')' => some ([.sign .closing], blank)
    | ',' => some ([.sign .comma], blank)
    | '.' => some ([.sign .dot], blank)
    | '+' => some ([.sign .plus], blank)
    | '*' => some ([.sign .times], blank)
    | '/' => some ([.sign .slash], blank)
    | '%' => some ([.sign .percent], blank)
    | '=' => some ([.sign .equal], blank)
    | '-' => some ([], minus)
    | '<' => some ([], less)
    | '>' => some ([], greater)
    | '!' => some ([], bang)
    | _ => none

def continuesWord (c : Char) : Bool := c.isAlphanum || c = '_'

/-- A sign may stand in a number only in front of its exponent. -/
def continuesNumber (chars : List Char) (c : Char) : Bool :=
  c.isDigit || c = '.' || c = 'e' || (c = '-' && chars.getLast? = some 'e')

/-- The same for a character that goes on with what the last ones belong to. -/
def extended? : Mode → Char → Option (List Lexeme × Mode)
  | word chars, c => if continuesWord c then some ([], word (chars ++ [c])) else none
  | number chars, c => if continuesNumber chars c then
    some ([], number (chars ++ [c])) else none
  | minus, c => if c = '-' then some ([], comment) else none
  | less, c => if c = '=' then some ([.sign .atMost], blank) else none
  | greater, c => if c = '=' then some ([.sign .atLeast], blank) else none
  | bang, c => if c = '=' then some ([.sign .unequal], blank) else none
  | quoted quote content, c =>
    some ([], if c = quote then closing quote content else quoted quote (content ++ [c]))
  | closing quote content, c => if c = quote then
    some ([], quoted quote (content ++ [c])) else none
  | comment, c => some ([], if c = '\n' then blank else comment)
  | broken, _ => some ([], broken)
  | blank, _ => none

theorem minus_extended? {c : Char} (hc : c ≠ '-') : minus.extended? c = none := if_neg hc

/-- The lexemes that are complete when nothing more belongs to them. -/
def closed? : Mode → Option (List Lexeme)
  | blank | comment => some []
  | word chars => some [.ofWord (String.ofList chars)]
  | number chars => some [.number (String.ofList chars)]
  | minus => some [.sign .minus]
  | less => some [.sign .less]
  | greater => some [.sign .greater]
  | closing quote content =>
    some [if quote = '\'' then .text (String.ofList content)
      else .name (String.ofList content)]
  | bang | quoted _ _ | broken => none

/-- Reads one character. The quote of names is looked at last. -/
def step (quote : Char) (m : Mode) (c : Char) : List Lexeme × Mode :=
  match m.extended? c with
  | some result => result
  | none =>
    match m.closed?, opened? c with
    | some last, some (first, next) => (last ++ first, next)
    | some last, none => (last, if c = quote then quoted quote [] else broken)
    | none, _ => ([], broken)

end Mode

/-- Reads characters: the lexemes that are complete, and what the last
characters belong to. -/
def scan (quote : Char) : Mode → List Char → List Lexeme × Mode
  | m, [] => ([], m)
  | m, c :: rest =>
    let (first, next) := m.step quote c
    let (more, last) := scan quote next rest
    (first ++ more, last)

/-- The lexemes of a text; nothing if it is not made of lexemes. -/
def lexemes? (quote : Char) (text : String) : Option (List Lexeme) :=
  let (first, last) := scan quote .blank text.toList
  last.closed?.map (first ++ ·)

variable {quote : Char}

theorem scan_append (m : Mode) (a b : List Char) :
    scan quote m (a ++ b)
      = ((scan quote m a).1 ++ (scan quote (scan quote m a).2 b).1,
        (scan quote (scan quote m a).2 b).2) := by
  induction a generalizing m with
  | nil => rfl
  | cons c rest ih => simp only [List.cons_append, scan, ih, List.append_assoc]

/-- A character that begins something new is read as at the beginning. -/
theorem scan_anew {m : Mode} {c : Char} {rest : List Char} {last : List Lexeme}
    (hc : m.extended? c = none) (hlast : m.closed? = some last) :
    scan quote m (c :: rest)
      = (last ++ (scan quote .blank (c :: rest)).1, (scan quote .blank (c :: rest)).2) := by
  have hstep : m.step quote c
      = (last ++ (Mode.blank.step quote c).1, (Mode.blank.step quote c).2) := by
    have hblank : Mode.blank.extended? c = none := rfl
    have hnothing : Mode.blank.closed? = some [] := rfl
    cases hopened : Mode.opened? c <;> simp [Mode.step, hc, hlast, hblank, hnothing, hopened]
  simp only [scan, hstep, List.append_assoc]

/-! ## Minus signs are not gained -/

/-- The minus signs in a lexeme. -/
def Lexeme.dashes : Lexeme → Nat
  | word chars | number chars | text chars | name chars => chars.toList.count '-'
  | keyword _ => 0
  | sign s => if s = .minus then 1 else 0

def dashes : List Lexeme → Nat
  | [] => 0
  | l :: rest => l.dashes + dashes rest

@[simp] theorem dashes_nil : dashes [] = 0 := rfl

@[simp] theorem dashes_cons (l : Lexeme) (rest : List Lexeme) :
    dashes (l :: rest) = l.dashes + dashes rest := rfl

@[simp] theorem dashes_append (a b : List Lexeme) :
    dashes (a ++ b) = dashes a + dashes b := by
  induction a with
  | nil => simp
  | cons l rest ih => simp [ih, Nat.add_assoc]

def Mode.dashes : Mode → Nat
  | word chars | number chars => chars.count '-'
  | quoted _ content | closing _ content => content.count '-'
  | minus => 1
  | blank | less | greater | bang | comment | broken => 0

theorem Lexeme.dashes_ofWord (text : String) :
    (ofWord text).dashes ≤ text.toList.count '-' := by
  unfold ofWord
  split
  · exact Nat.zero_le _
  · exact Nat.le_refl _

namespace Mode

variable {m next : Mode} {c : Char} {found : List Lexeme}

theorem dashes_opened? (h : opened? c = some (found, next)) :
    Sql.dashes found + next.dashes ≤ [c].count '-' := by
  unfold opened? at h
  split at h
  · cases h
    exact Nat.le_of_eq (Nat.zero_add _)
  split at h
  · cases h
    exact Nat.le_of_eq (Nat.zero_add _)
  split at h
  · cases h
    exact Nat.zero_le _
  split at h <;> cases h <;> decide

theorem dashes_extended? (h : m.extended? c = some (found, next)) :
    Sql.dashes found + next.dashes ≤ m.dashes + [c].count '-' := by
  cases m <;> simp only [extended?] at h
  case comment =>
    cases h
    split <;> exact Nat.zero_le _
  case quoted =>
    cases h
    split <;> simp [dashes]
  case blank => cases h
  case broken =>
    cases h
    exact Nat.zero_le _
  all_goals
    split at h <;> cases h
    simp [dashes, Lexeme.dashes]

theorem dashes_closed? (h : m.closed? = some found) : Sql.dashes found ≤ m.dashes := by
  cases m <;> simp only [closed?, Option.some.injEq, reduceCtorEq] at h <;> subst h
  case word chars => simpa [dashes] using Lexeme.dashes_ofWord (String.ofList chars)
  case closing => split <;> simp [dashes, Lexeme.dashes]
  all_goals simp [dashes, Lexeme.dashes]

theorem dashes_step (quote : Char) (m : Mode) (c : Char) :
    Sql.dashes (m.step quote c).1 + (m.step quote c).2.dashes
      ≤ m.dashes + [c].count '-' := by
  unfold step
  split
  · next h => exact dashes_extended? h
  · split
    · next hclosed hopened =>
        rw [dashes_append, Nat.add_assoc]
        exact Nat.add_le_add (dashes_closed? hclosed) (dashes_opened? hopened)
    · next hclosed _ =>
        have hnew : (if c = quote then quoted quote [] else broken).dashes
          = 0 := by split <;> rfl
        simp only [hnew, Nat.add_zero]
        exact Nat.le_add_right_of_le (dashes_closed? hclosed)
    · exact Nat.zero_le _

end Mode

theorem dashes_scan (quote : Char) (m : Mode) (text : List Char) :
    dashes (scan quote m text).1 + (scan quote m text).2.dashes
      ≤ m.dashes + text.count '-' := by
  induction text generalizing m with
  | nil => exact Nat.le_of_eq (Nat.zero_add _)
  | cons c rest ih =>
      have hstep := m.dashes_step quote c
      have hrest := ih (m.step quote c).2
      have hcount : (c :: rest).count '-' = [c].count '-' + rest.count '-' := by
        rw [← List.count_append, List.singleton_append]
      simp only [scan, dashes_append]
      omega

/-! ## Numerals and quotes -/

theorem not_isAlpha_of_isDigit {c : Char} (h : c.isDigit) : ¬ c.isAlpha := by
  have hdigit : c.val ≤ '9'.val := of_decide_eq_true (Bool.and_eq_true_iff.1 h).2
  intro halpha
  have hletter : 'A'.val ≤ c.val := by
    rcases Bool.or_eq_true_iff.1 halpha with hupper | hlower
    · exact (of_decide_eq_true hupper).1
    · exact UInt32.le_trans (by decide) (of_decide_eq_true (Bool.and_eq_true_iff.1 hlower).1)
  exact absurd (UInt32.le_trans hletter hdigit) (by decide)

namespace Mode

/-- The characters go on with the number. -/
def goesOn : List Char → List Char → Bool
  | _, [] => true
  | chars, c :: rest => continuesNumber chars c && goesOn (chars ++ [c]) rest

theorem goesOn_append (chars a b : List Char) :
    goesOn chars (a ++ b) = (goesOn chars a && goesOn (chars ++ a) b) := by
  induction a generalizing chars with
  | nil => simp [goesOn]
  | cons c rest ih => simp [goesOn, ih, Bool.and_assoc]

theorem goesOn_digits {digits : List Char} (h : ∀ c ∈ digits, c.isDigit)
    (chars : List Char) : goesOn chars digits := by
  induction digits generalizing chars with
  | nil => rfl
  | cons c rest ih =>
      obtain ⟨hc, hrest⟩ := List.forall_mem_cons.1 h
      simp [goesOn, continuesNumber, hc, ih hrest]

end Mode

/-- A digit and what numbers may go on with. -/
def IsNumeral (text : List Char) : Prop :=
  ∃ c rest, text = c :: rest ∧ c.isDigit ∧ Mode.goesOn [c] rest

theorem scan_number {chars rest : List Char} (h : Mode.goesOn chars rest) :
    scan quote (.number chars) rest = ([], .number (chars ++ rest)) := by
  induction rest generalizing chars with
  | nil => rw [List.append_nil, scan]
  | cons c rest ih =>
      obtain ⟨hc, hrest⟩ := Bool.and_eq_true_iff.1 h
      have hstep : (Mode.number chars).step quote c = ([], .number (chars ++ [c])) := by
        rw [Mode.step, Mode.extended?, if_pos hc]
      rw [scan, hstep]
      simp [ih hrest]

theorem scan_word {chars rest : List Char} (h : ∀ c ∈ rest, Mode.continuesWord c) :
    scan quote (.word chars) rest = ([], .word (chars ++ rest)) := by
  induction rest generalizing chars with
  | nil => rw [List.append_nil, scan]
  | cons c rest ih =>
      obtain ⟨hc, hrest⟩ := List.forall_mem_cons.1 h
      have hstep : (Mode.word chars).step quote c = ([], .word (chars ++ [c])) := by
        rw [Mode.step, Mode.extended?, if_pos hc]
      rw [scan, hstep]
      simp [ih hrest]

/-- Doubled quotes do not end what is quoted. -/
theorem scan_doubled (q : Char) (content chars : List Char) :
    scan quote (.quoted q chars) (doubled q content ++ [q])
      = ([], .closing q (chars ++ content)) := by
  induction content generalizing chars with
  | nil => simp [doubled, scan, Mode.step, Mode.extended?]
  | cons c rest ih =>
      by_cases hc : c = q
      · subst hc
        simp [doubled, scan, Mode.step, Mode.extended?, ih]
      · simp [doubled, hc, scan, Mode.step, Mode.extended?, ih]

theorem count_doubled {q : Char} (hq : q ≠ '-') (content : List Char) :
    (doubled q content).count '-' = content.count '-' := by
  induction content with
  | nil => rfl
  | cons c rest ih =>
      unfold doubled
      split
      · next h =>
          subst h
          simp [hq, ih]
      · simp [List.count_cons, ih]

/-- The quote of names begins nothing else. -/
def Separate (quote : Char) : Prop := Mode.opened? quote = none

theorem Separate.ne {c : Char} (h : Separate quote) (hc : (Mode.opened? c).isSome) :
    quote ≠ c := by
  rintro rfl
  rw [Separate] at h
  rw [h] at hc
  cases hc

/-! ## Pieces of text -/

/-- What may follow a piece of text: a space, a bracket that closes, or a comma. -/
def separators : List Char := [' ', ')', ',']

theorem forall_separators {P : Char → Prop} (h : P ' ' ∧ P ')' ∧ P ',') :
    ∀ c ∈ separators, P c := by
  simpa [separators] using h

/-- Separators are not part of words. -/
theorem Mode.ends_word (chars : List Char) :
    ∀ c ∈ separators, (Mode.word chars).extended? c = none := by
  have hnone : ∀ c ∈ separators, ¬ continuesWord c := forall_separators (by decide)
  exact fun c hc => if_neg (hnone c hc)

/-- The piece of text is made of the lexemes, whatever separator follows it, if it is
clean. If it is not, a comment hides a part of it, and with the part two minus signs. -/
structure Lexed (quote : Char) (text : List Char) (lexemes : List Lexeme)
    (clean : Prop) : Prop where
  settles : clean → ∃ last, (scan quote .blank text).2.closed? = some last
    ∧ (scan quote .blank text).1 ++ last = lexemes
    ∧ ∀ c ∈ separators, (scan quote .blank text).2.extended? c = none
  loses : ¬ clean → dashes (scan quote .blank text).1 + (scan quote .blank text).2.dashes
    < text.count '-'
  dashes_eq : dashes lexemes = text.count '-'

namespace Lexed

variable {a b : List Char} {found more : List Lexeme} {clean clean' : Prop}

theorem nil (quote : Char) : Lexed quote [] [] True :=
  ⟨fun _ => ⟨[], rfl, rfl, fun _ _ => rfl⟩, fun h => absurd trivial h, rfl⟩

theorem congr (h : Lexed quote a found clean) (hclean : clean ↔ clean') :
    Lexed quote a found clean' :=
  propext hclean ▸ h

/-- A piece that is the beginning of nothing, and another one. -/
theorem after (hfound : scan quote .blank a = (found, .blank))
    (hdashes : dashes found = a.count '-') (h : Lexed quote b more clean) :
    Lexed quote (a ++ b) (found ++ more) clean := by
  have hscan : scan quote .blank (a ++ b)
      = (found ++ (scan quote .blank b).1, (scan quote .blank b).2) := by
    rw [scan_append, hfound]
  refine ⟨fun hclean => ?_, fun hclean => ?_, ?_⟩
  · obtain ⟨last, hlast, heq, hnone⟩ := h.settles hclean
    rw [hscan]
    exact ⟨last, hlast, by rw [List.append_assoc, heq], hnone⟩
  · have hb := h.loses hclean
    simp only [hscan, dashes_append, List.count_append]
    omega
  · rw [dashes_append, List.count_append, hdashes, h.dashes_eq]

/-- A piece, and another one that begins with a separator. -/
theorem beside (ha : Lexed quote a found clean) (hb : Lexed quote b more clean')
    (hc : ∃ c ∈ separators, b.head? = some c) :
    Lexed quote (a ++ b) (found ++ more) (clean ∧ clean') := by
  obtain ⟨c, hc, hhead⟩ := hc
  obtain ⟨rest, rfl⟩ := List.head?_eq_some_iff.1 hhead
  by_cases hclean : clean
  · obtain ⟨last, hlast, heq, hnone⟩ := ha.settles hclean
    have hscan : scan quote .blank (a ++ c :: rest)
        = (found ++ (scan quote .blank (c :: rest)).1,
          (scan quote .blank (c :: rest)).2) := by
      rw [scan_append, scan_anew (hnone c hc) hlast, ← List.append_assoc, heq]
    refine ⟨fun hclean' => ?_, fun hclean' => ?_, ?_⟩
    · obtain ⟨last', hlast', heq', hnone'⟩ := hb.settles hclean'.2
      rw [hscan]
      exact ⟨last', hlast', by rw [List.append_assoc, heq'], hnone'⟩
    · have hlost := hb.loses fun h => hclean' ⟨hclean, h⟩
      have hfound := ha.dashes_eq
      simp only [hscan, dashes_append, List.count_append]
      omega
    · rw [dashes_append, List.count_append, ha.dashes_eq, hb.dashes_eq]
  · refine ⟨fun h => absurd h.1 hclean, fun _ => ?_,
      by rw [dashes_append, List.count_append, ha.dashes_eq, hb.dashes_eq]⟩
    have hlost := ha.loses hclean
    have hrest := dashes_scan quote (scan quote .blank a).2 (c :: rest)
    simp only [scan_append, dashes_append, List.count_append]
    omega

/-- A minus sign and a piece. The two are clean if the piece does not begin
with another minus sign. -/
theorem minus (h : Lexed quote b more clean) :
    Lexed quote ('-' :: b) (.sign .minus :: more) (clean ∧ b.head? ≠ some '-') := by
  have hopened : scan quote .blank ('-' :: b) = scan quote .minus b := rfl
  refine ⟨fun ⟨hclean, hhead⟩ => ?_, fun hclean => ?_,
    by simp [Lexeme.dashes, h.dashes_eq, Nat.add_comm]⟩
  · obtain ⟨last, hlast, heq, hnone⟩ := h.settles hclean
    rw [hopened]
    have hminus : ∀ c ∈ separators, Mode.minus.extended? c = none :=
      forall_separators (by decide)
    cases b with
    | nil =>
        cases hlast
        exact ⟨_, rfl, by rw [← heq]; rfl, hminus⟩
    | cons c rest =>
        rw [scan_anew (Mode.minus_extended? fun hc => hhead (by rw [hc]; rfl)) rfl]
        exact ⟨last, hlast, by rw [List.append_assoc, heq]; rfl, hnone⟩
  · rw [hopened, List.count_cons_self]
    cases b with
    | nil =>
        have hnil := h.loses fun hclean' => hclean ⟨hclean', nofun⟩
        exact absurd hnil (Nat.not_lt_zero _)
    | cons c rest =>
        by_cases hc : c = '-'
        · subst hc
          have hrest := dashes_scan quote .comment rest
          have hscan : scan quote .minus ('-' :: rest) = scan quote .comment rest := rfl
          have hcomment : Mode.comment.dashes = 0 := rfl
          rw [hscan, List.count_cons_self]
          omega
        · have hlost :=
            h.loses fun hclean' => hclean ⟨hclean', fun h => hc (Option.some.inj h)⟩
          rw [scan_anew (Mode.minus_extended? hc) rfl]
          simp only [dashes_append, dashes_cons, dashes_nil, Lexeme.dashes, if_true]
          omega

/-! ### Words and numbers -/

/-- A piece whose last lexeme is complete when a separator follows. -/
theorem whole {m : Mode} {last : List Lexeme} (hscan : scan quote .blank a = (found, m))
    (hclosed : m.closed? = some last) (hnone : ∀ c ∈ separators, m.extended? c = none)
    (hdashes : dashes (found ++ last) = a.count '-') :
    Lexed quote a (found ++ last) True := by
  refine ⟨fun _ => ⟨last, ?_, ?_, ?_⟩, fun h => absurd trivial h, hdashes⟩
  · rw [hscan, hclosed]
  · rw [hscan]
  · rw [hscan]
    exact hnone

/-- A piece that is one lexeme. -/
theorem single {l : Lexeme} {m : Mode} (hscan : scan quote .blank a = ([], m))
    (hclosed : m.closed? = some [l]) (hnone : ∀ c ∈ separators, m.extended? c = none)
    (hdashes : l.dashes = a.count '-') : Lexed quote a [l] True :=
  whole hscan hclosed hnone hdashes

/-- What is read when a character begins something. -/
theorem scan_opened {c : Char} {m : Mode} {rest : List Char}
    (hc : Mode.opened? c = some ([], m)) :
    scan quote .blank (c :: rest) = scan quote m rest := by
  have hstep : Mode.blank.step quote c = ([], m) := by
    simp [Mode.step, Mode.extended?, Mode.closed?, hc]
  rw [scan, hstep]
  rfl

/-- A letter, and what words may go on with. -/
theorem word {c : Char} {rest : List Char} (hc : c.isAlpha)
    (hrest : ∀ d ∈ rest, Mode.continuesWord d) :
    Lexed quote (c :: rest) [.ofWord (String.ofList (c :: rest))] True := by
  have hno : '-' ∉ c :: rest := by
    intro h
    rcases List.mem_cons.1 h with rfl | h
    · exact absurd hc (by decide)
    · exact absurd (hrest _ h) (by decide)
  have hcount := List.count_eq_zero.2 hno
  refine single (m := .word (c :: rest)) ?_ rfl (Mode.ends_word _) ?_
  · rw [scan_opened (if_pos hc), scan_word hrest]
    rfl
  · have hle := Lexeme.dashes_ofWord (String.ofList (c :: rest))
    rw [String.toList_ofList] at hle
    omega

theorem numeral (h : IsNumeral a) : Lexed quote a [.number (String.ofList a)] True := by
  obtain ⟨c, rest, rfl, hc, hrest⟩ := h
  have hnone : ∀ d ∈ separators, Mode.continuesNumber (c :: rest) d = false :=
    forall_separators ⟨rfl, rfl, rfl⟩
  refine single (m := .number (c :: rest)) ?_ rfl
    (fun d hd => if_neg (Bool.not_eq_true _ ▸ hnone d hd)) (by simp [Lexeme.dashes])
  rw [scan_opened ((if_neg (not_isAlpha_of_isDigit hc)).trans (if_pos hc)),
    scan_number hrest]
  rfl

theorem quotedText (s : String) : Lexed quote (quotedText s).toList [.text s] True := by
  have hnone : ∀ c ∈ separators, c ≠ '\'' := forall_separators (by decide)
  refine single (m := .closing '\'' s.toList) ?_ ?_ (fun c hc => if_neg (hnone c hc)) ?_
  · rw [Sql.quotedText, quoted, String.toList_ofList, List.cons_append,
      scan_opened rfl, scan_doubled]
    rfl
  · simp [Mode.closed?]
  · simp [Lexeme.dashes, Sql.quotedText, quoted, count_doubled]

theorem name (hquote : Separate quote) (s : String) :
    Lexed quote (quoted quote s).toList [.name s] True := by
  have hstep : Mode.blank.step quote quote = ([], .quoted quote []) := by
    simp [Mode.step, Mode.extended?, Mode.closed?,
      show Mode.opened? quote = none from hquote]
  have hdash : quote ≠ '-' := hquote.ne rfl
  refine single (m := .closing quote s.toList) ?_ ?_ (fun c hc => if_neg ?_) ?_
  · rw [quoted, String.toList_ofList, List.cons_append, scan, hstep]
    simp only [scan_doubled, List.nil_append]
  · simp [Mode.closed?, hquote.ne (c := '\'') rfl]
  · have hopened : ∀ c ∈ separators, (Mode.opened? c).isSome := forall_separators (by decide)
    exact (hquote.ne (hopened c hc)).symm
  · simp [Lexeme.dashes, quoted, count_doubled hdash, hdash]

end Lexed

end TypedQuery.Sql
