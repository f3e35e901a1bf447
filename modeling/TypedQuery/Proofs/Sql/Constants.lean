import TypedQuery.Proofs.Outcome
import TypedQuery.Proofs.Sql.Shown

/-!
# Constants as phrases

A constant below zero is a sign in front of a number, so it holds together less
tightly than the others. What is quoted in the text of a date, a timestamp or a row
of bytes holds no quotes.
-/

namespace TypedQuery.Sql

/-! ## The phrase of a constant -/

namespace Phrase

def signed (negative : Bool) (digits : String) : Phrase :=
  if negative then negate (atom (.number digits)) else atom (.number digits)

theorem readable_signed (negative : Bool) (digits : String) :
    (signed negative digits).Readable := by
  cases negative with
  | false => exact readable_atom _
  | true => exact readable_negate.2 ⟨readable_atom _, Nat.le_refl 9⟩

theorem level_signed (negative : Bool) (digits : String) :
    (signed negative digits).level = if negative then 8 else 9 := by
  cases negative <;> rfl

end Phrase

/-- The text of a finite double without its sign. -/
def magnitude (x : Float) : String :=
  let v := Decimal.Dyadic.ofFloat x
  if v.mantissa = 0 then "0.0"
    else Decimal.Style.plain.renderScaled (v.shortest Decimal.Style.plain.tieUp)

/-- The sign bit of a double. -/
def signBit (x : Float) : Bool := 0x8000000000000000 ≤ x.toBits

def decimalPhrase (x : Float) : Phrase :=
  if x.isNaN then .cast (.atom (.text "NaN")) "double"
  else if x.isInf then
    .cast (.atom (.text (if x > 0.0 then "Infinity" else "-Infinity"))) "double"
  else .signed (signBit x) (magnitude x)

mutual

/-- What the text of a constant says. -/
def constant : Value → Except Error Phrase
  | .null => .ok (.atom .null)
  | .bool b => .ok (.atom (.truth b))
  | .int64 n => .ok (.signed (n.toInt < 0) (toString n.toInt.natAbs))
  | .float64 x => .ok (decimalPhrase x.toFloat)
  | .string s => .ok (.atom (.text s))
  | .binary bytes =>
    .ok (.call "unhex" (.chain [.atom (.text (String.join (bytes.map hexByte)))]))
  | .date days => (dateText days).map fun text => .atom (.date text)
  | .timestamp ticks unit => (timestampText ticks unit).map fun text =>
    .atom (.timestamp text)
  | .interval steps unit =>
    .ok (.atom (.interval (steps.toInt < 0) (toString steps.toInt.natAbs) unit.sqlName))
  | .array items => (constants items).map fun ps => .call "array" (.chain ps)

def constants : List Value → Except Error (List Phrase)
  | [] => .ok []
  | v :: rest => do
    let p ← constant v
    let ps ← constants rest
    .ok (p :: ps)

end

end TypedQuery.Sql

/-- The constant is written with a sign. -/
def TypedQuery.Value.isNegative : Value → Bool
  | .int64 n => n.toInt < 0
  | .float64 x => !x.isNaN && !x.isInfinite && Sql.signBit x.toFloat
  | _ => false

namespace TypedQuery.Sql

theorem decimalPhrase_level (x : Double) :
    (decimalPhrase x.toFloat).level = (if (Value.float64 x).isNegative then 8 else 9)
      ∧ (decimalPhrase x.toFloat).Readable := by
  have hnegative : (Value.float64 x).isNegative
      = (!x.toFloat.isNaN && !x.toFloat.isInf && signBit x.toFloat) := rfl
  rw [hnegative]
  unfold decimalPhrase
  cases x.toFloat.isNaN with
  | true => exact ⟨rfl, Phrase.readable_cast.2 ⟨Phrase.readable_atom _, (by decide : 2 ≤ 9)⟩⟩
  | false =>
      cases x.toFloat.isInf with
      | true =>
          exact ⟨rfl, Phrase.readable_cast.2 ⟨Phrase.readable_atom _, (by decide : 2 ≤ 9)⟩⟩
      | false => exact ⟨Phrase.level_signed _ _, Phrase.readable_signed _ _⟩

mutual

theorem constant_level {v : Value} {p : Phrase} (h : constant v = .ok p) :
    p.level = (if v.isNegative then 8 else 9) ∧ p.Readable := by
  cases v with
  | int64 n =>
      cases h
      exact ⟨Phrase.level_signed _ _, Phrase.readable_signed _ _⟩
  | float64 x =>
      cases h
      exact decimalPhrase_level x
  | null | bool | string | interval =>
      cases h
      exact ⟨rfl, Phrase.readable_atom _⟩
  | binary bytes =>
      cases h
      exact ⟨rfl, ⟨trivial, trivial⟩⟩
  | date | timestamp =>
      obtain ⟨text, -, rfl⟩ := map_eq_ok.1 h
      exact ⟨rfl, Phrase.readable_atom _⟩
  | array items =>
      obtain ⟨ps, hps, rfl⟩ := map_eq_ok.1 h
      have hitems := constants_level hps
      exact ⟨rfl, (Phrase.readable_chain fun p hp => (hitems p hp).1).2 fun p hp =>
        (hitems p hp).2⟩

theorem constants_level {vs : List Value} {ps : List Phrase} (h : constants vs = .ok ps) :
    ∀ p ∈ ps, 2 ≤ p.level ∧ p.Readable := by
  cases vs with
  | nil =>
      cases h
      exact fun _ hp => absurd hp List.not_mem_nil
  | cons v rest =>
      obtain ⟨p, hp, h⟩ := bind_eq_ok.1 h
      obtain ⟨qs, hqs, h⟩ := bind_eq_ok.1 h
      cases h
      obtain ⟨hlevel, hreadable⟩ := constant_level hp
      refine List.forall_mem_cons.2 ⟨⟨?_, hreadable⟩, constants_level hqs⟩
      rw [hlevel]
      split <;> decide

end

/-! ## Numerals -/

theorem isDigit_toDigits {n : Nat} : ∀ c ∈ Nat.toDigits 10 n, c.isDigit :=
  fun _ hc => Nat.isDigit_of_mem_toDigits (by decide) (by decide) hc

theorem ne_of_isDigit {c d : Char} (hc : c.isDigit) (hd : d.isDigit = false) : c ≠ d := by
  rintro rfl
  rw [hc] at hd
  cases hd

theorem notMem_digits {digits : List Char} (h : ∀ c ∈ digits, c.isDigit) {d : Char}
    (hd : d.isDigit = false) : d ∉ digits :=
  fun hmem => ne_of_isDigit (h d hmem) hd rfl

/-- Digits, and what numbers may go on with. -/
theorem isNumeral_append {digits more : List Char} (hne : digits ≠ [])
    (hdigits : ∀ c ∈ digits, c.isDigit) (hmore : ∀ chars, Mode.goesOn chars more) :
    IsNumeral (digits ++ more) := by
  obtain ⟨c, rest, rfl⟩ := List.exists_cons_of_ne_nil hne
  obtain ⟨hc, hrest⟩ := List.forall_mem_cons.1 hdigits
  exact ⟨c, rest ++ more, rfl, hc,
    by rw [Mode.goesOn_append, Mode.goesOn_digits hrest, hmore, Bool.and_self]⟩

theorem isNumeral_nat (n : Nat) : IsNumeral (toString n).toList := by
  rw [Nat.toString_eq_ofList_toDigits, String.toList_ofList,
    ← List.append_nil (Nat.toDigits 10 n)]
  exact isNumeral_append Nat.toDigits_ne_nil isDigit_toDigits fun _ => rfl

theorem toString_int (k : Int) : toString k = if k < 0 then "-" ++ toString k.natAbs
    else toString k.natAbs := by
  cases k with
  | ofNat n => rfl
  | negSucc n =>
      rw [if_pos (Int.negSucc_lt_zero n)]
      rfl

/-- A point and digits after it. -/
theorem goesOn_point {digits : List Char} (h : ∀ c ∈ digits, c.isDigit) (chars : List Char) :
    Mode.goesOn chars ('.' :: digits) := by
  simp [Mode.goesOn, Mode.continuesNumber, Mode.goesOn_digits h]

/-- An exponent may have a sign. -/
theorem goesOn_exponent (k : Int) (chars : List Char) :
    Mode.goesOn chars ('e' :: (toString k).toList) := by
  rw [toString_int]
  split <;> simp [Mode.goesOn, Mode.continuesNumber, Mode.goesOn_digits isDigit_toDigits]

theorem isDigit_zeros (n : Nat) : ∀ c ∈ List.replicate n '0', c.isDigit := by
  intro c hc
  rw [List.eq_of_mem_replicate hc]
  decide

/-- A number is written with a point among its digits, or with one digit in front of the
point, if there are more of them, and an exponent. -/
theorem renderScaled_cases (d : Decimal.Scaled) :
    (∃ whole fraction, whole ≠ [] ∧ (∀ c ∈ whole, c.isDigit) ∧ (∀ c ∈ fraction, c.isDigit)
      ∧ 0 ≤ d.exponent + fraction.length
      ∧ Nat.ofDigitChars 10 (whole ++ fraction) 0
        = d.digits * Nat.pow 10 (d.exponent + fraction.length).toNat
      ∧ (Decimal.Style.plain.renderScaled d).toList = whole ++ '.' :: fraction)
    ∨ ∃ c rest, c.isDigit ∧ (∀ c ∈ rest, c.isDigit)
      ∧ Nat.ofDigitChars 10 (c :: rest) 0 = d.digits
      ∧ (Decimal.Style.plain.renderScaled d).toList
        = c :: (if rest = [] then [] else '.' :: rest) ++ 'e'
          :: (toString (d.exponent + rest.length)).toList := by
  have hne : Nat.toDigits 10 d.digits ≠ [] := Nat.toDigits_ne_nil
  have hdigits : ∀ c ∈ Nat.toDigits 10 d.digits, c.isDigit := isDigit_toDigits
  have hvalue : Nat.ofDigitChars 10 (Nat.toDigits 10 d.digits) 0 = d.digits :=
    Nat.ofDigitChars_ten_toDigits
  unfold Decimal.Style.renderScaled
  generalize Nat.toDigits 10 d.digits = digits at hne hdigits hvalue ⊢
  simp only
  split
  · left
    split
    · refine ⟨['0'], List.replicate (-(digits.length + d.exponent)).toNat '0' ++ digits,
        by decide, List.forall_mem_singleton.2 rfl,
        List.forall_mem_append.2 ⟨isDigit_zeros _, hdigits⟩, ?_, ?_, ?_⟩
      · rw [List.length_append, List.length_replicate]
        omega
      · have hplaces : (d.exponent
            + ((-(digits.length + d.exponent)).toNat + digits.length : Nat)).toNat = 0 := by
          omega
        rw [List.length_append, List.length_replicate, Nat.ofDigitChars_append,
          Nat.ofDigitChars_append, Nat.ofDigitChars_replicate_zero, hplaces]
        simpa [Nat.ofDigitChars] using hvalue
      · simp [Decimal.Style.zeros]
    · split
      · refine ⟨digits ++ List.replicate d.exponent.toNat '0', ['0'], by simp [hne],
          List.forall_mem_append.2 ⟨hdigits, isDigit_zeros _⟩,
          List.forall_mem_singleton.2 rfl, ?_, ?_, ?_⟩
        · rw [List.length_singleton]
          omega
        · rw [Nat.ofDigitChars_append, Nat.ofDigitChars_append,
            Nat.ofDigitChars_replicate_zero, hvalue, List.length_singleton,
            show (d.exponent + (1 : Nat)).toNat = d.exponent.toNat + 1 by omega,
            Nat.pow_eq, Nat.pow_succ]
          rw [Nat.mul_comm d.digits, Nat.mul_comm _ 10, Nat.mul_assoc]
          simp [Nat.ofDigitChars]
        · simp [Decimal.Style.zeros]
      · next hpoint _ =>
          refine ⟨digits.take (digits.length + d.exponent).toNat,
            digits.drop (digits.length + d.exponent).toNat, ?_,
            fun c hc => hdigits c (List.mem_of_mem_take hc),
            fun c hc => hdigits c (List.mem_of_mem_drop hc), ?_, ?_, ?_⟩
          · rw [ne_eq, List.take_eq_nil_iff, not_or]
            exact ⟨by omega, hne⟩
          · rw [List.length_drop]
            omega
          · have hplaces : (d.exponent
                + (digits.length - (digits.length + d.exponent).toNat : Nat)).toNat = 0 := by
              omega
            rw [List.take_append_drop, hvalue, List.length_drop, hplaces, Nat.pow_eq,
              Nat.pow_zero, Nat.mul_one]
          · simp
  · right
    obtain ⟨c, rest, rfl⟩ := List.exists_cons_of_ne_nil hne
    obtain ⟨hc, hrest⟩ := List.forall_mem_cons.1 hdigits
    refine ⟨c, rest, hc, hrest, hvalue, ?_⟩
    have hmark : ∀ k : Int, (if k < 0 then "e" else "e" ++ Decimal.Style.plain.plus)
      = "e" := fun k => by split <;> rfl
    rw [hmark, List.length_cons, show ((rest.length + 1 : Nat) : Int) + d.exponent - 1
      = d.exponent + rest.length by omega]
    cases rest <;> simp

theorem isNumeral_renderScaled (d : Decimal.Scaled) :
    IsNumeral (Decimal.Style.plain.renderScaled d).toList := by
  rcases renderScaled_cases d with ⟨whole, fraction, hne, hwhole, hfraction, -, -, htext⟩
    | ⟨c, rest, hc, hrest, -, htext⟩
  · rw [htext]
    exact isNumeral_append hne hwhole (goesOn_point hfraction)
  · have hmore : ∀ chars, Mode.goesOn chars
        ((if rest = [] then [] else '.' :: rest) ++ 'e'
          :: (toString (d.exponent + rest.length)).toList) := fun chars => by
      split
      · exact goesOn_exponent _ chars
      · rw [Mode.goesOn_append, goesOn_point hrest, goesOn_exponent, Bool.and_self]
    have hnumeral :=
      isNumeral_append (List.cons_ne_nil c []) (List.forall_mem_singleton.2 hc) hmore
    rw [htext]
    exact hnumeral

/-! ## Quotes -/

/-- Without quotes in it, nothing is doubled. -/
theorem quotedText_eq {s : String} (h : '\'' ∉ s.toList) :
    quotedText s = "'" ++ s ++ "'" := by
  have hdoubled : ∀ content : List Char, '\'' ∉ content →
      doubled '\'' content = content := by
    intro content hcontent
    induction content with
    | nil => rfl
    | cons c rest ih =>
        obtain ⟨hc, hrest⟩ := not_or.1 fun hmem => hcontent (List.mem_cons.2 hmem)
        rw [doubled, if_neg (Ne.symm hc), ih hrest]
  rw [← String.toList_inj]
  simp [quotedText, quoted, hdoubled _ h]

theorem isDigit_padded (width n : Nat) : ∀ c ∈ (Time.padded width n).toList, c.isDigit := by
  rw [Time.padded, String.toList_ofList]
  exact List.forall_mem_append.2 ⟨isDigit_zeros _, isDigit_toDigits⟩

theorem notMem_padded {c : Char} (hc : c.isDigit = false) (width n : Nat) :
    c ∉ (Time.padded width n).toList :=
  notMem_digits (isDigit_padded width n) hc

/-- A date has nothing but digits and signs. -/
theorem notMem_writtenDate {c : Char} (hc : c.isDigit = false) (hplus : c ≠ '+')
    (hminus : c ≠ '-') (d : Calendar.Date) :
    c ∉ (Time.writtenDate d).toList := by
  have hyear : c ∉ (Time.writtenYear d.year).toList := by
    unfold Time.writtenYear
    split
    · exact notMem_padded hc _ _
    · split <;> simp [notMem_padded hc, hplus, hminus]
  simp [Time.writtenDate, hyear, notMem_padded hc, hminus]

theorem quote_notMem_writtenDate (d : Calendar.Date) : '\'' ∉ (Time.writtenDate d).toList :=
  notMem_writtenDate (by decide) (by decide) (by decide) d

theorem quote_notMem_writtenInstant (i : Instant) :
    '\'' ∉ (Time.writtenInstant " " i).toList := by
  have hpadded : ∀ width n, '\'' ∉ (Time.padded width n).toList := notMem_padded (by decide)
  have hfraction : '\'' ∉ (Time.writtenFraction i.nanosecond).toList := by
    unfold Time.writtenFraction
    split
    · decide
    · split
      · simp [hpadded]
      · split <;> simp [hpadded]
  simp [Time.writtenInstant, Time.writtenClock, quote_notMem_writtenDate, hpadded, hfraction]

theorem dateText_eq_ok {days : Int32} {text : String} : dateText days = .ok text
    ↔ (Instant.fitsInt32 (days.toInt + 719163) && Calendar.daysInRange days.toInt) = true
      ∧ text = Time.writtenDate (Calendar.Date.ofDays days.toInt) := by
  unfold dateText
  split
  · next hfits => rw [Except.ok.injEq, eq_comm, and_iff_right hfits]
  · next hfits => exact iff_of_false nofun fun h => hfits h.1

/-- A timestamp is written by the nanoseconds that it counts, whatever its unit. -/
theorem timestampText_eq_ok {ticks : Int64} {unit : TimeUnit} {text : String} :
    timestampText ticks unit = .ok text
    ↔ Instant.fitsInt64 (ticks.toInt * unit.nanos) = true
      ∧ text = Time.writtenInstant " " (Instant.ofNanos (ticks.toInt * unit.nanos)) := by
  unfold timestampText
  simp only
  split
  · next hfits => rw [Except.ok.injEq, eq_comm, and_iff_right hfits]
  · next hfits => exact iff_of_false nofun fun h => hfits h.1

theorem quote_notMem_dateText {days : Int32} {text : String}
    (h : dateText days = .ok text) : '\'' ∉ text.toList := by
  rw [(dateText_eq_ok.1 h).2]
  exact quote_notMem_writtenDate _

theorem quote_notMem_timestampText {ticks : Int64} {unit : TimeUnit} {text : String}
    (h : timestampText ticks unit = .ok text) :
    '\'' ∉ text.toList := by
  rw [(timestampText_eq_ok.1 h).2]
  exact quote_notMem_writtenInstant _

theorem quote_notMem_hex (bytes : List UInt8) :
    '\'' ∉ (String.join (bytes.map hexByte)).toList := by
  have hdigit : ∀ n < 16, (Nat.digitChar n).toUpper ≠ '\'' := by decide
  have hbyte : ∀ b : UInt8, '\'' ∉ (hexByte b).toList := by
    intro b
    have hhigh := hdigit (b.toNat / 16) (by have := b.toNat_lt; omega)
    have hlow := hdigit (b.toNat % 16) (Nat.mod_lt _ (by decide))
    simp [hexByte, hhigh.symm, hlow.symm]
  induction bytes with
  | nil => decide
  | cons b rest ih => simpa [String.join_cons, hbyte b] using ih

/-! ## The text of a constant -/

variable {quote : Char} {text : String}

theorem Shown.number (h : IsNumeral text.toList) :
    Shown quote text (.atom (.number text)) := by
  have hlexed : Lexed quote text.toList [.number (String.ofList text.toList)] True :=
    .numeral h
  rw [String.ofList_toList] at hlexed
  obtain ⟨c, rest, heq, hc, -⟩ := h
  refine .of_lexed hlexed (s := c) (by rw [heq]; rfl) ?_ id
  rintro rfl
  exact absurd hc (by decide)

theorem Shown.signed (h : IsNumeral text.toList) (negative : Bool) :
    Shown quote (if negative then "-" ++ text else text) (.signed negative text) := by
  cases negative with
  | false => exact .number h
  | true => exact (Shown.number h).negate

theorem Shown.integer (k : Int) :
    Shown quote (toString k) (.signed (k < 0) (toString k.natAbs)) := by
  have hsigned : Shown quote _ (.signed (k < 0) (toString k.natAbs)) :=
    .signed (isNumeral_nat k.natAbs) (k < 0)
  rw [toString_int k]
  simpa only [decide_eq_true_eq] using hsigned

theorem isNumeral_magnitude (x : Float) : IsNumeral (magnitude x).toList := by
  unfold magnitude
  simp only
  split
  · exact ⟨'0', ['.', '0'], rfl, by decide, by decide⟩
  · exact isNumeral_renderScaled _

theorem Shown.quotedText (s : String) : Shown quote (Sql.quotedText s) (.atom (.text s)) :=
  .of_lexed (.quotedText s) (s := '\'') (by simp [Sql.quotedText, quoted]) (by decide) id

/-- A word in front of a quoted text. -/
theorem Shown.moment {word : String} {k : Keyword} {a : Atom}
    (hfixed : Fixed word [.keyword k]) (ha : a.lexemes = [.keyword k, .text text])
    {s : Char} (hs : word.toList.head? = some s) (hne : s ≠ '-')
    (htext : '\'' ∉ text.toList) : Shown quote (word ++ "'" ++ text ++ "'") (.atom a) := by
  have hquoted : Lexed quote _ [.text text] True := .quotedText text
  have hlexed := Lexed.fixed hfixed hquoted
  have heq : word ++ "'" ++ text ++ "'" = word ++ Sql.quotedText text := by
    rw [quotedText_eq htext, String.append_assoc, String.append_assoc, String.append_assoc]
  rw [heq]
  refine .of_lexed (p := .atom a) ?_ (s := s) ?_ hne id
  · show Lexed quote _ a.lexemes True
    rw [ha]
    exact hlexed
  · rw [String.toList_append, List.head?_append, hs]
    rfl

theorem namesFunction_unhex : NamesFunction "unhex" :=
  ⟨⟨fun _ => rfl, rfl⟩, 'u', rfl, by decide⟩

theorem namesFunction_array : NamesFunction "array" :=
  ⟨⟨fun _ => rfl, rfl⟩, 'a', rfl, by decide⟩

theorem Shown.bytes (bytes : List UInt8) :
    Shown quote ("unhex('" ++ String.join (bytes.map hexByte) ++ "')")
    (.call "unhex" (.chain [.atom (.text (String.join (bytes.map hexByte)))])) := by
  have htext : "unhex('" ++ String.join (bytes.map hexByte) ++ "')"
      = Sql.call "unhex" [Sql.quotedText (String.join (bytes.map hexByte))] := by
    have hopening : "unhex('" = "unhex" ++ "(" ++ "'" := rfl
    have hclosing : "')" = "'" ++ ")" := rfl
    rw [quotedText_eq (quote_notMem_hex bytes), Sql.call, String.intercalate_singleton,
      hopening, hclosing]
    simp only [String.append_assoc]
  rw [htext]
  exact .call namesFunction_unhex (.cons (.quotedText _) .nil)

theorem lexemes_interval (negative : Bool) (steps unit : String) :
    (Atom.interval negative steps unit).lexemes
    = [.keyword .interval] ++ ((Phrase.signed negative steps).lexemes ++ [.word unit]) := by
  cases negative <;> rfl

/-- A sign in front of the count, if there is one, belongs to the constant. -/
theorem Shown.interval (steps : Int) (unit : IntervalUnit) :
    Shown quote ("INTERVAL " ++ toString steps ++ " " ++ unit.sqlName)
      (.atom (.interval (steps < 0) (toString steps.natAbs) unit.sqlName)) := by
  have hinterval : Fixed "INTERVAL " [.keyword .interval] := ⟨fun _ => rfl, rfl⟩
  have hunit : Lexed quote (" " ++ unit.sqlName).toList [.word unit.sqlName] True := by
    refine .single (m := .word unit.sqlName.toList) ?_ ?_ (Mode.ends_word _) ?_
      <;> cases unit <;> rfl
  have hsep : Separated (" " ++ unit.sqlName) :=
    ⟨' ', by decide, by rw [String.toList_append]; rfl⟩
  have hclean : (Phrase.signed (steps < 0) (toString steps.natAbs)).Clean :=
    (Phrase.readable_signed _ _).2
  have hlexed :=
    (Lexed.fixed hinterval ((Shown.integer steps).lexed.append hunit hsep)).congr
      (and_iff_left trivial)
  rw [String.append_assoc, String.append_assoc]
  refine .of_lexed (p := .atom _) (s := 'I') ?_ (by simp) (by decide) id
  show Lexed quote _ (Atom.interval _ _ _).lexemes True
  rw [lexemes_interval]
  exact hlexed.congr (iff_of_true hclean trivial)

theorem render_eq {x : Float} (hnan : ¬ x.isNaN) (hinf : ¬ x.isInf) :
    Decimal.Style.plain.render x = if signBit x then "-" ++ magnitude x
      else magnitude x := by
  simp only [Decimal.Style.render, signBit, magnitude, if_neg hnan, if_neg hinf,
    decide_eq_true_eq]
  split <;> split <;> simp

theorem Shown.decimal (x : Float) : Shown quote (floatLiteral x) (decimalPhrase x) := by
  unfold floatLiteral decimalPhrase
  have hcast :
      ∀ text content, Fixed text (Phrase.cast (.atom (.text content)) "double").lexemes →
      text.toList.head? = some 'C' →
          Shown quote text (.cast (.atom (.text content)) "double") :=
    fun _ _ hfixed hhead => .of_lexed (.of_fixed hfixed) hhead (by decide) id
  split
  · exact hcast _ _ ⟨fun _ => rfl, rfl⟩ rfl
  · next hnan =>
      split
      · split
        · exact hcast _ _ ⟨fun _ => rfl, rfl⟩ rfl
        · exact hcast _ _ ⟨fun _ => rfl, rfl⟩ rfl
      · next hinf =>
          rw [render_eq hnan hinf]
          exact .signed (isNumeral_magnitude x) _

mutual

theorem constant_shown {v : Value} {text : String} (h : literal v = .ok text) :
    ∃ p, constant v = .ok p ∧ Shown quote text p := by
  cases v with
  | null =>
      cases h
      exact ⟨_, rfl,
        .of_lexed (.single (m := .word "NULL".toList) rfl rfl (Mode.ends_word _) rfl)
        (s := 'N') rfl (by decide) id⟩
  | bool b =>
      cases h
      refine ⟨_, rfl, ?_⟩
      cases b with
      | false =>
          exact .of_lexed
            (.single (m := .word "FALSE".toList) rfl rfl (Mode.ends_word _) rfl)
            (s := 'F') rfl (by decide) id
      | true =>
          exact .of_lexed
            (.single (m := .word "TRUE".toList) rfl rfl (Mode.ends_word _) rfl)
            (s := 'T') rfl (by decide) id
  | int64 n =>
      cases h
      exact ⟨_, rfl, .integer n.toInt⟩
  | float64 x =>
      cases h
      exact ⟨_, rfl, .decimal x.toFloat⟩
  | string s =>
      cases h
      exact ⟨_, rfl, .quotedText s⟩
  | binary bytes =>
      cases h
      exact ⟨_, rfl, .bytes bytes⟩
  | date days =>
      obtain ⟨content, hcontent, rfl⟩ := map_eq_ok.1 h
      have hdate : Fixed "DATE " [.keyword .date] := ⟨fun _ => rfl, rfl⟩
      refine ⟨.atom (.date content), by rw [constant, hcontent]; rfl, ?_⟩
      exact .moment hdate rfl (s := 'D') rfl (by decide) (quote_notMem_dateText hcontent)
  | timestamp ticks unit =>
      obtain ⟨content, hcontent, rfl⟩ := map_eq_ok.1 h
      have htimestamp : Fixed "TIMESTAMP " [.keyword .timestamp] := ⟨fun _ => rfl, rfl⟩
      refine ⟨.atom (.timestamp content), by rw [constant, hcontent]; rfl, ?_⟩
      exact .moment htimestamp rfl (s := 'T') rfl (by decide)
        (quote_notMem_timestampText hcontent)
  | interval steps unit =>
      cases h
      exact ⟨_, rfl, .interval steps.toInt unit⟩
  | array items =>
      obtain ⟨texts, htexts, rfl⟩ := map_eq_ok.1 h
      obtain ⟨ps, hps, hshown⟩ := constants_shown htexts
      exact ⟨.call "array" (.chain ps), by rw [constant, hps]; rfl,
        .call namesFunction_array hshown⟩

theorem constants_shown {vs : List Value} {texts : List String}
    (h : literals vs = .ok texts) :
    ∃ ps, constants vs = .ok ps ∧ List.Forall₂ (Shown quote) texts ps := by
  cases vs with
  | nil =>
      cases h
      exact ⟨[], rfl, .nil⟩
  | cons v rest =>
      obtain ⟨text, htext, h⟩ := bind_eq_ok.1 h
      obtain ⟨more, hmore, h⟩ := bind_eq_ok.1 h
      cases h
      obtain ⟨p, hp, hshown⟩ := constant_shown htext
      obtain ⟨ps, hps, hrest⟩ := constants_shown hmore
      exact ⟨p :: ps, by rw [constants, hp, hps]; rfl, .cons hshown hrest⟩

end

end TypedQuery.Sql
