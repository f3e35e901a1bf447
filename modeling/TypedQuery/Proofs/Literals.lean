import TypedQuery.Proofs.Binary64.Whole
import TypedQuery.Proofs.Sql.Digits

/-!
# What literals say

A quoted text or name is read from its opening quote on: two quotes are one of its
characters, and the first quote that stands alone ends it (`readQuoted?`). Whatever the
text holds, it is read back as a whole, and what follows it is left over as long as that
does not go on with a quote.

The text of a constant says which value it is of. It shows a phrase, and no other one, so
that what is left to see is that constants with one phrase are of one value
(`alike_of_constant`): the phrase tells the kind of the value, and within a kind its
digits, its characters or its items do.
-/

namespace TypedQuery

/-! ## Values -/

namespace Value

mutual

/-- The values are equal but for the payloads of what is no number and for the units that
instants are counted in. -/
inductive Alike : Value → Value → Prop
  | same (v : Value) : Alike v v
  | nan {x y : Double} (hx : x.isNaN) (hy : y.isNaN) : Alike (float64 x) (float64 y)
  | instant {m n : Int64} {u v : TimeUnit} (h : m.toInt * u.nanos = n.toInt * v.nanos) :
    Alike (timestamp m u) (timestamp n v)
  | array {as bs : List Value} (h : AllAlike as bs) : Alike (array as) (array bs)

inductive AllAlike : List Value → List Value → Prop
  | nil : AllAlike [] []
  | cons {a b : Value} {as bs : List Value} (h : Alike a b) (hrest : AllAlike as bs) :
    AllAlike (a :: as) (b :: bs)

end

end Value

namespace Sql

/-! ## Quotes -/

/-- What stands in front of the first quote that is not doubled, with two quotes as one
character, and what follows it. -/
def readContent? (quote : Char) : List Char → Option (List Char × List Char)
  | [] => none
  | [c] => if c = quote then some ([], []) else none
  | c :: d :: rest =>
    if c ≠ quote then
      (readContent? quote (d :: rest)).map fun (content, rest) => (c :: content, rest)
    else if d = quote then
      (readContent? quote rest).map fun (content, rest) => (quote :: content, rest)
    else some ([], d :: rest)

/-- Reads a quoted text, from its opening quote on. -/
def readQuoted? (quote : Char) : List Char → Option (String × List Char)
  | [] => none
  | c :: rest =>
    if c = quote then (readContent? quote rest).map fun (content, rest) =>
      (String.ofList content, rest) else none

variable {quote c : Char} {text content rest : List Char}

theorem readContent?_cons (hc : c ≠ quote) (text : List Char) :
    readContent? quote (c :: text) = (readContent? quote text).map fun (content, rest) =>
      (c :: content, rest) := by
  cases text with
  | nil => simp [readContent?, hc]
  | cons d rest => rw [readContent?, if_pos hc]

theorem readContent?_quotes (rest : List Char) : readContent? quote (quote :: quote :: rest)
    = (readContent? quote rest).map fun (content, rest) => (quote :: content, rest) := by
  rw [readContent?, if_neg (not_not_intro rfl), if_pos rfl]

theorem readContent?_closing (hrest : rest.head? ≠ some quote) :
    readContent? quote (quote :: rest) = some ([], rest) := by
  cases rest with
  | nil => rw [readContent?, if_pos rfl]
  | cons d rest =>
      rw [readContent?, if_neg (not_not_intro rfl),
        if_neg fun hd => hrest (congrArg some hd)]

theorem readContent?_doubled (content : List Char) (hrest : rest.head? ≠ some quote) :
    readContent? quote (doubled quote content ++ quote :: rest) = some (content, rest) := by
  induction content with
  | nil => exact readContent?_closing hrest
  | cons c content ih =>
      rw [doubled]
      split
      · next hc =>
          subst hc
          rw [List.cons_append, List.cons_append, readContent?_quotes, ih]
          rfl
      · next hc =>
          rw [List.cons_append, readContent?_cons hc, ih]
          rfl

theorem eq_of_readContent? (h : readContent? quote text = some (content, rest)) :
    text = doubled quote content ++ quote :: rest ∧ rest.head? ≠ some quote := by
  fun_induction readContent? quote text generalizing content with
  | case1 => cases h
  | case2 =>
      cases h
      exact ⟨rfl, nofun⟩
  | case3 => cases h
  | case4 c d more hc ih =>
      obtain ⟨⟨found, left⟩, hfound, heq⟩ := Option.map_eq_some_iff.1 h
      cases heq
      obtain ⟨htext, hrest⟩ := ih hfound
      rw [htext, doubled, if_neg hc]
      exact ⟨rfl, hrest⟩
  | case5 c more hc ih =>
      obtain ⟨⟨found, left⟩, hfound, heq⟩ := Option.map_eq_some_iff.1 h
      cases heq
      obtain ⟨htext, hrest⟩ := ih hfound
      rw [htext, doubled, if_pos rfl, not_not.1 hc]
      exact ⟨rfl, hrest⟩
  | case6 c d more hc hd =>
      cases h
      rw [not_not.1 hc]
      exact ⟨rfl, fun hhead => hd (Option.some.inj hhead)⟩

theorem readQuoted?_eq_some_iff {s : String} :
    readQuoted? quote text = some (s, rest)
      ↔ text = (quoted quote s).toList ++ rest ∧ rest.head? ≠ some quote := by
  have hquoted : (quoted quote s).toList ++ rest
      = quote :: (doubled quote s.toList ++ quote :: rest) := by
    simp [quoted]
  rw [hquoted]
  constructor
  · intro h
    unfold readQuoted? at h
    split at h
    · cases h
    · split at h
      · next hc =>
          obtain ⟨⟨found, left⟩, hfound, heq⟩ := Option.map_eq_some_iff.1 h
          cases heq
          obtain ⟨htext, hrest⟩ := eq_of_readContent? hfound
          rw [htext, hc, String.toList_ofList]
          exact ⟨rfl, hrest⟩
      · cases h
  · rintro ⟨rfl, hrest⟩
    rw [readQuoted?, if_pos rfl, readContent?_doubled _ hrest, Option.map_some]
    exact congrArg (fun s => some (s, rest)) String.ofList_toList

/-- A quoted name or text is read back, whatever follows it that does not begin with the
quote. -/
theorem quotes_read_back (s : Statement) (name content : String) (rest : List Char) :
    (∀ text, readQuoted? s.config.identifierQuote text = some (name, rest)
        ↔ text = (s.quote name).toList ++ rest ∧ rest.head? ≠ some s.config.identifierQuote)
      ∧ ∃ literalText, literal (.string content) = .ok literalText
        ∧ ∀ text, readQuoted? '\'' text = some (content, rest)
          ↔ text = literalText.toList ++ rest ∧ rest.head? ≠ some '\'' :=
  ⟨fun _ => readQuoted?_eq_some_iff, quotedText content, rfl,
    fun _ => readQuoted?_eq_some_iff⟩

example : readQuoted? '\'' "'it''s' = x".toList = some ("it's", " = x".toList) := rfl

/-! ## Phrases of constants -/

/-- The kind of value that a phrase is the constant of; of numbers, those are whole that
have nothing but digits. -/
def Phrase.constantKind : Phrase → String
  | .atom .null => "Null"
  | .atom (.truth _) => "Bool"
  | .atom (.number digits) | .negate (.atom (.number digits)) =>
    if digits.toList.all Char.isDigit then "Int64" else "Float64"
  | .cast _ _ => "Float64"
  | .atom (.text _) => "String"
  | .call function _ => if function = "unhex" then "Binary" else "Array"
  | .atom (.date _) => "Date"
  | .atom (.timestamp _) => "Timestamp"
  | .atom (.interval ..) => "Interval"
  | _ => ""

theorem constantKind_signed (negative : Bool) (digits : String) :
    (Phrase.signed negative digits).constantKind = if digits.toList.all Char.isDigit then
      "Int64" else "Float64" := by
  cases negative <;> rfl

theorem signed_injective {a b : Bool} {digits more : String}
    (h : Phrase.signed a digits = .signed b more) :
    a = b ∧ digits = more := by
  cases a <;> cases b <;> cases h <;> exact ⟨rfl, rfl⟩

/-- A double has a point or an exponent in its text. -/
theorem not_all_digits_magnitude (x : Float) :
    (magnitude x).toList.all Char.isDigit = false := by
  rw [List.all_eq_false]
  unfold magnitude
  simp only
  split
  · exact ⟨'.', by decide, by decide⟩
  · generalize (Decimal.Dyadic.ofFloat x).shortest Decimal.Style.plain.tieUp = d
    rcases renderScaled_cases d with ⟨whole, fraction, -, -, -, -, -, htext⟩
      | ⟨c, rest, -, -, -, htext⟩
    · exact ⟨'.', by simp [htext], by decide⟩
    · exact ⟨'e', by simp [htext], by decide⟩

theorem constantKind_eq {v : Value} {p : Phrase} (h : constant v = .ok p) :
    p.constantKind = v.kindName := by
  cases v with
  | null | bool | string | binary | interval =>
      cases h
      rfl
  | int64 n =>
      cases h
      rw [constantKind_signed, Nat.toString_eq_ofList_toDigits, String.toList_ofList,
        if_pos (List.all_eq_true.2 isDigit_toDigits)]
      rfl
  | float64 x =>
      cases h
      unfold decimalPhrase
      split_ifs
      · rfl
      · rfl
      · rfl
      · rw [constantKind_signed, not_all_digits_magnitude]
        rfl
  | date | timestamp =>
      obtain ⟨text, -, rfl⟩ := map_eq_ok.1 h
      rfl
  | array items =>
      obtain ⟨ps, -, rfl⟩ := map_eq_ok.1 h
      rfl

/-- What stands between the commas of a list. -/
def Phrase.items : Phrase → List Phrase
  | .nothing => []
  | .binary .comma left right => left.items ++ [right]
  | p => [p]

theorem items_chain {ps : List Phrase} (h : ∀ p ∈ ps, 2 ≤ p.level) :
    (Phrase.chain ps).items = ps := by
  have hfold : ∀ (rest : List Phrase) (p : Phrase),
      (rest.foldl (.binary .comma) p).items = p.items ++ rest := by
    intro rest
    induction rest with
    | nil => exact fun p => (List.append_nil _).symm
    | cons q rest ih =>
        intro p
        rw [List.foldl_cons, ih, Phrase.items, List.append_assoc, List.singleton_append]
  cases ps with
  | nil => rfl
  | cons p rest =>
      have hitem : p.items = [p] := by
        have hlevel := h p List.mem_cons_self
        unfold Phrase.items
        split
        · exact absurd hlevel (show ¬ 2 ≤ 0 by decide)
        · exact absurd hlevel (show ¬ 2 ≤ 1 by decide)
        · rfl
      rw [Phrase.chain, hfold, hitem, List.singleton_append]

theorem hexByte_injective {a b : UInt8} (h : hexByte a = hexByte b) : a = b := by
  have hdigit : ∀ m < 16, ∀ n < 16, (Nat.digitChar m).toUpper = (Nat.digitChar n).toUpper →
    m = n := by decide
  have ha := a.toNat_lt
  have hb := b.toNat_lt
  rw [hexByte, hexByte, String.ofList_inj] at h
  simp only [List.cons.injEq, and_true] at h
  have hhigh := hdigit _ (by omega) _ (by omega) h.1
  have hlow := hdigit _ (Nat.mod_lt _ (by decide)) _ (Nat.mod_lt _ (by decide)) h.2
  exact UInt8.toNat_inj.1 (by omega)

theorem join_hexByte_injective {as bs : List UInt8}
    (h : String.join (as.map hexByte) = String.join (bs.map hexByte)) :
    as = bs := by
  have hlength : ∀ b, (hexByte b).toList.length = 2 := fun b => by simp [hexByte]
  have hnonempty : ∀ b (rest : List UInt8),
      String.join ((b :: rest).map hexByte) ≠ String.join ([].map hexByte) :=
    fun b rest hempty => by
      have hnone := congrArg (·.toList.length) hempty
      rw [List.map_cons, String.join_cons, String.toList_append, List.length_append,
        hlength] at hnone
      exact absurd hnone (by simp)
  induction as generalizing bs with
  | nil =>
      cases bs with
      | nil => rfl
      | cons b bs => exact absurd h.symm (hnonempty b bs)
  | cons a as ih =>
      cases bs with
      | nil => exact absurd h (hnonempty a as)
      | cons b bs =>
          rw [List.map_cons, List.map_cons, String.join_cons, String.join_cons,
            ← String.toList_inj, String.toList_append, String.toList_append] at h
          obtain ⟨hbyte, hrest⟩ := List.append_inj h (by rw [hlength, hlength])
          rw [hexByte_injective (String.toList_inj.1 hbyte), ih (String.toList_inj.1 hrest)]

/-! ## Doubles -/

theorem decimalPhrase_cases (x : Float) :
    x.isNaN ∧ decimalPhrase x = .cast (.atom (.text "NaN")) "double"
    ∨ x = Binary64.infinity ∧ decimalPhrase x = .cast (.atom (.text "Infinity")) "double"
    ∨ x = -Binary64.infinity ∧ decimalPhrase x = .cast (.atom (.text "-Infinity")) "double"
    ∨ decimalPhrase x = .signed (signBit x) (magnitude x) := by
  by_cases hnan : x.isNaN
  · exact .inl ⟨hnan, by rw [decimalPhrase, if_pos hnan]⟩
  · by_cases hinf : x.isInf
    · rcases Binary64.eq_infinity_of_isInf hinf with rfl | rfl
      · exact .inr (.inl ⟨rfl, rfl⟩)
      · exact .inr (.inr (.inl ⟨rfl, rfl⟩))
    · exact .inr (.inr (.inr (by rw [decimalPhrase, if_neg hnan, if_neg hinf])))

theorem eq_of_parts {x y : Float} (hsign : signBit x = signBit y)
    (h : magnitude x = magnitude y) : x = y :=
  Binary64.toBits_inj.1 (Decimal.Dyadic.toBits_eq_of_ofFloat (magnitude_injective h)
    (decide_eq_decide.1 hsign))

/-- Doubles that are one number are alike, because only what is no number loses
bits on the way to it. -/
theorem alike_of_toFloat_eq {x y : Double} (h : x.toFloat = y.toFloat) :
    (Value.float64 x).Alike (.float64 y) := by
  have hnan : x.isNaN = y.isNaN := congrArg Float.isNaN h
  cases hx : x.isNaN with
  | true => exact .nan hx (hnan.symm.trans hx)
  | false =>
      have hbits : x.bits = y.bits := by
        rw [← Binary64.toBits_toFloat hx, ← Binary64.toBits_toFloat (hnan.symm.trans hx), h]
      obtain ⟨bits⟩ := x
      obtain rfl : bits = y.bits := hbits
      exact .same _

theorem alike_of_decimalPhrase {x y : Double}
    (h : decimalPhrase x.toFloat = decimalPhrase y.toFloat) :
    (Value.float64 x).Alike (.float64 y) := by
  have hsigned : ∀ (negative : Bool) (digits type : String) (p : Phrase),
      Phrase.signed negative digits ≠ .cast p type :=
    fun negative _ _ _ => by cases negative <;> nofun
  rcases decimalPhrase_cases x.toFloat with ⟨hx, hp⟩ | ⟨hx, hp⟩ | ⟨hx, hp⟩ | hp
    <;> rcases decimalPhrase_cases y.toFloat with ⟨hy, hq⟩ | ⟨hy, hq⟩ | ⟨hy, hq⟩ | hq
    <;> rw [hp, hq] at h
  case inl.inl => exact .nan hx hy
  case inr.inl.inr.inl | inr.inr.inl.inr.inr.inl =>
    exact alike_of_toFloat_eq (hx.trans hy.symm)
  case inr.inr.inr.inr.inr.inr =>
    obtain ⟨hsign, hmagnitude⟩ := signed_injective h
    exact alike_of_toFloat_eq (eq_of_parts hsign hmagnitude)
  all_goals first
    | exact absurd h (hsigned _ _ _ _)
    | exact absurd h.symm (hsigned _ _ _ _)
    | exact absurd h (by simp)

/-! ## Literals -/

theorem integer_injective {m n : Int64} (hsign : decide (m.toInt < 0) = decide (n.toInt < 0))
    (habs : toString m.toInt.natAbs = toString n.toInt.natAbs) : m = n := by
  have hnat := toString_int_injective (j := m.toInt.natAbs) (k := n.toInt.natAbs) habs
  rw [decide_eq_decide] at hsign
  exact Int64.toInt_inj.1 (by omega)

theorem dateText_injective {m n : Int32} {text : String} (hm : dateText m = .ok text)
    (hn : dateText n = .ok text) : m = n :=
  Int32.toInt_inj.1 (writtenDate_ofDays_injective
    ((dateText_eq_ok.1 hm).2.symm.trans (dateText_eq_ok.1 hn).2))

theorem timestampText_injective {m n : Int64} {u v : TimeUnit} {text : String}
    (hm : timestampText m u = .ok text) (hn : timestampText n v = .ok text) :
    m.toInt * u.nanos = n.toInt * v.nanos :=
  writtenInstant_ofNanos_injective ((timestampText_eq_ok.1 hm).2.symm.trans
    (timestampText_eq_ok.1 hn).2)

theorem sqlName_injective {u v : IntervalUnit} (h : u.sqlName = v.sqlName) : u = v := by
  cases u <;> cases v <;> first | rfl | exact absurd h (by decide)

theorem exists_of_constants_cons {v : Value} {rest : List Value} {ps : List Phrase}
    (h : constants (v :: rest) = .ok ps) :
    ∃ p qs, constant v = .ok p ∧ constants rest = .ok qs ∧ ps = p :: qs := by
  obtain ⟨p, hp, h⟩ := bind_eq_ok.1 h
  obtain ⟨qs, hqs, h⟩ := bind_eq_ok.1 h
  exact ⟨p, qs, hp, hqs, (Except.ok.inj h).symm⟩

mutual

/-- Constants that show one phrase are of one value. -/
theorem alike_of_constant {a b : Value} {p : Phrase} (ha : constant a = .ok p)
    (hb : constant b = .ok p) : a.Alike b := by
  have hkind : a.kindName = b.kindName :=
    (constantKind_eq ha).symm.trans (constantKind_eq hb)
  cases a <;> cases b
  case null.null => exact .same _
  case bool.bool =>
    cases ha
    cases hb
    exact .same _
  case int64.int64 m n =>
    obtain ⟨hsign, habs⟩ := signed_injective (Except.ok.inj (ha.trans hb.symm))
    rw [integer_injective hsign habs]
    exact .same _
  case float64.float64 x y => exact alike_of_decimalPhrase (Except.ok.inj (ha.trans hb.symm))
  case string.string =>
    cases ha
    cases hb
    exact .same _
  case binary.binary as bs =>
    have h := Except.ok.inj (ha.trans hb.symm)
    injection h with _ hlist
    injection hlist with htext
    injection htext with hcontent
    rw [join_hexByte_injective hcontent]
    exact .same _
  case date.date m n =>
    obtain ⟨text, hm, rfl⟩ := map_eq_ok.1 ha
    obtain ⟨more, hn, heq⟩ := map_eq_ok.1 hb
    cases heq
    rw [dateText_injective hm hn]
    exact .same _
  case timestamp.timestamp m u n v =>
    obtain ⟨text, hm, rfl⟩ := map_eq_ok.1 ha
    obtain ⟨more, hn, heq⟩ := map_eq_ok.1 hb
    cases heq
    exact .instant (timestampText_injective hm hn)
  case interval.interval m u n v =>
    have h := Except.ok.inj (ha.trans hb.symm)
    simp only [Phrase.atom.injEq, Atom.interval.injEq] at h
    obtain ⟨hsign, habs, hunit⟩ := h
    rw [integer_injective hsign habs, sqlName_injective hunit]
    exact .same _
  case array.array as bs =>
    obtain ⟨ps, hps, rfl⟩ := map_eq_ok.1 ha
    obtain ⟨qs, hqs, heq⟩ := map_eq_ok.1 hb
    have hlists := congrArg Phrase.items (Phrase.call.inj heq).2
    rw [items_chain fun p hp => (constants_level hqs p hp).1,
      items_chain fun p hp => (constants_level hps p hp).1] at hlists
    exact .array (allAlike_of_constants hps (hlists ▸ hqs))
  all_goals exact absurd hkind (by simp [Value.kindName])

theorem allAlike_of_constants {as bs : List Value} {ps : List Phrase}
    (ha : constants as = .ok ps) (hb : constants bs = .ok ps) : Value.AllAlike as bs := by
  cases as with
  | nil =>
      cases ha
      cases bs with
      | nil => exact .nil
      | cons b bs =>
          obtain ⟨q, qs, -, -, hnil⟩ := exists_of_constants_cons hb
          cases hnil
  | cons a as =>
      obtain ⟨p, qs, hp, hqs, rfl⟩ := exists_of_constants_cons ha
      cases bs with
      | nil => cases hb
      | cons b bs =>
          obtain ⟨q, rs, hq, hrs, heq⟩ := exists_of_constants_cons hb
          cases heq
          exact .cons (alike_of_constant hp hq) (allAlike_of_constants hqs hrs)

end

/-- Values with one text are of one value. -/
theorem alike_of_literal {a b : Value} {text : String} (ha : literal a = .ok text)
    (hb : literal b = .ok text) : a.Alike b := by
  have hread : ∀ {v : Value}, literal v = .ok text →
      ∃ p, constant v = .ok p ∧ Phrase.read? '"' text = some p := fun hv => by
    obtain ⟨p, hp, hshown⟩ := constant_shown hv
    obtain ⟨hlevel, hreadable⟩ := constant_level hp
    exact ⟨p, hp, (hshown.read?_eq_some_iff (by rw [hlevel]; split <;> decide)).2 hreadable⟩
  obtain ⟨p, hp, hpread⟩ := hread ha
  obtain ⟨q, hq, hqread⟩ := hread hb
  rw [hpread] at hqread
  cases hqread
  exact alike_of_constant hp hq

mutual

theorem literal_of_alike {a b : Value} {text : String} (h : a.Alike b)
    (ha : literal a = .ok text) : literal b = .ok text := by
  cases h with
  | same => exact ha
  | nan hx hy =>
      have hliteral {z : Double} (hz : z.isNaN) : literal (.float64 z)
          = .ok "CAST('NaN' AS double)" :=
        congrArg Except.ok (if_pos hz)
      rw [hliteral hy, ← ha, hliteral hx]
  | instant h =>
      obtain ⟨content, hcontent, rfl⟩ := map_eq_ok.1 ha
      rw [timestampText_eq_ok, h, ← timestampText_eq_ok] at hcontent
      exact map_eq_ok.2 ⟨content, hcontent, rfl⟩
  | array h =>
      obtain ⟨texts, htexts, rfl⟩ := map_eq_ok.1 ha
      exact map_eq_ok.2 ⟨texts, literals_of_allAlike h htexts, rfl⟩

theorem literals_of_allAlike {as bs : List Value} {texts : List String}
    (h : Value.AllAlike as bs) (ha : literals as = .ok texts) : literals bs = .ok texts := by
  cases h with
  | nil => exact ha
  | cons h hrest =>
      obtain ⟨text, htext, ha⟩ := bind_eq_ok.1 ha
      obtain ⟨more, hmore, ha⟩ := bind_eq_ok.1 ha
      rw [literals, literal_of_alike h htext, literals_of_allAlike hrest hmore]
      exact ha

end

/-- A literal has the text of another one exactly if it is of the same value. -/
theorem literals_unambiguous {a : Value} {text : String}
    (ha : literal a = .ok text) (b : Value) :
    literal b = .ok text ↔ a.Alike b :=
  ⟨alike_of_literal ha, fun h => literal_of_alike h ha⟩

/-- Brackets, commas and quotes in a text, and a second that is counted in milliseconds. -/
theorem literals_unambiguous_of_a_nested_array :
    literal (.array [.array [.string "1), array('2"], .timestamp 1 .second])
        = .ok "array(array('1), array(''2'), TIMESTAMP '1970-01-01 00:00:01')"
      ∧ (literal (.array [.array [.string "1), array('2"], .timestamp 1000 .millisecond])
          = .ok "array(array('1), array(''2'), TIMESTAMP '1970-01-01 00:00:01')"
        ↔ (Value.array [.array [.string "1), array('2"], .timestamp 1 .second]).Alike
          (.array [.array [.string "1), array('2"], .timestamp 1000 .millisecond])) :=
  ⟨rfl, literals_unambiguous rfl _⟩

end Sql

end TypedQuery
