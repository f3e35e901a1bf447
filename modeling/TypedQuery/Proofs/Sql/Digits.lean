import TypedQuery.Proofs.Decimal.Shortest
import TypedQuery.Proofs.Sql.Constants
import TypedQuery.Proofs.Time.Periods

/-!
# What written digits say

The text of a constant is read back: digits with a point and an exponent as a number
(`numeralValue`), which settles a double because no number rounds to two, and the parts of
a date and of a time of day from the places where they stand. So texts of different
doubles, days and instants are different.
-/

namespace TypedQuery.Sql

/-! ## Numbers -/

/-- The number that digits say, which may have a sign in front of them. -/
def signedValue : List Char → ℤ
  | '-' :: digits => -Nat.ofDigitChars 10 digits 0
  | '+' :: digits => Nat.ofDigitChars 10 digits 0
  | digits => Nat.ofDigitChars 10 digits 0

/-- The same for digits with a point among them. -/
def pointValue (text : List Char) : ℚ :=
  let whole := text.takeWhile (· ≠ '.')
  let fraction := (text.dropWhile (· ≠ '.')).drop 1
  Nat.ofDigitChars 10 (whole ++ fraction) 0 / 10 ^ fraction.length

/-- The same with an exponent behind them. -/
def numeralValue (text : List Char) : ℚ :=
  pointValue (text.takeWhile (· ≠ 'e'))
    * 10 ^ signedValue ((text.dropWhile (· ≠ 'e')).drop 1)

variable {digits whole fraction text : List Char}

/-- A text up to a character that is not in it. -/
theorem splitAt_notMem {c : Char} (h : c ∉ text) :
    text.takeWhile (· ≠ c) = text ∧ text.dropWhile (· ≠ c) = []
      ∧ ∀ rest, (text ++ c :: rest).takeWhile (· ≠ c) = text
        ∧ (text ++ c :: rest).dropWhile (· ≠ c) = c :: rest := by
  have hne : ∀ d ∈ text, decide (d ≠ c) = true :=
    fun d hd => decide_eq_true (ne_of_mem_of_not_mem hd h)
  refine ⟨List.takeWhile_eq_self_iff.2 hne, List.dropWhile_eq_nil_iff.2 hne, fun rest => ?_⟩
  rw [List.takeWhile_append_of_pos hne, List.dropWhile_append_of_pos hne]
  simp

theorem append_separator_inj {c : Char} {a b rest more : List Char} (ha : c ∉ a) (hb : c ∉ b)
    (h : a ++ c :: rest = b ++ c :: more) : a = b ∧ rest = more := by
  obtain ⟨-, -, ha⟩ := splitAt_notMem ha
  obtain ⟨-, -, hb⟩ := splitAt_notMem hb
  have hfirst := congrArg (List.takeWhile (· ≠ c)) h
  rw [(ha rest).1, (hb more).1] at hfirst
  rw [hfirst, List.append_cancel_left_eq] at h
  exact ⟨hfirst, List.cons_injective h⟩

theorem signedValue_digits (h : ∀ c ∈ digits, c.isDigit) :
    signedValue digits = Nat.ofDigitChars 10 digits 0 := by
  unfold signedValue
  split
  · exact absurd (h '-' List.mem_cons_self) (by decide)
  · exact absurd (h '+' List.mem_cons_self) (by decide)
  · rfl

theorem signedValue_toString (k : ℤ) : signedValue (toString k).toList = k := by
  have hnat : ∀ n : Nat, (toString n).toList = Nat.toDigits 10 n := fun n => by
    rw [Nat.toString_eq_ofList_toDigits, String.toList_ofList]
  rw [toString_int]
  split
  · next hneg =>
      rw [String.toList_append, hnat]
      show -((Nat.ofDigitChars 10 (Nat.toDigits 10 k.natAbs) 0 : Nat) : ℤ) = k
      rw [Nat.ofDigitChars_ten_toDigits]
      omega
  · next hpos =>
      rw [hnat, signedValue_digits isDigit_toDigits, Nat.ofDigitChars_ten_toDigits]
      omega

theorem toString_int_injective {j k : ℤ} (h : toString j = toString k) : j = k := by
  rw [← signedValue_toString j, h, signedValue_toString]

theorem pointValue_digits (h : ∀ c ∈ digits, c.isDigit) :
    pointValue digits = Nat.ofDigitChars 10 digits 0 := by
  obtain ⟨htake, hdrop, -⟩ := splitAt_notMem (notMem_digits h (d := '.') rfl)
  rw [pointValue, htake, hdrop]
  simp

theorem pointValue_point (h : ∀ c ∈ whole, c.isDigit) :
    pointValue (whole ++ '.' :: fraction)
      = Nat.ofDigitChars 10 (whole ++ fraction) 0 / 10 ^ fraction.length := by
  obtain ⟨-, -, hsplit⟩ := splitAt_notMem (notMem_digits h (d := '.') rfl)
  rw [pointValue, (hsplit fraction).1, (hsplit fraction).2]
  rfl

theorem numeralValue_point (h : 'e' ∉ text) : numeralValue text = pointValue text := by
  obtain ⟨htake, hdrop, -⟩ := splitAt_notMem h
  rw [numeralValue, htake, hdrop]
  simp [signedValue]

theorem numeralValue_exponent (h : 'e' ∉ text) (k : ℤ) :
    numeralValue (text ++ 'e' :: (toString k).toList) = pointValue text * 10 ^ k := by
  obtain ⟨-, -, hsplit⟩ := splitAt_notMem h
  rw [numeralValue, (hsplit _).1, (hsplit _).2, List.drop_one, List.tail_cons,
    signedValue_toString]

/-- Written digits say the number that they are written for. -/
theorem numeralValue_renderScaled (d : Decimal.Scaled) :
    numeralValue (Decimal.Style.plain.renderScaled d).toList = d.value := by
  have hten : (10 : ℚ) ≠ 0 := by norm_num
  rcases renderScaled_cases d
    with ⟨whole, fraction, -, hwhole, hfraction, hplaces, hvalue, htext⟩
    | ⟨c, rest, hc, hrest, hvalue, htext⟩
  · have hmark : 'e' ∉ whole ++ '.' :: fraction := by
      simp [notMem_digits hwhole (d := 'e') rfl, notMem_digits hfraction (d := 'e') rfl]
    have hpow : (10 : ℚ) ^ (d.exponent + fraction.length).toNat
        = 10 ^ d.exponent * 10 ^ fraction.length := by
      rw [← zpow_natCast, Int.toNat_of_nonneg hplaces, zpow_add₀ hten, zpow_natCast]
    rw [htext, numeralValue_point hmark, pointValue_point hwhole, hvalue,
      Decimal.Scaled.value, Nat.cast_mul, Nat.pow_eq, Nat.cast_pow, Nat.cast_ofNat,
      hpow, ← mul_assoc]
    exact mul_div_cancel_right₀ _ (by positivity)
  · have hdigits : ∀ d ∈ c :: rest, d.isDigit := List.forall_mem_cons.2 ⟨hc, hrest⟩
    have hmark : 'e' ∉ c :: (if rest = [] then [] else '.' :: rest) := by
      have hfirst := (ne_of_isDigit hc (d := 'e') rfl).symm
      have hnot := notMem_digits hrest (d := 'e') rfl
      split <;> simp [hfirst, hnot]
    have hlead : pointValue (c :: (if rest = [] then [] else '.' :: rest))
        = d.digits / 10 ^ rest.length := by
      rw [← hvalue]
      split
      · next hempty =>
          subst hempty
          rw [pointValue_digits hdigits, List.length_nil, pow_zero, div_one]
      · have hfirst : ∀ d ∈ [c], d.isDigit := List.forall_mem_singleton.2 hc
        exact pointValue_point hfirst
    rw [htext, numeralValue_exponent hmark, hlead, Decimal.Scaled.value, zpow_add₀ hten,
      zpow_natCast, div_mul_eq_mul_div, ← mul_assoc]
    exact mul_div_cancel_right₀ _ (by positivity)

/-- The text of a double without its sign says a number that rounds to it. -/
theorem rounds_magnitude (x : Float) :
    (Decimal.Dyadic.ofFloat x).Rounds (numeralValue (magnitude x).toList) := by
  unfold magnitude
  simp only
  split
  · next hzero =>
      have hdigit : ∀ c ∈ ['0'], c.isDigit := List.forall_mem_singleton.2 rfl
      have hvalue : numeralValue (['0'] ++ '.' :: ['0']) = 0 := by
        rw [numeralValue_point (by decide), pointValue_point hdigit,
          show Nat.ofDigitChars 10 (['0'] ++ ['0']) 0 = 0 from rfl, Nat.cast_zero, zero_div]
      rw [show "0.0".toList = ['0'] ++ '.' :: ['0'] from rfl, hvalue]
      exact .zero hzero
  · next hpos =>
      rw [numeralValue_renderScaled]
      exact Decimal.Dyadic.rounds_shortest Decimal.Dyadic.canonical_ofFloat
        (Nat.pos_of_ne_zero hpos) _

theorem magnitude_injective {x y : Float} (h : magnitude x = magnitude y) :
    Decimal.Dyadic.ofFloat x = Decimal.Dyadic.ofFloat y := by
  have hrounds := rounds_magnitude x
  rw [h] at hrounds
  exact hrounds.unique Decimal.Dyadic.canonical_ofFloat Decimal.Dyadic.canonical_ofFloat
    (rounds_magnitude y)

/-! ## Dates and times of day -/

theorem ofDigitChars_padded (width n : Nat) :
    Nat.ofDigitChars 10 (Time.padded width n).toList 0 = n := by
  rw [Time.padded, String.toList_ofList, Nat.ofDigitChars_append,
    Nat.ofDigitChars_replicate_zero, Nat.mul_zero, Nat.ofDigitChars_ten_toDigits]

theorem length_padded {width n : Nat} (hwidth : 0 < width) (h : n < 10 ^ width) :
    (Time.padded width n).toList.length = width := by
  have hle := (Nat.length_toDigits_le_iff (by decide : 1 < 10) hwidth).2 h
  rw [Time.padded, String.toList_ofList, List.length_append, List.length_replicate]
  omega

/-- A number that is written in two places can be told from what follows it. -/
theorem twoPlaces_inj {m n : Nat} (hm : m < 100) (hn : n < 100) {rest more : List Char}
    (h : (Time.padded 2 m).toList ++ rest = (Time.padded 2 n).toList ++ more) :
    m = n ∧ rest = more := by
  obtain ⟨hdigits, hrest⟩ :=
    List.append_inj h (by rw [length_padded two_pos hm, length_padded two_pos hn])
  rw [← ofDigitChars_padded 2 m, hdigits, ofDigitChars_padded]
  exact ⟨rfl, hrest⟩

theorem signedValue_writtenYear (year : ℤ) :
    signedValue (Time.writtenYear year).toList = year := by
  unfold Time.writtenYear
  split
  · rw [signedValue_digits (isDigit_padded _ _), ofDigitChars_padded]
    omega
  · split
    · rw [String.toList_append]
      show -((Nat.ofDigitChars 10 (Time.padded 4 year.natAbs).toList 0 : Nat) : ℤ) = year
      rw [ofDigitChars_padded]
      omega
    · rw [String.toList_append]
      show ((Nat.ofDigitChars 10 (Time.padded 4 year.natAbs).toList 0 : Nat) : ℤ) = year
      rw [ofDigitChars_padded]
      omega

/-- The month and the day stand in two places each. -/
theorem places_ofDays (days : ℤ) :
    (Calendar.Date.ofDays days).month < 100 ∧ (Calendar.Date.ofDays days).day < 100 := by
  have hproper := (Calendar.Date.ofDays_spec days).1
  have hmonth := hproper.month_le
  have hday := hproper.day_le
  unfold Calendar.daysInMonth at hday
  split_ifs at hday <;> omega

theorem toList_writtenDate (d : Calendar.Date) : (Time.writtenDate d).toList
    = (Time.writtenYear d.year).toList ++ '-'
      :: ((Time.padded 2 d.month).toList ++ '-' :: (Time.padded 2 d.day).toList) := by
  simp [Time.writtenDate]

theorem writtenDate_injective {d e : Calendar.Date} (hd : d.month < 100 ∧ d.day < 100)
    (he : e.month < 100 ∧ e.day < 100)
    (h : Time.writtenDate d = Time.writtenDate e) : d = e := by
  rw [← String.toList_inj, toList_writtenDate, toList_writtenDate] at h
  have hplaces : ∀ {c : Calendar.Date}, c.month < 100 ∧ c.day < 100 →
      ('-' :: ((Time.padded 2 c.month).toList ++ '-'
        :: (Time.padded 2 c.day).toList)).length = 2 + (2 + 1) + 1 := fun hc => by
    rw [List.length_cons, List.length_append, List.length_cons, length_padded two_pos hc.1,
      length_padded two_pos hc.2]
  obtain ⟨hyears, hrest⟩ := List.append_inj' h (by rw [hplaces hd, hplaces he])
  obtain ⟨hmonth, hrest⟩ := twoPlaces_inj hd.1 he.1 (List.cons_injective hrest)
  have hyear := congrArg signedValue hyears
  rw [signedValue_writtenYear, signedValue_writtenYear] at hyear
  have hday := congrArg (Nat.ofDigitChars 10 · 0) (List.cons_injective hrest)
  simp only [ofDigitChars_padded] at hday
  cases d
  cases e
  rw [Calendar.Date.mk.injEq]
  exact ⟨hyear, hmonth, hday⟩

/-- Different days have different dates. -/
theorem writtenDate_ofDays_injective {m n : ℤ}
    (h : Time.writtenDate (Calendar.Date.ofDays m)
      = Time.writtenDate (Calendar.Date.ofDays n)) : m = n := by
  rw [← (Calendar.Date.ofDays_spec m).2,
    writtenDate_injective (places_ofDays m) (places_ofDays n) h,
    (Calendar.Date.ofDays_spec n).2]

/-- The nanoseconds that digits behind a point say. -/
def fractionValue (text : List Char) : Nat :=
  Nat.ofDigitChars 10 (text.drop 1) 0 * 10 ^ (9 - (text.drop 1).length)

theorem fractionValue_writtenFraction {n : Nat} (h : n < 10 ^ 9) :
    fractionValue (Time.writtenFraction n).toList = n := by
  have hpoint : ∀ width m, 0 < width → m < 10 ^ width →
      fractionValue ("." ++ Time.padded width m).toList = m * 10 ^ (9 - width) :=
        fun width m hwidth hm => by
    rw [fractionValue, String.toList_append, List.drop_append,
      show List.drop 1 ".".toList = [] from rfl]
    simp [ofDigitChars_padded, length_padded hwidth hm]
  unfold Time.writtenFraction
  split_ifs with hzero hmilli hmicro
  · rw [hzero]
    rfl
  · rw [hpoint 3 _ (by decide) (by omega)]
    omega
  · rw [hpoint 6 _ (by decide) (by omega)]
    omega
  · rw [hpoint 9 _ (by decide) h]
    omega

theorem toList_writtenInstant (t : Instant) :
    (Time.writtenInstant " " t).toList = (Time.writtenDate t.date).toList
    ++ ' ' :: ((Time.padded 2 t.hour).toList ++ ':' :: ((Time.padded 2 t.minute).toList
      ++ ':' :: ((Time.padded 2 t.secondOfMinute).toList
        ++ (Time.writtenFraction t.nanosecond).toList))) := by
  simp [Time.writtenInstant, Time.writtenClock]

theorem writtenInstant_injective {t u : Instant}
    (ht : t.second < 86400 ∧ t.nanosecond < 10 ^ 9)
    (hu : u.second < 86400 ∧ u.nanosecond < 10 ^ 9)
    (h : Time.writtenInstant " " t = Time.writtenInstant " " u) : t = u := by
  have hplaces : ∀ i : Instant, i.second < 86400 →
      i.hour < 100 ∧ i.minute < 100 ∧ i.secondOfMinute < 100 := fun i hi => by
    unfold Instant.hour Instant.minute Instant.secondOfMinute
    omega
  obtain ⟨hhour, hminute, hsecond⟩ := hplaces t ht.1
  obtain ⟨hhour', hminute', hsecond'⟩ := hplaces u hu.1
  rw [← String.toList_inj, toList_writtenInstant, toList_writtenInstant] at h
  have hblank : ∀ d, ' ' ∉ (Time.writtenDate d).toList :=
    notMem_writtenDate (by decide) (by decide) (by decide)
  obtain ⟨hdates, hrest⟩ := append_separator_inj (hblank _) (hblank _) h
  obtain ⟨hhours, hrest⟩ := twoPlaces_inj hhour hhour' hrest
  obtain ⟨hminutes, hrest⟩ := twoPlaces_inj hminute hminute' (List.cons_injective hrest)
  obtain ⟨hseconds, hfractions⟩ := twoPlaces_inj hsecond hsecond' (List.cons_injective hrest)
  have hdays : t.days = u.days := writtenDate_ofDays_injective (String.toList_inj.1 hdates)
  have hclock : t.second = u.second := by
    unfold Instant.hour Instant.minute Instant.secondOfMinute at *
    omega
  have hnanos := congrArg fractionValue hfractions
  rw [fractionValue_writtenFraction ht.2, fractionValue_writtenFraction hu.2] at hnanos
  cases t
  cases u
  rw [Instant.mk.injEq]
  exact ⟨hdays, hclock, hnanos⟩

/-- Different instants have different texts. -/
theorem writtenInstant_ofNanos_injective {m n : ℤ}
    (h : Time.writtenInstant " " (Instant.ofNanos m)
      = Time.writtenInstant " " (Instant.ofNanos n)) : m = n := by
  have hclock : ∀ k : ℤ, (Instant.ofNanos k).second < 86400
      ∧ (Instant.ofNanos k).nanosecond < 10 ^ 9 := fun k => by
    simp only [Instant.ofNanos, Instant.nanosPerSecond, Instant.secondsPerDay]
    omega
  rw [← Instant.exactNanos_ofNanos m, writtenInstant_injective (hclock m) (hclock n) h,
    Instant.exactNanos_ofNanos]

end TypedQuery.Sql
