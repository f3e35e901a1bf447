import Mathlib
import TypedQuery.Decimal.Shortest

/-!
# Shortest decimals read back

The reals that round to a double are those nearer to it than halfway to its neighbours, and
the halfway points too if the mantissa is even (`Dyadic.Rounds`). The reals of a smaller
double are smaller (`Dyadic.Rounds.lt`), so no real rounds to two. A point of a decimal
grid that is accepted is one of them, and a grid of seventeen digits always has one,
because its points are closer together than the ends of the interval
(`Dyadic.exists_gridPoint`). Written digits say a number (`numeralValue`), which for the
text of a double is one that rounds to it. That is why the text determines the double.
-/

namespace TypedQuery.Decimal

/-- The number that digits with an exponent are. -/
def Scaled.value (d : Scaled) : ℚ := d.digits * 10 ^ d.exponent

namespace Dyadic

/-! ## The reals of a double -/

/-- The parts of a double: a mantissa of 53 bits, which has the leading one unless the
exponent is the least. -/
structure Canonical (v : Dyadic) : Prop where
  mantissa : v.mantissa < 2 * hiddenBit
  exponent : -1074 ≤ v.exponent
  leading : v.exponent = -1074 ∨ hiddenBit ≤ v.mantissa

def value (v : Dyadic) : ℚ := v.mantissa * 2 ^ v.exponent

/-- A quarter of the distance to the next larger double. -/
def quarter (v : Dyadic) : ℚ := 2 ^ (v.exponent - 2)

/-- The quarters down to halfway to the next smaller double, which is nearer if it
has a smaller exponent. -/
def margin (v : Dyadic) : Nat := if v.mantissa = hiddenBit ∧ -1074 < v.exponent then 1 else 2

def lower (v : Dyadic) : ℚ := (4 * v.mantissa - v.margin) * v.quarter

def upper (v : Dyadic) : ℚ := (4 * v.mantissa + 2) * v.quarter

/-- Of the reals between two doubles the nearer one takes them, and the even
one takes the middle. -/
def Rounds (v : Dyadic) (q : ℚ) : Prop :=
  if v.mantissa % 2 = 0 then v.lower ≤ q ∧ q ≤ v.upper else v.lower < q ∧ q < v.upper

variable {v w : Dyadic} {q r : ℚ} {p : Int}

theorem quarter_pos (v : Dyadic) : 0 < v.quarter := zpow_pos two_pos _

theorem value_eq (v : Dyadic) : v.value = 4 * v.mantissa * v.quarter := by
  rw [value, quarter, zpow_sub₀ two_ne_zero]
  ring

theorem margin_bounds (v : Dyadic) : 0 < v.margin ∧ v.margin ≤ 2 := by
  unfold margin
  split <;> decide

theorem Rounds.bounds (h : v.Rounds q) : v.lower ≤ q ∧ q ≤ v.upper := by
  unfold Rounds at h
  split at h
  · exact h
  · exact ⟨h.1.le, h.2.le⟩

theorem Rounds.strict (h : v.Rounds q) (hodd : v.mantissa % 2 ≠ 0) :
    v.lower < q ∧ q < v.upper := by
  rwa [Rounds, if_neg hodd] at h

theorem Rounds.of_strict (hlower : v.lower < q) (hupper : q < v.upper) : v.Rounds q := by
  unfold Rounds
  split
  · exact ⟨hlower.le, hupper.le⟩
  · exact ⟨hlower, hupper⟩

theorem Rounds.zero (h : v.mantissa = 0) : v.Rounds 0 := by
  have hmargin : (0 : ℚ) < v.margin := by exact_mod_cast v.margin_bounds.1
  have hquarter := v.quarter_pos
  refine .of_strict ?_ ?_
  · rw [lower, h, Nat.cast_zero, mul_zero, zero_sub]
    exact mul_neg_of_neg_of_pos (neg_neg_of_pos hmargin) hquarter
  · rw [upper, h, Nat.cast_zero, mul_zero, zero_add]
    positivity

/-- The order of the parts: by exponent, and by mantissa if that is the same. -/
def Below (v w : Dyadic) : Prop :=
  v.exponent < w.exponent ∨ v.exponent = w.exponent ∧ v.mantissa < w.mantissa

/-- Ends of intervals in quarters of the smaller double. Two even mantissas are
never next to each other. -/
theorem ends_le (hv : v.Canonical) (hw : w.Canonical) {k : Nat}
    (hk : w.exponent = v.exponent + k) (h : v.Below w) :
    4 * (v.mantissa : ℤ) + 2 ≤ (4 * w.mantissa - w.margin) * 2 ^ k
      ∧ (v.mantissa % 2 = 0 → w.mantissa % 2 = 0 →
        4 * (v.mantissa : ℤ) + 2 < (4 * w.mantissa - w.margin) * 2 ^ k) := by
  have hmargin := w.margin_bounds
  have hmantissa := hv.mantissa
  have hexponent := hv.exponent
  cases k with
  | zero =>
      have hlt : v.mantissa < w.mantissa := by
        rcases h with h | h <;> omega
      rw [pow_zero, mul_one]
      omega
  | succ k =>
      -- The greatest mantissa is odd, and the interval of the larger double begins
      -- above all the others.
      have hleading : hiddenBit ≤ w.mantissa := hw.leading.resolve_left (by omega)
      have hbegin : 2 * (hiddenBit : ℤ) * 4 - 2 ≤ (4 * w.mantissa - w.margin) * 2 := by
        unfold margin
        split <;> unfold hiddenBit at * <;> omega
      have hpow : (1 : ℤ) ≤ 2 ^ k := one_le_pow₀ one_le_two
      have hscaled : (4 * (w.mantissa : ℤ) - w.margin) * 2
          ≤ (4 * w.mantissa - w.margin) * 2 ^ (k + 1) := by
        rw [pow_succ', ← mul_assoc]
        exact le_mul_of_one_le_right (by unfold hiddenBit at *; omega) hpow
      unfold hiddenBit at *
      omega

/-- The reals of a smaller double are smaller. -/
theorem Rounds.lt (hv : v.Canonical) (hw : w.Canonical) (h : v.Below w) (hq : v.Rounds q)
    (hr : w.Rounds r) : q < r := by
  obtain ⟨k, hk⟩ : ∃ k : Nat, w.exponent = v.exponent + k :=
    ⟨(w.exponent - v.exponent).toNat, by rcases h with h | h <;> omega⟩
  have hquarter : w.quarter = 2 ^ k * v.quarter := by
    rw [quarter, quarter, hk, ← zpow_natCast, ← zpow_add₀ two_ne_zero]
    congr 1
    omega
  obtain ⟨hle, hlt⟩ := ends_le hv hw hk h
  have hends : w.lower = (((4 * w.mantissa - w.margin) * 2 ^ k : ℤ) : ℚ) * v.quarter := by
    rw [lower, hquarter]
    push_cast
    ring
  have hstart : v.upper = ((4 * v.mantissa + 2 : ℤ) : ℚ) * v.quarter := by
    rw [upper]
    push_cast
    ring
  have hmiddle : v.upper ≤ w.lower := by
    rw [hends, hstart]
    exact mul_le_mul_of_nonneg_right (by exact_mod_cast hle) v.quarter_pos.le
  by_cases hvodd : v.mantissa % 2 = 0
  · by_cases hwodd : w.mantissa % 2 = 0
    · have hgap : v.upper < w.lower := by
        rw [hends, hstart]
        exact mul_lt_mul_of_pos_right (by exact_mod_cast hlt hvodd hwodd) v.quarter_pos
      exact (hq.bounds.2.trans_lt hgap).trans_le hr.bounds.1
    · exact (hq.bounds.2.trans hmiddle).trans_lt (hr.strict hwodd).1
  · exact ((hq.strict hvodd).2.trans_le hmiddle).trans_le hr.bounds.1

/-- A real rounds to one double only. -/
theorem Rounds.unique (hv : v.Canonical) (hw : w.Canonical) (hq : v.Rounds q)
    (hr : w.Rounds q) : v = w := by
  have hvw : ¬ v.Below w := fun h => lt_irrefl q (hq.lt hv hw h hr)
  have hwv : ¬ w.Below v := fun h => lt_irrefl q (hr.lt hw hv h hq)
  obtain ⟨m, e⟩ := v
  obtain ⟨n, f⟩ := w
  simp only [Below] at hvw hwv
  rw [mk.injEq]
  omega

end Dyadic

/-! ## Points of decimal grids -/

theorem zpow_toNat {b : ℚ} (hb : b ≠ 0) (z : ℤ) : b ^ z.toNat = b ^ z * b ^ (-z).toNat := by
  rw [← zpow_natCast, ← zpow_natCast, ← zpow_add₀ hb]
  congr 1
  omega

theorem quotient_pos (n : Nat) (two ten : Int) : 0 < (quotient n two ten).2 := by
  show 0 < 10 ^ (-ten).toNat <<< (-two).toNat
  rw [Nat.shiftLeft_eq]
  exact Nat.mul_pos (Nat.pow_pos (by decide)) (Nat.two_pow_pos _)

theorem quotient_eq (n : Nat) (two ten : Int) :
    ((quotient n two ten).1 : ℚ) = n * 2 ^ two * 10 ^ ten * (quotient n two ten).2 := by
  have htwo := zpow_toNat (two_ne_zero : (2 : ℚ) ≠ 0) two
  have hten := zpow_toNat (show (10 : ℚ) ≠ 0 by norm_num) ten
  rw [quotient, Nat.shiftLeft_eq, Nat.shiftLeft_eq]
  push_cast [Nat.pow_eq]
  rw [htwo, hten]
  ring

namespace Dyadic

variable {v w : Dyadic} {q r : ℚ} {p : Int}

/-- Whether a point of the grid is accepted. -/
def accepts (v : Dyadic) (p : Int) (n : Nat) : Bool :=
  let (num, den) := quotient 1 (v.exponent - 2) (-p)
  let low := (4 * v.mantissa - v.margin) * num
  let high := (4 * v.mantissa + 2) * num
  if v.mantissa % 2 = 0 then low ≤ n * den ∧ n * den ≤ high else low < n * den
    ∧ n * den < high

/-- The last point of the grid up to the number. -/
def pointBelow (v : Dyadic) (p : Int) : Nat :=
  let (num, den) := quotient 1 (v.exponent - 2) (-p)
  4 * v.mantissa * num / den

/-- What the grid is laid over, in its own units. -/
theorem scaled_eq (v : Dyadic) (p : Int) (c : ℚ) :
    c * (quotient 1 (v.exponent - 2) (-p)).1 * 10 ^ p
    = c * v.quarter * (quotient 1 (v.exponent - 2) (-p)).2 := by
  have hpow : (10 : ℚ) ^ (-p) * 10 ^ p = 1 := by
    rw [← zpow_add₀ (by norm_num), neg_add_cancel, zpow_zero]
  rw [quotient_eq, quarter, Nat.cast_one, one_mul]
  linear_combination c * 2 ^ (v.exponent - 2) * (quotient 1 (v.exponent - 2) (-p)).2 * hpow

theorem accepts_iff (hpos : 0 < v.mantissa) (n : Nat) :
    v.accepts p n = true ↔ v.Rounds (n * 10 ^ p) := by
  have hden : (0 : ℚ) < (quotient 1 (v.exponent - 2) (-p)).2 := by
    exact_mod_cast quotient_pos _ _ _
  have hgrid : (0 : ℚ) < 10 ^ p := zpow_pos (by norm_num) _
  have hlow : ((4 * v.mantissa - v.margin : Nat) : ℚ) = 4 * v.mantissa - v.margin := by
    rw [Nat.cast_sub (by have := v.margin_bounds; omega)]
    push_cast
    ring
  have hscale := scaled_eq v p
  unfold accepts Rounds lower upper
  generalize quotient 1 (v.exponent - 2) (-p) = fraction at hden hscale
  obtain ⟨num, den⟩ := fraction
  simp only at hden hscale ⊢
  -- Both sides are multiplied by the denominator.
  have hle : ∀ c : ℚ, c * num ≤ n * den ↔ c * v.quarter ≤ n * 10 ^ p := fun c => by
    rw [← mul_le_mul_iff_left₀ hgrid, hscale, mul_right_comm (n : ℚ),
      mul_le_mul_iff_left₀ hden]
  have hge : ∀ c : ℚ, n * den ≤ c * num ↔ n * 10 ^ p ≤ c * v.quarter := fun c => by
    rw [← mul_le_mul_iff_left₀ hgrid, hscale, mul_right_comm (n : ℚ),
      mul_le_mul_iff_left₀ hden]
  split
  · rw [decide_eq_true_iff, ← hle, ← hge, ← hlow]
    exact_mod_cast Iff.rfl
  · rw [decide_eq_true_iff, ← not_le, ← not_le, ← not_le (a := _ * v.quarter),
      ← not_le (b := _ * v.quarter), ← hle, ← hge, ← hlow]
    exact_mod_cast Iff.rfl

theorem gridPoint_eq (v : Dyadic) (tieUp : Bool) (p : Int) : v.gridPoint tieUp p =
    match 0 < v.pointBelow p && v.accepts p (v.pointBelow p),
      v.accepts p (v.pointBelow p + 1) with
    | true, true =>
      let (num, den) := quotient 1 (v.exponent - 2) (-p)
      let down := 4 * v.mantissa * num - v.pointBelow p * den
      let up := (v.pointBelow p + 1) * den - 4 * v.mantissa * num
      if down < up then some (v.pointBelow p)
      else if up < down then some (v.pointBelow p + 1)
      else if tieUp || v.pointBelow p % 2 = 1 then some (v.pointBelow p + 1)
        else some (v.pointBelow p)
    | true, false => some (v.pointBelow p)
    | false, true => some (v.pointBelow p + 1)
    | false, false => none := rfl

/-- A point of a grid that is taken rounds to the number. -/
theorem Rounds.of_gridPoint (hpos : 0 < v.mantissa) {tieUp : Bool} {n : Nat}
    (h : v.gridPoint tieUp p = some n) :
    v.Rounds (n * 10 ^ p) := by
  rw [← accepts_iff hpos]
  rw [gridPoint_eq] at h
  split at h
  · next hbelow habove =>
      have hboth : v.accepts p (v.pointBelow p) = true := (Bool.and_eq_true_iff.1 hbelow).2
      dsimp only at h
      split_ifs at h <;> cases h <;> assumption
  · next hbelow _ =>
      cases h
      exact (Bool.and_eq_true_iff.1 hbelow).2
  · next habove =>
      cases h
      exact habove
  · cases h

theorem pointBelow_bounds (v : Dyadic) (p : Int) :
    v.pointBelow p * 10 ^ p ≤ v.value ∧ v.value < (v.pointBelow p + 1) * 10 ^ p := by
  have hnat := quotient_pos 1 (v.exponent - 2) (-p)
  have hden : (0 : ℚ) < (quotient 1 (v.exponent - 2) (-p)).2 := by exact_mod_cast hnat
  have hgrid : (0 : ℚ) < 10 ^ p := zpow_pos (by norm_num) _
  have hscale := scaled_eq v p (4 * v.mantissa)
  rw [value_eq, pointBelow]
  generalize quotient 1 (v.exponent - 2) (-p) = fraction at hnat hden hscale
  obtain ⟨num, den⟩ := fraction
  simp only at hnat hden hscale ⊢
  have hle : ((4 * v.mantissa * num / den : Nat) : ℚ) * den ≤ 4 * v.mantissa * num := by
    exact_mod_cast Nat.div_mul_le_self _ _
  have hlt : 4 * v.mantissa * num
      < (((4 * v.mantissa * num / den : Nat) : ℚ) + 1) * den := by
    have hnext := Nat.lt_mul_div_succ (4 * v.mantissa * num) hnat
    rw [mul_comm den] at hnext
    exact_mod_cast hnext
  constructor
  · rw [← mul_le_mul_iff_left₀ hden, ← hscale, mul_right_comm _ (10 ^ p) (den : ℚ)]
    exact mul_le_mul_of_nonneg_right hle hgrid.le
  · rw [← mul_lt_mul_iff_left₀ hden, ← hscale, mul_right_comm _ (10 ^ p) (den : ℚ)]
    exact mul_lt_mul_of_pos_right hlt hgrid

/-- A grid that has seventeen digits for the number is fine enough. -/
theorem exists_gridPoint (hv : v.Canonical) (hpos : 0 < v.mantissa) (tieUp : Bool)
    (h : 10 ^ 16 * 10 ^ p ≤ v.value) :
    ∃ n, v.gridPoint tieUp p = some n := by
  obtain ⟨hbelow, habove⟩ := v.pointBelow_bounds p
  have hgrid : (0 : ℚ) < 10 ^ p := zpow_pos (by norm_num) _
  have hquarter := v.quarter_pos
  have hvalue := v.value_eq
  have hmantissa : (v.mantissa : ℚ) + 1 ≤ 2 * 2 ^ 52 := by exact_mod_cast hv.mantissa
  have hupper : v.upper = v.value + 2 * v.quarter := by
    rw [hvalue, upper]
    ring
  have hlower : v.lower = v.value - v.margin * v.quarter := by
    rw [hvalue, lower]
    ring
  have hpoint : 0 < v.pointBelow p := by
    by_contra hzero
    rw [Nat.eq_zero_of_not_pos hzero, Nat.cast_zero, zero_add, one_mul] at habove
    linarith
  have hmargin : (0 : ℚ) ≤ v.margin := Nat.cast_nonneg _
  -- Either the point above is less than half a place away, or the one below is.
  have hinside : v.Rounds (v.pointBelow p * 10 ^ p)
      ∨ v.Rounds ((v.pointBelow p + 1 : Nat) * 10 ^ p) := by
    push_cast
    rcases lt_or_ge ((v.pointBelow p + 1 : ℚ) * 10 ^ p) v.upper with hnear | hfar
    · refine .inr (.of_strict (lt_of_le_of_lt ?_ habove) hnear)
      rw [hlower]
      nlinarith
    · refine .inl (.of_strict ?_ (lt_of_le_of_lt hbelow (by linarith)))
      have hwide : v.margin = 2 := by
        unfold margin
        refine if_neg fun hleast => ?_
        have hleading : (v.mantissa : ℚ) = 2 ^ 52 := by exact_mod_cast hleast.1
        rw [hleading] at hvalue
        nlinarith
      rw [hlower, hwide]
      push_cast
      nlinarith
  rw [← accepts_iff hpos, ← accepts_iff hpos] at hinside
  rw [gridPoint_eq]
  split
  · dsimp only
    split_ifs <;> exact ⟨_, rfl⟩
  · exact ⟨_, rfl⟩
  · exact ⟨_, rfl⟩
  · next hno hno' =>
      rw [decide_eq_true hpoint, Bool.true_and] at hno
      rw [hno, hno'] at hinside
      exact absurd hinside (by decide)

/-! ## The shortest decimal -/

theorem le_digitCount {n : Nat} (hn : n ≠ 0) : 10 ^ (digitCount n - 1) ≤ n := by
  unfold digitCount
  rcases Nat.eq_zero_or_pos ((Nat.toDigits 10 n).length - 1) with hone | hmore
  · rw [hone]
    omega
  · have hiff := Nat.length_toDigits_le_iff (n := n) (by decide : 1 < 10) hmore
    omega

theorem lt_digitCount (n : Nat) : n < 10 ^ digitCount n :=
  (Nat.length_toDigits_le_iff (by decide) Nat.length_toDigits_pos).1 le_rfl

theorem digitCount_pos (n : Nat) : 0 < digitCount n := Nat.length_toDigits_pos

/-- The first digit of the number is not zero. -/
theorem le_value (hpos : 0 < v.mantissa) : 10 ^ (v.pointPosition - 1) ≤ v.value := by
  have hnat := quotient_pos v.mantissa v.exponent 0
  have hvalue := quotient_eq v.mantissa v.exponent 0
  have hden : (0 : ℚ) < (quotient v.mantissa v.exponent 0).2 := by exact_mod_cast hnat
  have hvaluePos : 0 < v.value := mul_pos (by exact_mod_cast hpos) (zpow_pos two_pos _)
  rw [zpow_zero, mul_one, ← value] at hvalue
  unfold pointPosition
  generalize quotient v.mantissa v.exponent 0 = fraction at hnat hvalue hden
  obtain ⟨a, b⟩ := fraction
  simp only at hnat hvalue hden ⊢
  have ha : 0 < a := by
    have hpositive : (0 : ℚ) < a := hvalue ▸ mul_pos hvaluePos hden
    exact_mod_cast hpositive
  rw [← mul_le_mul_iff_left₀ hden, ← hvalue]
  split
  · next hle =>
      have hcount := le_digitCount (Nat.div_pos hle hnat).ne'
      have hone := digitCount_pos (a / b)
      have hpow : 10 ^ (digitCount (a / b) - 1) * b ≤ a :=
        (Nat.mul_le_mul_right b hcount).trans (Nat.div_mul_le_self a b)
      rw [show (digitCount (a / b) : ℤ) - 1 = (digitCount (a / b) - 1 : Nat) by omega,
        zpow_natCast]
      exact_mod_cast hpow
  · next hgt =>
      have hone := digitCount_pos (b / a)
      split
      · next hexact =>
          have hpow : (a : ℚ) * 10 ^ (digitCount (b / a) - 1) = b := by
            rw [show ((digitCount (b / a) : ℤ) - 1).toNat = digitCount (b / a) - 1 by omega]
              at hexact
            exact_mod_cast hexact
          rw [show (2 : ℤ) - digitCount (b / a) - 1
            = -(digitCount (b / a) - 1 : Nat) by omega, zpow_neg, zpow_natCast, ← hpow,
            mul_comm, mul_assoc, mul_inv_cancel₀ (by positivity), mul_one]
      · have hlt := lt_digitCount (b / a)
        have hpow : b ≤ a * 10 ^ digitCount (b / a) := by
          rw [Nat.div_lt_iff_lt_mul ha, mul_comm] at hlt
          exact hlt.le
        rw [show (1 : ℤ) - digitCount (b / a) - 1 = -(digitCount (b / a) : Nat) by omega,
          zpow_neg, zpow_natCast, inv_mul_le_iff₀ (by positivity), mul_comm]
        exact_mod_cast hpow

theorem value_stripZeros (fuel : Nat) (d : Scaled) :
    (stripZeros fuel d).value = d.value := by
  induction fuel generalizing d with
  | zero => rfl
  | succ fuel ih =>
      rw [stripZeros]
      split
      · next hzero =>
          have hdigits : (d.digits : ℚ) = (d.digits / 10 : Nat) * 10 := by
            exact_mod_cast (Nat.div_mul_cancel (Nat.dvd_of_mod_eq_zero hzero)).symm
          rw [ih, Scaled.value, Scaled.value, hdigits, zpow_add_one₀ (by norm_num)]
          ring
      · rfl

/-- The shortest decimal rounds to the number. -/
theorem rounds_shortest (hv : v.Canonical) (hpos : 0 < v.mantissa) (tieUp : Bool) :
    v.Rounds (v.shortest tieUp).value := by
  unfold shortest
  simp only
  generalize hgrid : (fun k : Nat => if k = 0 then none
    else (v.gridPoint tieUp (v.pointPosition - k)).map fun n =>
      stripZeros 20 ⟨n, v.pointPosition - k⟩) = grid
  cases hfound : (List.range 18).findSome? grid with
  | none =>
      have hfine : (10 : ℚ) ^ 16 * 10 ^ (v.pointPosition - 17) ≤ v.value := by
        refine le_trans (le_of_eq ?_) (le_value hpos)
        rw [← zpow_natCast, ← zpow_add₀ (by norm_num)]
        congr 1
        omega
      obtain ⟨n, hn⟩ := exists_gridPoint hv hpos tieUp hfine
      have hnone := List.findSome?_eq_none_iff.1 hfound 17 (by decide)
      rw [← hgrid] at hnone
      simp only [Nat.cast_ofNat, hn] at hnone
      cases hnone
  | some d =>
      obtain ⟨k, -, hk⟩ := List.exists_of_findSome?_eq_some hfound
      rw [← hgrid] at hk
      dsimp only at hk
      split at hk
      · cases hk
      · obtain ⟨n, hn, rfl⟩ := Option.map_eq_some_iff.1 hk
        rw [Option.getD_some, value_stripZeros]
        exact .of_gridPoint hpos hn

theorem canonical_ofFloat {x : Float} : (ofFloat x).Canonical := by
  unfold ofFloat
  simp only
  split <;> constructor <;> unfold hiddenBit at * <;> dsimp only <;> omega

/-- The parts and the sign are all there is to a double. -/
theorem toBits_eq_of_ofFloat {x y : Float} (h : ofFloat x = ofFloat y)
    (hsign : 0x8000000000000000 ≤ x.toBits ↔ 0x8000000000000000 ≤ y.toBits) :
    x.toBits = y.toBits := by
  have hxlt := x.toBits.toNat_lt
  have hylt := y.toBits.toNat_lt
  rw [UInt64.le_iff_toNat_le, UInt64.le_iff_toNat_le] at hsign
  change 9223372036854775808 ≤ _ ↔ 9223372036854775808 ≤ _ at hsign
  rw [← UInt64.toNat_inj]
  unfold ofFloat at h
  simp only at h
  unfold hiddenBit at *
  split at h <;> split at h <;> rw [mk.injEq] at h <;> omega

end Dyadic

end TypedQuery.Decimal
