import Mathlib
import TypedQuery.Binary64.Exact

/-!
# Whole numbers as doubles

`value?` is the number that a finite double is. Conversion rounds a whole number to a
mantissa of 53 bits, and what has such a mantissa goes through unrounded: it has one of its
own as soon as any double is equal to it, because a shift that would drop bits only drops
zeros (`exists_mantissa`). To read the result back, its bits are taken through the packing
of a double, which keeps every pattern but those that are no number (`pack_unpack`).

Conversion also keeps the order. Numbers of one size, that is with as many bits, are
rounded to a mantissa, which does not turn their order around. A mantissa that is
rounded up to the next size is the first one of that size (`nearestBits_eq_min`), and
so the order is kept from one size to the next as well. In the end it is the infinity
that no number goes beyond.
-/

namespace TypedQuery.Binary64

open Decimal (hiddenBit)
open Float.Model (Format UnpackedFloat)
open Float.Model.UnpackedFloat

/-! ## The parts of a pattern -/

theorem toNat_unpackExponent (b : BitVec 64) :
    (@unpackExponent Format.binary64 b).toNat = b.toNat / 2 ^ 52 % 2048 := by
  unfold unpackExponent
  simp [BitVec.extractLsb, BitVec.extractLsb', Nat.shiftRight_eq_div_pow]

theorem toNat_unpackMantissa (b : BitVec 64) :
    (@unpackMantissa Format.binary64 b).toNat = b.toNat % 2 ^ 52 := by
  unfold unpackMantissa
  simp [BitVec.extractLsb, BitVec.extractLsb', Nat.shiftRight_eq_div_pow]

theorem toNat_unpackSign (b : BitVec 64) :
    (@unpackSign Format.binary64 b).toNat = b.toNat / 2 ^ 63 := by
  have h := b.isLt
  unfold unpackSign
  simp [BitVec.extractLsb, BitVec.extractLsb', Nat.shiftRight_eq_div_pow]
  omega

theorem isFinite_eq (x : Float) :
    x.isFinite = decide (x.toBits.toNat / hiddenBit % 2048 ≠ 2047) := by
  have hexponent := toNat_unpackExponent x.toBits.toBitVec
  have hones : @unpackExponent Format.binary64 x.toBits.toBitVec = -1#11
      ↔ x.toBits.toNat / hiddenBit % 2048 = 2047 := by
    rw [← BitVec.toNat_inj, hexponent]
    exact Iff.rfl
  have hfinite : x.isFinite = (unpack Format.binary64 x.toBits.toBitVec).isFinite := rfl
  rw [hfinite]
  by_cases h : x.toBits.toNat / hiddenBit % 2048 = 2047
  · rw [unpack, if_pos (hones.2 h)]
    simp only [h, ne_eq, not_true_eq_false, decide_false]
    split <;> rfl
  · rw [unpack, if_neg (fun he => h (hones.1 he))]
    simp only [h, ne_eq, not_false_eq_true, decide_true]
    split <;> [split; skip] <;> rfl

/-- There are two infinities. -/
theorem eq_infinity_of_isInf {x : Float} (h : x.isInf) : x = infinity ∨ x = -infinity := by
  have hexponent := toNat_unpackExponent x.toBits.toBitVec
  have hmantissa := toNat_unpackMantissa x.toBits.toBitVec
  have hlt := x.toBits.toNat_lt
  have hinf : (unpack Format.binary64 x.toBits.toBitVec).isInf = true := h
  have hparts : @unpackExponent Format.binary64 x.toBits.toBitVec = -1#11
      ∧ @unpackMantissa Format.binary64 x.toBits.toBitVec = 0#52 := by
    unfold unpack at hinf
    simp only at hinf
    split at hinf
    · next hones =>
        refine ⟨hones, ?_⟩
        split at hinf
        · assumption
        · cases hinf
    · split at hinf <;> [split at hinf; skip] <;> cases hinf
  rw [hparts.1] at hexponent
  rw [hparts.2] at hmantissa
  change 2047 = x.toBits.toNat / 2 ^ 52 % 2048 at hexponent
  change 0 = x.toBits.toNat % 2 ^ 52 at hmantissa
  rw [← toBits_inj, ← toBits_inj, ← UInt64.toNat_inj, ← UInt64.toNat_inj]
  show x.toBits.toNat = 9218868437227405312 ∨ x.toBits.toNat = 18442240474082181120
  omega

/-! ## Packing -/

theorem toBitVec_ofBitVec (s : BitVec 1) : (Sign.ofBitVec s).toBitVec = s := by
  revert s
  decide

theorem packComponents_unpack (b : BitVec 64) :
    packComponents Format.binary64 (Sign.ofBitVec (@unpackSign Format.binary64 b))
      (@unpackExponent Format.binary64 b) (@unpackMantissa Format.binary64 b) = b := by
  unfold packComponents
  rw [toBitVec_ofBitVec]
  apply BitVec.eq_of_toNat_eq
  rw [BitVec.toNat_append, BitVec.toNat_append, toNat_unpackExponent, toNat_unpackMantissa,
    toNat_unpackSign]
  have h := b.isLt
  have hexponent : b.toNat / 2 ^ 52 % 2048 < 2 ^ 11 := Nat.mod_lt _ (by decide)
  have hmantissa : b.toNat % 2 ^ 52 < 2 ^ 52 := Nat.mod_lt _ (by decide)
  rw [← Nat.shiftLeft_add_eq_or_of_lt hexponent, ← Nat.shiftLeft_add_eq_or_of_lt hmantissa,
    Nat.shiftLeft_eq, Nat.shiftLeft_eq]
  omega

/-- A number with a hidden bit is packed into its parts. -/
theorem pack_normal (sign : Sign) {exponent : BitVec 11} (mantissa : BitVec 52)
    (h : exponent ≠ -1#11) (hpos : 0 < (1#1 ++ mantissa).toNat) :
    pack Format.binary64
      (.finite sign (1#1 ++ mantissa).toNat (exponent.toNat - (1023 + 52)) hpos)
      = packComponents Format.binary64 sign exponent mantissa := by
  have hlead : (1#1 ++ mantissa).toNat = 2 ^ 52 + mantissa.toNat := by
    rw [BitVec.toNat_append, ← Nat.shiftLeft_add_eq_or_of_lt mantissa.isLt]
    rfl
  have hlog : (1#1 ++ mantissa).toNat.log2 = 52 := by
    rw [hlead]
    exact (Nat.log2_eq_iff (by omega)).2 (by omega)
  have hbiased : ((exponent.toNat : Int) - (1023 + 52) + Format.binary64.exponentBias
      + Format.binary64.mantissaBitsWithoutImplicit).toNat = exponent.toNat := by
    show ((exponent.toNat : Int) - (1023 + 52) + 1023 + 52).toNat = exponent.toNat
    omega
  have hroom : ¬ 2 ^ Format.binary64.exponentBits ≤ exponent.toNat + 1 := by
    have hlt := exponent.isLt
    have hne : exponent.toNat ≠ 2047 := fun hones => h (BitVec.eq_of_toNat_eq hones)
    show ¬ 2048 ≤ exponent.toNat + 1
    omega
  have hkept : BitVec.ofNat 52 (1#1 ++ mantissa).toNat = mantissa := by
    apply BitVec.eq_of_toNat_eq
    rw [hlead, BitVec.toNat_ofNat]
    exact (Nat.add_mod_left _ _).trans (Nat.mod_eq_of_lt mantissa.isLt)
  rw [pack]
  dsimp only
  rw [hbiased, if_neg hroom, hlog,
    if_pos (show 52 + 1 = Format.binary64.mantissaBits from rfl), BitVec.ofNat_toNat,
    BitVec.setWidth_eq]
  exact congrArg _ hkept

/-- A number without a hidden bit is packed into its parts. -/
theorem pack_subnormal (sign : Sign) {mantissa : BitVec 52} (hpos : 0 < mantissa.toNat) :
    pack Format.binary64 (.finite sign mantissa.toNat (-1074) hpos)
      = packComponents Format.binary64 sign 0#11 mantissa := by
  have hlog : ¬ mantissa.toNat.log2 + 1 = Format.binary64.mantissaBits := by
    have hlt := (Nat.log2_lt (by omega)).2 mantissa.isLt
    show ¬ mantissa.toNat.log2 + 1 = 53
    omega
  have hroom : ¬ 2 ^ Format.binary64.exponentBits
      ≤ ((-1074 : Int) + Format.binary64.exponentBias
      + Format.binary64.mantissaBitsWithoutImplicit).toNat + 1 := by decide
  rw [pack]
  dsimp only
  rw [if_neg hroom, if_neg hlog]
  rw [BitVec.ofNat_toNat]
  exact congrArg _ (BitVec.setWidth_eq _)

/-- What is a number or infinite is packed into the pattern it comes from. -/
theorem pack_unpack {b : BitVec 64} (h : unpack Format.binary64 b ≠ .notANumber) :
    pack Format.binary64 (unpack Format.binary64 b) = b := by
  refine Eq.trans ?_ (packComponents_unpack b)
  rw [unpack] at h ⊢
  by_cases hones : @unpackExponent Format.binary64 b = -1#11
  · rw [if_pos hones] at h ⊢
    by_cases hzero : @unpackMantissa Format.binary64 b = 0#52
    · rw [if_pos hzero, hones, hzero]
      rfl
    · exact absurd (if_neg hzero) h
  · rw [if_neg hones]
    by_cases hlow : @unpackExponent Format.binary64 b = 0#11
    · rw [if_pos hlow]
      by_cases hzero : @unpackMantissa Format.binary64 b = 0#52
      · rw [dif_pos hzero, hlow, hzero]
        rfl
      · rw [dif_neg hzero, hlow]
        exact pack_subnormal _ _
    · rw [if_neg hlow]
      exact pack_normal _ _ hones _

/-- A pattern with a hidden bit is a number. -/
theorem toBits_ofBits {u : UInt64} (hlow : u.toNat / hiddenBit % 2048 ≠ 0)
    (hhigh : u.toNat / hiddenBit % 2048 ≠ 2047) :
    (Float.ofBits u).toBits = u := by
  have hexponent := toNat_unpackExponent u.toBitVec
  have hones : @unpackExponent Format.binary64 u.toBitVec ≠ -1#11 := fun h => by
    rw [h] at hexponent
    exact hhigh hexponent.symm
  have hzero : @unpackExponent Format.binary64 u.toBitVec ≠ 0#11 := fun h => by
    rw [h] at hexponent
    exact hlow hexponent.symm
  refine congrArg UInt64.ofBitVec (pack_unpack fun h => ?_)
  rw [unpack, if_neg hones, if_neg hzero] at h
  cases h

/-- Only the patterns that are no number lose bits on the way to a number. -/
theorem toBits_toFloat {x : Double} (h : x.isNaN = false) : x.toFloat.toBits = x.bits := by
  refine congrArg UInt64.ofBitVec (pack_unpack fun hnan => ?_)
  have hbits : x.toFloat.toBits.toBitVec = packedNaN Format.binary64 :=
    congrArg (pack Format.binary64) hnan
  have hisNaN : x.isNaN = (unpack Format.binary64 x.toFloat.toBits.toBitVec).isNaN := rfl
  rw [hisNaN, hbits] at h
  exact absurd h (by decide)

/-! ## Numbers -/

/-- The number that a double is, unless it is infinite or none. -/
def value? (x : Float) : Option ℚ :=
  if x.isFinite then
    let d := Decimal.Dyadic.ofFloat x
    some ((if isNegative x then -1 else 1) * d.mantissa * 2 ^ d.exponent)
  else none

/-- The bits of a number with a hidden bit. -/
theorem value?_withSign (negative : Bool) {exponent fraction : Nat} (hlow : 0 < exponent)
    (hhigh : exponent < 2047) (hfraction : fraction < hiddenBit) :
    value? (withSign negative (exponent * hiddenBit + fraction))
      = some ((if negative then -1 else 1) * ((hiddenBit + fraction : Nat) : ℚ)
        * 2 ^ ((exponent : ℤ) - 1075)) := by
  obtain ⟨bits, hbits⟩ : ∃ bits, bits = if negative then
      0x8000000000000000 + (exponent * hiddenBit + fraction)
      else exponent * hiddenBit + fraction := ⟨_, rfl⟩
  have hparts : bits < 2 ^ 64 ∧ bits / hiddenBit % 2048 = exponent
      ∧ bits % hiddenBit = fraction
      ∧ (0x8000000000000000 ≤ bits ↔ negative = true) := by
    unfold hiddenBit at *
    cases negative with
    | false =>
        rw [if_neg Bool.false_ne_true] at hbits
        exact ⟨by omega, by omega, by omega, fun h => absurd h (by omega), nofun⟩
    | true =>
        rw [if_pos rfl] at hbits
        exact ⟨by omega, by omega, by omega, fun _ => rfl, fun _ => by omega⟩
  obtain ⟨hlt, hexponent, hrest, hsign⟩ := hparts
  have htoNat : (UInt64.ofNat bits).toNat = bits := UInt64.toNat_ofNat_of_lt' hlt
  have hx : (withSign negative (exponent * hiddenBit + fraction)).toBits
      = UInt64.ofNat bits := by
    rw [withSign, ← hbits]
    exact toBits_ofBits (by rw [htoNat, hexponent]; exact hlow.ne')
      (by rw [htoNat, hexponent]; exact hhigh.ne)
  have hnegative : isNegative (withSign negative (exponent * hiddenBit + fraction))
      = negative := by
    rw [isNegative, hx, Bool.eq_iff_iff, decide_eq_true_iff, UInt64.le_iff_toNat_le, htoNat]
    exact hsign
  have hfinite : (withSign negative (exponent * hiddenBit + fraction)).isFinite = true := by
    rw [isFinite_eq, hx, htoNat, hexponent]
    exact decide_eq_true hhigh.ne
  rw [value?, if_pos hfinite, hnegative, Decimal.Dyadic.ofFloat, hx, htoNat]
  simp only [hexponent, hrest, if_neg hlow.ne', Nat.add_comm fraction]

/-! ## Conversion -/

/-- A number that has a mantissa is converted by its parts. -/
theorem nearestBits_eq {n mantissa scale : Nat} (hlow : hiddenBit ≤ mantissa)
    (hhigh : mantissa < 2 * hiddenBit) (hscale : scale ≤ 1023)
    (h : mantissa * 2 ^ scale = n * hiddenBit) :
    nearestBits n 0 = (scale + 1023) * hiddenBit + (mantissa - hiddenBit) := by
  have hsize : hiddenBit = 2 ^ 52 := rfl
  have hn : n ≠ 0 := by
    rintro rfl
    have := Nat.two_pow_pos scale
    rw [Nat.zero_mul, Nat.mul_eq_zero] at h
    omega
  have hlog : n.log2 = scale := by
    refine (Nat.log2_eq_iff hn).2 ⟨?_, ?_⟩
    · refine Nat.le_of_mul_le_mul_right ?_ (show 0 < hiddenBit by decide)
      rw [← h, Nat.mul_comm]
      exact Nat.mul_le_mul_right _ hlow
    · refine Nat.lt_of_mul_lt_mul_right (a := hiddenBit) ?_
      rw [← h, Nat.pow_succ, Nat.mul_assoc, Nat.mul_comm mantissa]
      exact Nat.mul_lt_mul_of_pos_left hhigh (Nat.two_pow_pos scale)
  have hexponent : max ((0 : Int) + n.log2 - 52) (-1074) = scale - 52 := by omega
  rw [nearestBits, if_neg hn, hexponent]
  have hmantissa : (if (scale : Int) - 52 ≤ 0 then n <<< (0 - ((scale : Int) - 52)).toNat
      else halve n ((scale : Int) - 52 - 0).toNat) = mantissa := by
    split
    · next hle =>
        have hpow : 2 ^ (52 - scale) * 2 ^ scale = hiddenBit := by
          rw [← Nat.pow_add, Nat.sub_add_cancel (by omega), hsize]
        rw [show (0 - ((scale : Int) - 52)).toNat = 52 - scale by omega, Nat.shiftLeft_eq]
        refine Nat.eq_of_mul_eq_mul_right (Nat.two_pow_pos scale) ?_
        rw [Nat.mul_assoc, hpow, h]
    · next hlt =>
        have hpow : 2 ^ (scale - 52) * hiddenBit = 2 ^ scale := by
          rw [hsize, ← Nat.pow_add, Nat.sub_add_cancel (by omega)]
        have hwhole : n = mantissa * 2 ^ (scale - 52) := by
          refine Nat.eq_of_mul_eq_mul_right (show 0 < hiddenBit by decide) ?_
          rw [← h, Nat.mul_assoc, hpow]
        rw [show ((scale : Int) - 52 - 0).toNat = scale - 52 by omega, halve,
          Nat.shiftLeft_eq, Nat.one_mul, hwhole, Nat.mul_div_cancel _ (Nat.two_pow_pos _),
          Nat.mul_mod_left]
        have := Nat.two_pow_pos (scale - 52)
        simp [this.ne]
  dsimp only
  rw [hmantissa, if_neg hhigh.ne]
  dsimp only
  rw [if_neg (by omega), if_neg (by omega)]
  congr 2
  omega


/-- A finite double is a mantissa of 53 bits, scaled. -/
theorem exists_of_value? {x : Float} {q : ℚ} (h : value? x = some q) :
    ∃ (mantissa : Nat) (exponent : Int),
      mantissa < 2 * hiddenBit ∧ exponent ≤ 971 ∧ |q| = mantissa * 2 ^ exponent := by
  unfold value? at h
  split at h
  · next hfinite =>
      rw [isFinite_eq, decide_eq_true_iff] at hfinite
      refine ⟨(Decimal.Dyadic.ofFloat x).mantissa,
        (Decimal.Dyadic.ofFloat x).exponent, ?_, ?_, ?_⟩
      · unfold Decimal.Dyadic.ofFloat hiddenBit
        dsimp only
        split <;> dsimp only <;> omega
      · unfold Decimal.Dyadic.ofFloat
        dsimp only
        split <;> dsimp only <;> omega
      · cases h
        have hpow : (0 : ℚ) ≤ 2 ^ (Decimal.Dyadic.ofFloat x).exponent := by positivity
        rw [abs_mul, abs_mul, abs_of_nonneg hpow, Nat.abs_cast]
        split <;> simp
  · cases h

/-- A large whole number that is a double is a mantissa shifted up. -/
theorem exists_shift {n : Nat} (hn : 2 * hiddenBit ≤ n) {m : Nat} {e : Int}
    (hm : m < 2 * hiddenBit) (he : e ≤ 971) (h : (n : ℚ) = m * 2 ^ e) :
    ∃ k : Nat, k ≤ 971 ∧ n = m * 2 ^ k := by
  obtain ⟨k, rfl | rfl⟩ := e.eq_nat_or_neg
  · refine ⟨k, by omega, ?_⟩
    rw [zpow_natCast] at h
    exact_mod_cast h
  · -- A negative exponent makes nothing larger.
    have hle : (m : ℚ) * 2 ^ (-(k : ℤ)) ≤ m :=
      mul_le_of_le_one_right (Nat.cast_nonneg m)
        (zpow_le_one_of_nonpos₀ one_le_two (by omega))
    have hlt : (m : ℚ) < n := by exact_mod_cast hm.trans_le hn
    exact absurd (h.trans_le hle) (not_le.2 hlt)

/-- A whole number that is a double has a mantissa. -/
theorem exists_mantissa {n : Nat} (hn : n ≠ 0) {x : Float} {q : ℚ} (hq : |q| = n)
    (h : value? x = some q) :
    ∃ mantissa scale : Nat, hiddenBit ≤ mantissa ∧ mantissa < 2 * hiddenBit ∧ scale ≤ 1023
      ∧ mantissa * 2 ^ scale = n * hiddenBit := by
  have hsize : hiddenBit = 2 ^ 52 := rfl
  have htwice : 2 * hiddenBit = 2 ^ 53 := rfl
  obtain ⟨m, e, hm, he, hvalue⟩ := exists_of_value? h
  rw [hq] at hvalue
  have hlow := Nat.log2_self_le hn
  have hhigh := @Nat.lt_log2_self n
  rcases Nat.lt_or_ge 52 n.log2 with hlog | hlog
  · obtain ⟨k, hk, rfl⟩ :=
      exists_shift (htwice ▸ (Nat.pow_le_pow_right two_pos hlog).trans hlow) hm he hvalue
    have hlt : (m * 2 ^ k).log2 < 53 + k := by
      refine (Nat.pow_lt_pow_iff_right (by decide : 1 < 2)).1 (hlow.trans_lt ?_)
      rw [Nat.pow_add]
      exact Nat.mul_lt_mul_of_pos_right (htwice ▸ hm) (Nat.two_pow_pos k)
    obtain ⟨s, hs⟩ : ∃ s, (m * 2 ^ k).log2 = s + 52 := ⟨_, (Nat.sub_add_cancel hlog.le).symm⟩
    have hdvd : 2 ^ s ∣ m * 2 ^ k := (Nat.pow_dvd_pow 2 (by omega)).mul_left m
    have hpow : 2 ^ (s + 52) = 2 ^ s * 2 ^ 52 := Nat.pow_add ..
    have hnext : 2 ^ (s + 52 + 1) = 2 ^ 53 * 2 ^ s := by rw [← Nat.pow_add, Nat.add_comm 53]
    refine ⟨m * 2 ^ k / 2 ^ s, s + 52, ?_, ?_, by omega, ?_⟩
    · rw [Nat.le_div_iff_mul_le (Nat.two_pow_pos s), hsize, Nat.mul_comm, ← hpow, ← hs]
      exact hlow
    · rw [Nat.div_lt_iff_lt_mul (Nat.two_pow_pos s), htwice, ← hnext, ← hs]
      exact hhigh
    · rw [hpow, ← Nat.mul_assoc, Nat.div_mul_cancel hdvd, hsize]
  · have hpow : 2 ^ n.log2 * 2 ^ (52 - n.log2) = 2 ^ 52 := by
      rw [← Nat.pow_add, Nat.add_sub_cancel' hlog]
    have hnext : 2 ^ (n.log2 + 1) * 2 ^ (52 - n.log2) = 2 ^ 53 := by
      rw [← Nat.pow_add]
      congr 1
      omega
    refine ⟨n * 2 ^ (52 - n.log2), n.log2, ?_, ?_, by omega, ?_⟩
    · rw [hsize, ← hpow]
      exact Nat.mul_le_mul_right _ hlow
    · rw [htwice, ← hnext]
      exact Nat.mul_lt_mul_of_pos_right hhigh (Nat.two_pow_pos _)
    · rw [hsize, Nat.mul_assoc, Nat.mul_comm (2 ^ (52 - n.log2)), hpow]

/-- A whole number that some double is equal to is converted to it. -/
theorem value?_ofInt {n : Int} (h : ∃ x, value? x = some (n : ℚ)) :
    value? (ofInt n) = some (n : ℚ) := by
  obtain ⟨x, hx⟩ := h
  rcases eq_or_ne n 0 with rfl | hn
  · have hzero : ofInt 0 = Float.ofBits 0 := rfl
    have hfinite : (Float.ofBits 0).isFinite = true := rfl
    rw [hzero, value?, if_pos hfinite]
    simp [Decimal.Dyadic.ofFloat, show (Float.ofBits 0).toBits = 0 from rfl]
  · obtain ⟨mantissa, scale, hlow, hhigh, hscale, hvalue⟩ :=
      exists_mantissa (Int.natAbs_ne_zero.2 hn) (by rw [Nat.cast_natAbs, Int.cast_abs]) hx
    have hfraction : mantissa - hiddenBit < hiddenBit := by omega
    rw [ofInt, nearest, nearestBits_eq hlow hhigh hscale hvalue,
      value?_withSign _ (by omega) (by omega) hfraction, Nat.add_sub_cancel' hlow]
    have hscaled : (mantissa : ℚ) * 2 ^ (((scale + 1023 : Nat) : ℤ) - 1075) = n.natAbs := by
      have hq : (mantissa : ℚ) * 2 ^ scale = n.natAbs * 2 ^ 52 := by exact_mod_cast hvalue
      rw [show ((scale + 1023 : Nat) : ℤ) - 1075 = scale - 52 by omega,
        zpow_sub₀ two_ne_zero, zpow_natCast, mul_div_assoc', hq]
      exact mul_div_cancel_right₀ _ (by positivity)
    rw [mul_assoc, hscaled, Nat.cast_natAbs, Int.cast_abs]
    congr 1
    rcases lt_or_ge n 0 with hneg | hpos
    · rw [if_pos (decide_eq_true hneg), abs_of_neg (by exact_mod_cast hneg),
        neg_one_mul, neg_neg]
    · rw [if_neg (by simpa using hpos), abs_of_nonneg (by exact_mod_cast hpos), one_mul]

/-! ## Order -/

theorem halve_mono {m n : Nat} (h : m ≤ n) (s : Nat) : halve m s ≤ halve n s := by
  have hdiv : m / (1 <<< s) ≤ n / (1 <<< s) := Nat.div_le_div_right h
  have hm := Nat.div_add_mod m (1 <<< s)
  have hn := Nat.div_add_mod n (1 <<< s)
  unfold halve
  dsimp only
  rcases Nat.lt_or_eq_of_le hdiv with hlt | heq
  · split <;> split <;> omega
  · -- With the same whole part it is the rest that decides.
    rw [heq] at hm ⊢
    have hrest : m % (1 <<< s) ≤ n % (1 <<< s) := by omega
    split
    · next hup =>
        rw [if_pos]
        simp only [Bool.or_eq_true, Bool.and_eq_true, decide_eq_true_eq] at hup ⊢
        omega
    · split <;> omega

/-- The number in units of its last place, of which a mantissa has 53. -/
def mantissaOf (n : Nat) : Nat :=
  if n.log2 ≤ 52 then n <<< (52 - n.log2) else halve n (n.log2 - 52)

theorem mantissaOf_bounds {n : Nat} (hn : n ≠ 0) :
    hiddenBit ≤ mantissaOf n ∧ mantissaOf n ≤ 2 * hiddenBit := by
  have hlow := Nat.log2_self_le hn
  have hhigh := @Nat.lt_log2_self n
  unfold mantissaOf
  split
  · next hle =>
      have hsize : hiddenBit = 2 ^ n.log2 * 2 ^ (52 - n.log2) := by
        rw [← Nat.pow_add, Nat.add_sub_cancel' hle]
        rfl
      have hnext : 2 * hiddenBit = 2 ^ (n.log2 + 1) * 2 ^ (52 - n.log2) := by
        rw [hsize, Nat.pow_succ]
        ring
      rw [Nat.shiftLeft_eq, hnext, hsize]
      exact ⟨Nat.mul_le_mul_right _ hlow, Nat.mul_le_mul_right _ hhigh.le⟩
  · next hlt =>
      have hsize : 2 ^ n.log2 = hiddenBit * 2 ^ (n.log2 - 52) := by
        have hpow : hiddenBit = 2 ^ 52 := rfl
        rw [hpow, ← Nat.pow_add]
        congr 1
        omega
      have hunit := Nat.two_pow_pos (n.log2 - 52)
      have hwhole : hiddenBit ≤ n / 2 ^ (n.log2 - 52)
          ∧ n / 2 ^ (n.log2 - 52) < 2 * hiddenBit := by
        rw [Nat.le_div_iff_mul_le hunit, Nat.div_lt_iff_lt_mul hunit, Nat.mul_assoc, ← hsize]
        exact ⟨hlow, by omega⟩
      rw [halve, Nat.shiftLeft_eq, Nat.one_mul]
      split <;> omega

theorem mantissaOf_mono {m n : Nat} (h : m ≤ n) (hlog : m.log2 = n.log2) :
    mantissaOf m ≤ mantissaOf n := by
  unfold mantissaOf
  rw [hlog]
  split
  · rw [Nat.shiftLeft_eq, Nat.shiftLeft_eq]
    exact Nat.mul_le_mul_right _ h
  · exact halve_mono h _

theorem nearestBits_eq_min {n : Nat} (hn : n ≠ 0) :
    nearestBits n 0 = min ((n.log2 + 1023) * hiddenBit + (mantissaOf n - hiddenBit))
      (2047 * hiddenBit) := by
  have hexponent : max ((0 : Int) + n.log2 - 52) (-1074) = n.log2 - 52 := by omega
  have hmantissa : (if (n.log2 : Int) - 52 ≤ 0 then n <<< (0 - ((n.log2 : Int) - 52)).toNat
      else halve n ((n.log2 : Int) - 52 - 0).toNat) = mantissaOf n := by
    unfold mantissaOf
    split
    · rw [if_pos (by omega)]
      congr 1
      omega
    · rw [if_neg (by omega)]
      congr 1
      omega
  obtain ⟨hlow, hhigh⟩ := mantissaOf_bounds hn
  rw [nearestBits, if_neg hn, hexponent]
  dsimp only
  rw [hmantissa]
  unfold hiddenBit at *
  by_cases hcarry : mantissaOf n = 2 * 0x10000000000000
  · rw [if_pos hcarry]
    dsimp only
    rw [hcarry]
    split
    · omega
    · rw [if_neg (Nat.lt_irrefl _)]
      omega
  · rw [if_neg hcarry]
    dsimp only
    split
    · omega
    · rw [if_neg (by omega)]
      omega

theorem nearestBits_mono {m n : Nat} (h : m ≤ n) : nearestBits m 0 ≤ nearestBits n 0 := by
  rcases eq_or_ne m 0 with rfl | hm
  · rw [nearestBits, if_pos rfl]
    exact Nat.zero_le _
  · have hn : n ≠ 0 := by omega
    rw [nearestBits_eq_min hm, nearestBits_eq_min hn]
    refine min_le_min_right _ ?_
    have hlog : m.log2 ≤ n.log2 := by
      rw [Nat.le_log2 hn]
      exact (Nat.log2_self_le hm).trans h
    have hhigh := (mantissaOf_bounds hm).2
    rcases Nat.lt_or_eq_of_le hlog with hlt | heq
    · have hnext :=
        Nat.mul_le_mul_right hiddenBit (show m.log2 + 1 + 1023 ≤ n.log2 + 1023 by omega)
      rw [Nat.add_right_comm, Nat.add_mul (m.log2 + 1023), Nat.one_mul] at hnext
      omega
    · have hmantissa := mantissaOf_mono h heq
      rw [heq]
      omega

theorem nearestBits_le (n : Nat) : nearestBits n 0 ≤ 2047 * hiddenBit := by
  rcases eq_or_ne n 0 with rfl | hn
  · decide
  · rw [nearestBits_eq_min hn]
    exact min_le_right _ _

/-- The bits of what a whole number is converted to. -/
theorem toBits_withSign {negative : Bool} {magnitude : Nat} (hlow : hiddenBit ≤ magnitude)
    (hhigh : magnitude ≤ 2047 * hiddenBit) :
    (withSign negative magnitude).toBits.toNat = if negative then
      0x8000000000000000 + magnitude else magnitude := by
  rcases Nat.lt_or_eq_of_le hhigh with hlt | rfl
  · unfold hiddenBit at *
    have hroom : (if negative then 0x8000000000000000 + magnitude else magnitude)
      < 2 ^ 64 := by split <;> omega
    have htoNat :
        (UInt64.ofNat (if negative then 0x8000000000000000 + magnitude else magnitude)).toNat
        = if negative then 0x8000000000000000 + magnitude else magnitude :=
          UInt64.toNat_ofNat_of_lt' hroom
    rw [withSign, toBits_ofBits, htoNat]
    · rw [htoNat, hiddenBit]
      split <;> omega
    · rw [htoNat, hiddenBit]
      split <;> omega
  · -- The infinities.
    cases negative <;> rfl

theorem key_ofInt (n : Int) :
    (Double.ofFloat (ofInt n)).key = if n < 0 then -1 - (nearestBits n.natAbs 0 : Int)
      else nearestBits n.natAbs 0 := by
  rcases eq_or_ne n 0 with rfl | hn
  · rfl
  · have habs : n.natAbs ≠ 0 := by omega
    have hhigh := nearestBits_le n.natAbs
    have hlow : hiddenBit ≤ nearestBits n.natAbs 0 := by
      rw [nearestBits_eq_min habs]
      unfold hiddenBit
      omega
    have hbits := @toBits_withSign (decide (n < 0)) _ hlow hhigh
    have hkey : (Double.ofFloat (ofInt n)).bits.toNat = _ := hbits
    unfold Double.key
    rw [hkey]
    unfold hiddenBit at *
    by_cases hneg : n < 0 <;> simp only [hneg, decide_true, decide_false, if_true, if_false,
      Bool.false_eq_true] <;>
      split <;> omega

/-- Conversion keeps the order of whole numbers. -/
theorem key_ofInt_mono {m n : Int} (h : m ≤ n) :
    (Double.ofFloat (ofInt m)).key ≤ (Double.ofFloat (ofInt n)).key := by
  rw [key_ofInt, key_ofInt]
  rcases Int.lt_or_le m 0 with hm | hm
  · rw [if_pos hm]
    rcases Int.lt_or_le n 0 with hn | hn
    · have hbits := nearestBits_mono (show n.natAbs ≤ m.natAbs by omega)
      rw [if_pos hn]
      omega
    · rw [if_neg (by omega)]
      omega
  · have hbits := nearestBits_mono (show m.natAbs ≤ n.natAbs by omega)
    rw [if_neg (by omega), if_neg (by omega)]
    omega

end TypedQuery.Binary64
