import TypedQuery.Binary64.Double
import TypedQuery.Decimal.Shortest

/-!
# Exact arithmetic on doubles

A finite double is a whole number times a power of two. Rounding to whole numbers,
remainders and the conversion of whole numbers are done on that form, and `nearest`
goes back: it is the double nearest to `n * 2 ^ e`, of two equally near ones the
one with an even mantissa.
-/

namespace TypedQuery.Binary64

open Decimal (hiddenBit)

def isNegative (x : Float) : Bool := 0x8000000000000000 ≤ x.toBits

def withSign (negative : Bool) (magnitude : Nat) : Float :=
  Float.ofBits (UInt64.ofNat
    (if negative then 0x8000000000000000 + magnitude else magnitude))

/-- `n / 2 ^ s`, rounded to the nearest whole number and to the even one when both are as
near. -/
def halve (n s : Nat) : Nat :=
  let unit := 1 <<< s
  let whole := n / unit
  let rest := 2 * (n % unit)
  if unit < rest || (rest = unit && whole % 2 = 1) then whole + 1 else whole

/-- The bits of the double nearest to `n * 2 ^ e`, without a sign. -/
def nearestBits (n : Nat) (e : Int) : Nat :=
  if n = 0 then 0
  else
    let exponent := max (e + Nat.log2 n - 52) (-1074)
    let mantissa :=
      if exponent ≤ e then n <<< (e - exponent).toNat else halve n (exponent - e).toNat
    let (mantissa, exponent) := if mantissa = 2 * hiddenBit then (hiddenBit, exponent + 1)
      else (mantissa, exponent)
    if 971 < exponent then 2047 * hiddenBit
    else if mantissa < hiddenBit then mantissa
    else (exponent + 1075).toNat * hiddenBit + (mantissa - hiddenBit)

def nearest (negative : Bool) (n : Nat) (e : Int) : Float :=
  withSign negative (nearestBits n e)

def ofInt (n : Int) : Float := nearest (n < 0) n.natAbs 0

/-! ## Whole numbers -/

/-- How much of the magnitude is whole, and whether something, and at least a half, is
left. -/
def wholePart (d : Decimal.Dyadic) : Nat × Bool × Bool :=
  if 0 ≤ d.exponent then (d.mantissa <<< d.exponent.toNat, false, false)
  else
    let scale := 1 <<< (-d.exponent).toNat
    (d.mantissa / scale, d.mantissa % scale ≠ 0, scale ≤ 2 * (d.mantissa % scale))

/-- A finite number without its fraction. -/
def truncate? (x : Float) : Option Int :=
  if x.isFinite then
    let whole := (wholePart (Decimal.Dyadic.ofFloat x)).1
    some (if isNegative x then -(whole : Int) else whole)
  else none

/-- A whole number near a finite one, chosen by its sign and by what is left beside the
whole part; the sign of zero is kept. -/
def toWhole (away : (negative rest half : Bool) → Bool) (x : Float) : Float :=
  if x.isFinite then
    let (whole, rest, half) := wholePart (Decimal.Dyadic.ofFloat x)
    nearest (isNegative x) (if away (isNegative x) rest half then whole + 1 else whole) 0
  else x

def floor : Float → Float := toWhole fun negative rest _ => negative && rest

def ceil : Float → Float := toWhole fun negative rest _ => !negative && rest

/-- Halves go away from zero. -/
def round : Float → Float := toWhole fun _ _ half => half

/-! ## Remainders -/

/-- What is left of `x` after whole multiples of `y`, with the sign of `x`. -/
def remainder (x y : Float) : Float :=
  if x.isNaN || y.isNaN || x.isInf || y == 0.0 then notANumber
  else if y.isInf then x
  else
    let a := Decimal.Dyadic.ofFloat x
    let b := Decimal.Dyadic.ofFloat y
    let e := min a.exponent b.exponent
    let rest := (a.mantissa <<< (a.exponent - e).toNat)
      % (b.mantissa <<< (b.exponent - e).toNat)
    nearest (isNegative x) rest e

/-!
## Whole powers

Powers by repeated squaring, which fixes the order of the multiplications and with it every
rounding. A negative exponent gives the reciprocal of the positive power.
-/

/-- The product of `result` and a power of `base`. -/
def powerFrom (result base : Float) (exponent : Nat) : Float :=
  let result := if exponent % 2 = 1 then result * base else result
  if h : exponent / 2 = 0 then result else powerFrom result (base * base) (exponent / 2)
termination_by exponent
decreasing_by omega

def power (base : Float) (exponent : Int) : Float :=
  let magnitude := powerFrom 1.0 base exponent.natAbs
  if exponent < 0 then 1.0 / magnitude else magnitude

end TypedQuery.Binary64
