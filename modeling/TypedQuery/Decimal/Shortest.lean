/-!
# The shortest decimal that reads back

A finite double is `mantissa * 2 ^ exponent`. The reals that round to it form an
interval whose ends are halfway to its neighbours; an end belongs to the interval
exactly when the mantissa is even. `shortest` looks for a point of that interval on
coarser decimal grids first: one digit, two digits, and so on. On each grid only the two
neighbours of the number can be nearest, so they are the only ones tested. All of it is
exact arithmetic on natural numbers.
-/

namespace TypedQuery.Decimal

/-- The magnitude of a finite double: `mantissa * 2 ^ exponent`. -/
structure Dyadic where
  mantissa : Nat
  exponent : Int

/-- The leading bit of a normal mantissa, which is not stored: 2 to the 52. -/
def hiddenBit : Nat := 0x10000000000000

def Dyadic.ofFloat (x : Float) : Dyadic :=
  let bits := x.toBits.toNat
  let fraction := bits % hiddenBit
  let biased := bits / hiddenBit % 2048
  if biased = 0 then ⟨fraction, -1074⟩ else ⟨fraction + hiddenBit, (biased : Int) - 1075⟩

/-- The number `digits * 10 ^ exponent`. -/
structure Scaled where
  digits : Nat
  exponent : Int

/-- Number of decimal digits of a positive number. -/
def digitCount (n : Nat) : Nat := (Nat.toDigits 10 n).length

/-- Removes up to `fuel` trailing zeros. -/
def stripZeros : Nat → Scaled → Scaled
  | 0, d => d
  | fuel + 1, d => if d.digits % 10 = 0 then
    stripZeros fuel ⟨d.digits / 10, d.exponent + 1⟩ else d

/-- A quotient of natural numbers equal to `n * 2 ^ two * 10 ^ ten`. -/
def quotient (n : Nat) (two ten : Int) : Nat × Nat :=
  ((n <<< two.toNat) * Nat.pow 10 ten.toNat, Nat.pow 10 (-ten).toNat <<< (-two).toNat)

/-- The least `k` such that the number is below `10 ^ k`. -/
def Dyadic.pointPosition (v : Dyadic) : Int :=
  let (a, b) := quotient v.mantissa v.exponent 0
  if b ≤ a then digitCount (a / b)
  else
    let d : Int := digitCount (b / a)
    if a * Nat.pow 10 (d - 1).toNat = b then 2 - d else 1 - d

/-- The nearest point of the grid `10 ^ p` inside the rounding interval, if there is one;
of two equally near points the larger one when `tieUp` holds and else the even one. -/
def Dyadic.gridPoint (v : Dyadic) (tieUp : Bool) (p : Int) : Option Nat :=
  -- numbers are compared after multiplication by `4 / (2 ^ exponent * 10 ^ p)`
  let (num, den) := quotient 1 (v.exponent - 2) (-p)
  let value := 4 * v.mantissa * num
  let low := (4 * v.mantissa
    - (if v.mantissa = hiddenBit ∧ -1074 < v.exponent then 1 else 2)) * num
  let high := (4 * v.mantissa + 2) * num
  let inside (n : Nat) : Bool :=
    if v.mantissa % 2 = 0 then low ≤ n * den ∧ n * den ≤ high else low < n * den
      ∧ n * den < high
  let below := value / den
  let above := below + 1
  match 0 < below && inside below, inside above with
  | true, true =>
    let down := value - below * den
    let up := above * den - value
    if down < up then some below
    else if up < down then some above
    else if tieUp || below % 2 = 1 then some above else some below
  | true, false => some below
  | false, true => some above
  | false, false => none

/-- The shortest decimal of a positive number; seventeen digits always suffice. -/
def Dyadic.shortest (v : Dyadic) (tieUp : Bool) : Scaled :=
  let position := v.pointPosition
  let grid (k : Nat) : Option Scaled :=
    (v.gridPoint tieUp (position - k)).map fun n => stripZeros 20 ⟨n, position - k⟩
  ((List.range 18).findSome? fun k => if k = 0 then none else grid k).getD ⟨0, 0⟩

/-!
## Written forms of doubles

Every text form of a double has the same digits, the shortest ones; forms differ in where
positional notation ends and in how the exponent is written. A `Style` records these
choices. The three styles of the library are values of it: the one of messages and
literals, the one of JSON and the one of converted cells.
-/

structure Style where
  /-- Of two equally near decimals take the larger one. -/
  tieUp : Bool
  /-- Least position of the first digit after the point that is still written positionally.
  -/
  leastPoint : Int
  greatestPoint : Int
  /-- What stands before an exponent that is not negative. -/
  plus : String

namespace Style

/-- Messages, outlines and SQL literals: positional from 0.0001 up to below 10^16. -/
def plain : Style := ⟨true, -3, 16, ""⟩

/-- JSON numbers: positional from 0.00001, and a plus sign in front of the exponent. -/
def json : Style := ⟨false, -4, 16, "+"⟩

/-- Cells converted to text: positional from 0.00001. -/
def cell : Style := ⟨false, -4, 16, ""⟩

def zeros (n : Nat) : String := String.ofList (List.replicate n '0')

/-- Writes a positive number in digits. -/
def renderScaled (s : Style) (d : Scaled) : String :=
  let digits := Nat.toDigits 10 d.digits
  let point : Int := digits.length + d.exponent
  if s.leastPoint ≤ point ∧ point ≤ s.greatestPoint then
    if point ≤ 0 then "0." ++ zeros (-point).toNat ++ String.ofList digits
    else if 0 ≤ d.exponent then String.ofList digits ++ zeros d.exponent.toNat ++ ".0"
    else String.ofList (digits.take point.toNat) ++ "."
      ++ String.ofList (digits.drop point.toNat)
  else
    let exponent := point - 1
    let mark := if exponent < 0 then "e" else "e" ++ s.plus
    let lead := String.ofList (digits.take 1)
    let rest := digits.drop 1
    (if rest.isEmpty then lead else lead ++ "." ++ String.ofList rest) ++ mark
      ++ toString exponent

def render (s : Style) (x : Float) : String :=
  if x.isNaN then "NaN"
  else
    let negative := 0x8000000000000000 ≤ x.toBits
    let sign := if negative then "-" else ""
    if x.isInf then sign ++ "inf"
    else
      let v := Dyadic.ofFloat x
      if v.mantissa = 0 then sign ++ "0.0" else sign ++ s.renderScaled (v.shortest s.tieUp)

end Style

end TypedQuery.Decimal
