/-!
# Double-precision numbers

Two views of doubles: as numbers, to compute with, and by all their bits, as they are kept
and compared. They differ in what is not a number.
-/

namespace TypedQuery.Binary64

/-!
## Doubles as numbers

Arithmetic compares doubles numerically. Equality of bit patterns is reflexive and tells
the two zeros apart. There is one not-a-number here: it carries neither sign nor payload.
-/

theorem toBits_inj {x y : Float} : x.toBits = y.toBits ↔ x = y := by
  constructor
  · intro h
    obtain ⟨⟨a, ha⟩⟩ := x
    obtain ⟨⟨b, hb⟩⟩ := y
    change a = b at h
    subst h
    rfl
  · rintro rfl
    rfl

/-- Equality of bit patterns. -/
instance decidableEqFloat : DecidableEq Float := fun _ _ => decidable_of_iff _ toBits_inj

def infinity : Float := Float.ofBits 0x7ff0000000000000

def notANumber : Float := Float.ofBits 0x7ff8000000000000

end TypedQuery.Binary64

/-!
## Doubles with all their bits

In a literal and in a column a double is its 64 bits, because there even a not-a-number
has a sign and a payload, and two of them with different bits are two literals. In a
column the sign comes from the operation that had no result and goes through those after
it. `Double.order` is the total order of IEEE 754: negative numbers come before positive
ones, -0.0 before 0.0, and a not-a-number comes after positive infinity or, with a sign,
before the negative one.
-/

namespace TypedQuery

structure Double where
  bits : UInt64
  deriving DecidableEq

namespace Double

def ofFloat (x : Float) : Double := ⟨x.toBits⟩

instance : Coe Float Double := ⟨ofFloat⟩

/-- The number; the sign and the payload of a not-a-number are lost. -/
def toFloat (x : Double) : Float := Float.ofBits x.bits

def isNaN (x : Double) : Bool := x.toFloat.isNaN

def isInfinite (x : Double) : Bool := x.toFloat.isInf

def isFinite (x : Double) : Bool := x.toFloat.isFinite

/-! ### Signs -/

def signBit : UInt64 := 0x8000000000000000

def negate (x : Double) : Double := ⟨x.bits ^^^ signBit⟩

def abs (x : Double) : Double := ⟨x.bits &&& ~~~signBit⟩

def isNegative (x : Double) : Bool := signBit ≤ x.bits

theorem negate_negate (x : Double) : x.negate.negate = x := by
  simp only [negate, UInt64.xor_assoc, UInt64.xor_self, UInt64.xor_zero]

/-! ### Operations -/

/-- The not-a-number that an operation gives when numbers have no result under it. -/
def invalid : Double := ⟨0xfff8000000000000⟩

/-- A function on doubles; a not-a-number that goes in comes out as it is. -/
def lift (f : Float → Float) (x : Double) : Double :=
  let y := f x.toFloat
  if !y.isNaN then ofFloat y else if x.isNaN then x else invalid

/-- An operation on doubles; of two numbers that are none the first one comes out. -/
def lift₂ (f : Float → Float → Float) (x y : Double) : Double :=
  let z := f x.toFloat y.toFloat
  if !z.isNaN then ofFloat z else if x.isNaN then x else if y.isNaN then y else invalid

instance : Add Double := ⟨lift₂ (· + ·)⟩

instance : Sub Double := ⟨lift₂ (· - ·)⟩

instance : Mul Double := ⟨lift₂ (· * ·)⟩

instance : Div Double := ⟨lift₂ (· / ·)⟩

def zero : Double := ofFloat 0.0

def two : Double := ofFloat 2.0

def ofNat (n : Nat) : Double := ofFloat (Float.ofNat n)

/-- One with the sign of a number, and zero for zero. -/
def sign (x : Double) : Double :=
  if x.toFloat == 0.0 then zero
  else if x.isNaN then ofFloat Binary64.notANumber
  else ofFloat (if x.isNegative then -1.0 else 1.0)

/-! ### Order -/

/-- The position in the total order. -/
def key (x : Double) : Int :=
  let bits := x.bits.toNat
  if bits < 0x8000000000000000 then bits else 0x7fffffffffffffff - (bits : Int)

theorem key_inj {x y : Double} : x.key = y.key ↔ x = y := by
  obtain ⟨x⟩ := x
  obtain ⟨y⟩ := y
  simp only [mk.injEq, ← UInt64.toNat_inj, key]
  split <;> split <;> omega

def order (x y : Double) : Ordering := compare x.key y.key

end Double

end TypedQuery
