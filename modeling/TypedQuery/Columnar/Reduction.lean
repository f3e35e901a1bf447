import TypedQuery.Columnar.Combine

/-!
# Reductions

A reduction makes one row of a column. Nulls do not take part; a reduction that finds
nothing is null, except that counts are zero and a collected list is empty.
-/

namespace TypedQuery

inductive Reduction where
  | count
  | countDistinct
  | sum
  | mean
  | min
  | max
  | median
  /-- Standard deviation; `lost` is how many degrees of freedom the estimate gives up. -/
  | std (lost : Nat)
  | variance (lost : Nat)
  /-- All values in one list. -/
  | collect
  deriving DecidableEq

/-- Types that can be put in order by themselves: not the type of nulls, and lists
only of plain values. -/
def Physical.isOrdered : Physical → Bool
  | .null => false
  | .list element => !element.isList && decide (element ≠ .null)
  | _ => true

namespace Reduction

/-- The name in written expressions. -/
def name : Reduction → String
  | count => "count"
  | countDistinct => "n_unique"
  | sum => "sum"
  | mean => "mean"
  | min => "min"
  | max => "max"
  | median => "median"
  | std _ => "std"
  | variance _ => "var"
  | collect => "implode"

/-! ## Values -/

/-- The cells that count as filled. -/
def filledCells (c : Column) : List Cell := ((c.cells.zip c.filled).filter (·.2)).map (·.1)

def floatValues (c : Column) : Except Error (List Double) :=
  do .ok ((← c.toFloats).filterMap id)

def intValues (c : Column) : Except Error (List Int) := do .ok ((← c.toInts).filterMap id)

def single (type : Physical) (cell : Cell) : Column := ⟨type, [cell]⟩

def oneInt (n : Nat) : Column := single .int64 (.int n)

def oneFloat (x : Option Double) : Column := single .float64 (.ofOption .float x)

/-! ## Sums -/

/-- The sum with 64 bits; higher ones are dropped. -/
def sumInts (ns : List Int) : Cell :=
  if ns.isEmpty then .null else .int (Cast.wrap64 (ns.foldl (· + ·) 0))

def sumFloats (xs : List Double) : Option Double :=
  if xs.isEmpty then none else some (xs.foldl (· + ·) .zero)

def meanOf (xs : List Double) : Option Double := (sumFloats xs).map (· / .ofNat xs.length)

/-! ## Order -/

/-- The first cell in an order. -/
def leastCell (before : Cell → Cell → Bool) : List Cell → Option Cell
  | [] => none
  | c :: rest =>
    match leastCell before rest with
    | some d => some (if before d c then d else c)
    | none => some c

/-- The least or the greatest cell; null if there are only nulls. Nulls inside lists come
last in either direction. -/
def extreme (greatest : Bool) (c : Column) : Except Error Column :=
  if c.cells.isEmpty then .ok (single c.type .null)
  else if !c.type.isOrdered then .error (.compute .unsupported)
  else
    let before (a b : Cell) : Bool :=
      if greatest then Cell.order true a b = .gt else Cell.order false a b = .lt
    .ok (single c.type
      ((leastCell before (c.cells.filter (!·.isNull))).getD (c.cells.headD .null)))

/-- The middle value, or halfway between the two middle ones. -/
def medianOf (xs : List Double) : Option Double :=
  let sorted := xs.mergeSort fun a b => a.order b ≠ .gt
  let half := sorted.length / 2
  if sorted.length % 2 = 1 then sorted[half]?
  else do
    let low ← if half = 0 then none else sorted[half - 1]?
    let high ← sorted[half]?
    some ((low + high) / .two)

/-! ## Spread -/

/-- What a running variance knows: how many values there were, their mean, and the
sum of squares about it. -/
structure Moments where
  count : Nat
  mean : Double
  squares : Double

def Moments.add (m : Moments) (x : Double) : Moments :=
  let count := m.count + 1
  let delta := x - m.mean
  let mean := m.mean + delta / .ofNat count
  ⟨count, mean, m.squares + delta * (x - mean)⟩

def varianceOf (lost : Nat) (xs : List Double) : Option Double :=
  let m := xs.foldl Moments.add ⟨0, .zero, .zero⟩
  if m.count ≤ lost then none else some (m.squares / .ofNat (m.count - lost))

/-! ## Reducing -/

def apply (c : Column) : Reduction → Except Error Column
  | count => .ok (oneInt (filledCells c).length)
  | countDistinct => .ok (oneInt ((filledCells c).map Cell.bare).eraseDups.length)
  | sum => do
    if c.type = .float64 then .ok (oneFloat (sumFloats (← floatValues c)))
    else .ok (single .int64 (sumInts (← intValues c)))
  | mean => do .ok (oneFloat (meanOf (← floatValues c)))
  | min => extreme false c
  | max => extreme true c
  | median => do .ok (oneFloat (medianOf (← floatValues c)))
  | std lost =>
    do .ok (oneFloat ((varianceOf lost (← floatValues c)).map (Double.lift Float.sqrt)))
  | variance lost => do .ok (oneFloat (varianceOf lost (← floatValues c)))
  | collect => .ok (single (.list c.type) (.list (c.cells.filter (!·.isNull))))

end Reduction

end TypedQuery
