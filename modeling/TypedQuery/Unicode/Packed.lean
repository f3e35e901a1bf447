/-!
# Packed tables of code points

The tables of the character database are kept as text: numbers in base 36, written in the
order in which a reader needs them. This module unpacks three forms (ranges, labelled runs,
shifted runs) and looks code points up in them by bisection.
-/

namespace TypedQuery.Unicode

/-! ## Numbers and words -/

def digit36? (c : Char) : Option Nat :=
  if '0' ≤ c ∧ c ≤ '9' then some (c.toNat - '0'.toNat)
  else if 'a' ≤ c ∧ c ≤ 'z' then some (c.toNat - 'a'.toNat + 10)
  else none

def number36 (cs : List Char) : Nat := cs.foldl (fun n c => 36 * n + (digit36? c).getD 0) 0

/-- Splits at every occurrence of a character. -/
def splitAt (sep : Char) (cs : List Char) : List (List Char) :=
  let (done, last) := cs.foldl (fun (done, word) c =>
    if c = sep then (word.reverse :: done, []) else (done, c :: word)) ([], [])
  (last.reverse :: done).reverse

/-- The words of a text separated by blanks and line breaks. -/
def words (text : String) : List (List Char) :=
  (splitAt ' ' (text.toList.map fun c => if c = '\n' then ' ' else c)).filter (!·.isEmpty)

/-- Pairs written `first:second`. -/
def unpackPairs (text : String) : List (String × String) :=
  (words text).map fun w =>
    (String.ofList (w.takeWhile (· ≠ ':')), String.ofList ((w.dropWhile (· ≠ ':')).drop 1))

/-- Entries written `key=a.b.c`. -/
def unpackSequences (text : String) : List (Nat × List Nat) :=
  (words text).map fun w =>
    (number36 (w.takeWhile (· ≠ '=')),
      (splitAt '.' ((w.dropWhile (· ≠ '=')).drop 1)).map number36)

/-! ## Bisection -/

/-- The last index in `[low, high)` whose key is at most `n`, given that the key at `low`
is. -/
def lastAtMost (key : Nat → Nat) (n low high : Nat) : Nat :=
  if low + 1 < high then
    let middle := (low + high) / 2
    if key middle ≤ n then lastAtMost key n middle high else lastAtMost key n low middle
  else low
termination_by high - low

/-! ## Sets of ranges -/

/-- Ranges with both ends included, in ascending order. -/
structure RangeSet where
  ranges : Array (Nat × Nat)

def RangeSet.contains (s : RangeSet) (n : Nat) : Bool :=
  let at' (i : Nat) := s.ranges.getD i (0, 0)
  let (low, high) := at' (lastAtMost (fun i => (at' i).1) n 0 s.ranges.size)
  !s.ranges.isEmpty && low ≤ n && n ≤ high

/-- Gap and length of each range in turn. -/
def RangeSet.unpack (text : String) : RangeSet :=
  let rec go (start : Nat) : List (List Char) → List (Nat × Nat)
    | gap :: length :: rest =>
      let low := start + number36 gap
      let next := low + number36 length
      (low, next - 1) :: go next rest
    | _ => []
  ⟨(go 0 (words text)).toArray⟩

/-! ## Labelled runs -/

/-- Starts of runs with the label of each run. -/
structure Runs where
  starts : Array (Nat × String)

def Runs.at (r : Runs) (n : Nat) : String :=
  (r.starts.getD
    (lastAtMost (fun i => (r.starts.getD i (0, "")).1) n 0 r.starts.size) (0, "")).2

/-- Length of a run in lower case, then a label of `width` letters that starts with a
capital. -/
def Runs.unpack (width : Nat) (text : String) : Runs :=
  let step := fun (done, start, length, label) (c : Char) =>
    if label.isEmpty && (digit36? c).isSome then
      (done, start, 36 * length + (digit36? c).getD 0, label)
    else
      let label := label ++ [c]
      if label.length = width then
        ((start, String.ofList label) :: done, start + length, 0, [])
      else (done, start, length, label)
  let (done, _) := (text.toList.filter (· ≠ '\n')).foldl step
    (([] : List (Nat × String)), 0, 0, ([] : List Char))
  ⟨done.reverse.toArray⟩

/-- The code points whose label satisfies a condition, as ranges. -/
def Runs.select (r : Runs) (keep : String → Bool) : RangeSet :=
  let ends := (r.starts.toList.drop 1).map (·.1) ++ [0x110000]
  ⟨((r.starts.toList.zip ends).filterMap fun ((start, label), next) =>
    if keep label then some (start, next - 1) else none).toArray⟩

/-! ## Shifted runs -/

/-- `count` characters from `start` on, `stride` apart, each with its image at the same
distance. -/
structure ShiftRun where
  start : Nat
  stride : Nat
  count : Nat
  shift : Int

def ShiftRun.covers (r : ShiftRun) (n : Nat) : Bool :=
  r.start ≤ n && (n - r.start) % r.stride = 0 && (n - r.start) / r.stride < r.count

structure ShiftRuns where
  runs : Array ShiftRun

/-- Image of a code point; code points outside all runs are their own image. -/
def ShiftRuns.map (s : ShiftRuns) (n : Nat) : Nat :=
  let run (i : Nat) := s.runs.getD i ⟨0, 1, 0, 0⟩
  let r := run (lastAtMost (fun i => (run i).start) n 0 s.runs.size)
  if r.covers n then (n + r.shift).toNat else n

/-- The code points with a given image, apart from the image itself. -/
def ShiftRuns.preimages (s : ShiftRuns) (image : Nat) : List Nat :=
  s.runs.toList.filterMap fun r =>
    let n := ((image : Int) - r.shift).toNat
    if r.covers n && n + r.shift = (image : Int) then some n else none

def ShiftRuns.unpack (text : String) : ShiftRuns :=
  let isMark (c : Char) := c = '.' || c = ':'
  let isSign (c : Char) := c = '+' || c = '-'
  let rec go (previous : Nat) : List (List Char) → List ShiftRun
    | [] => []
    | w :: rest =>
      let start := previous + number36 (w.takeWhile (!isMark ·))
      let tail := w.dropWhile (!isMark ·)
      let stride := if tail.head? = some ':' then 2 else 1
      let count := number36 ((tail.drop 1).takeWhile (!isSign ·))
      let shift := tail.dropWhile (!isSign ·)
      let distance : Int := number36 (shift.drop 1)
      ⟨start, stride, count, if shift.head? = some '-' then -distance else distance⟩
        :: go start rest
  ⟨(go 0 (words text)).toArray⟩

end TypedQuery.Unicode
