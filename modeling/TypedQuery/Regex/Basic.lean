import TypedQuery.Regex.Pattern
import TypedQuery.Regex.Reader

/-!
# Regular expressions

A pattern is compiled to a program, and a text is searched by running it.
-/

namespace TypedQuery.Regex

/-!
## Programs

A pattern becomes a program: instructions that test a character, a place or nothing and
name the instruction to go on with. A program runs over a text with one thread per
instruction at most, in the order of preference, so that its work is bounded by the sizes
of program and text. Of two threads at the same instruction the later one is dropped, which
changes no answer: whatever it could find, the preferred one finds too.
-/

inductive Instruction where
  | accept
  | consume (set : CharSet) (next : Nat)
  | look (assertion : Assertion) (next : Nat)
  /-- Notes the present place in a slot. -/
  | save (slot next : Nat)
  /-- Goes on in two ways, the first one preferred. -/
  | fork (first second : Nat)

abbrev Code := Array Instruction

/-- Adds an instruction and says where it is. -/
def Code.add (code : Code) (i : Instruction) : Nat × Code := (code.size, code.push i)

def fork (greedy : Bool) (enter leave : Nat) : Instruction :=
  if greedy then .fork enter leave else .fork leave enter

/-- Does something a number of times, from the last time to the first. -/
def times (step : Nat → Code → Nat × Code) : Nat → Nat × Code → Nat × Code
  | 0, state => state
  | n + 1, (next, code) => times step n (step next code)

/-- Adds the instructions for a pattern after which the program goes on at `next`, and
says where they begin. -/
def emit : Pattern → Nat → Code → Nat × Code
  | .empty, next, code => (next, code)
  | .one set, next, code => code.add (.consume set next)
  | .look assertion, next, code => code.add (.look assertion next)
  | .andThen a b, next, code =>
    let (middle, code) := emit b next code
    emit a middle code
  | .either a b, next, code =>
    let (first, code) := emit a next code
    let (second, code) := emit b next code
    code.add (.fork first second)
  | .group index p, next, code =>
    let (stop, code) := code.add (.save (2 * index + 1) next)
    let (inner, code) := emit p stop code
    code.add (.save (2 * index) inner)
  | .repeated p least none greedy, next, code =>
    let (again, code) := code.add .accept
    let (inner, code) := emit p again code
    let code : Code := code.setIfInBounds again (fork greedy inner next)
    if least = 0 then code.add (fork greedy inner next)
    else times (emit p) (least - 1) (inner, code)
  | .repeated p least (some most) greedy, next, code =>
    let option (after : Nat) (code : Code) : Nat × Code :=
      let (inner, code) := emit p after code
      code.add (fork greedy inner next)
    times (emit p) least (times option (most - least) (next, code))

/-! ### Running -/

/-- Places in the text by slot. Slots `2 i` and `2 i + 1` hold where group `i` starts and
ends; group zero is the whole match. -/
abbrev Slots := Array (Option Nat)

structure Thread where
  place : Nat
  slots : Slots

/-- Follows threads through all instructions that consume nothing. `stack` holds the
threads to follow, the preferred first, and `settled` those that wait for a character or
have finished, the last one first. -/
def settle (code : Code) (previous next : Option Char) (position : Nat) :
    Nat → List Thread → Array Bool → List Thread → List Thread
  | 0, _, _, settled => settled.reverse
  | _, [], _, settled => settled.reverse
  | fuel + 1, t :: stack, seen, settled =>
    if seen.getD t.place true then settle code previous next position fuel stack seen settled
    else
      let seen := seen.setIfInBounds t.place true
      match code.getD t.place .accept with
      | .fork first second =>
        settle code previous next position fuel
          ({ t with place := first } :: { t with place := second } :: stack)
          seen settled
      | .look assertion after =>
        let stack :=
          if assertion.holds previous next then { t with place := after } :: stack else stack
        settle code previous next position fuel stack seen settled
      | .save slot after =>
        settle code previous next position fuel
          (⟨after, t.slots.setIfInBounds slot (some position)⟩ :: stack) seen settled
      | .accept | .consume .. =>
        settle code previous next position fuel stack seen (t :: settled)

/-- Each instruction is followed once and puts at most two threads on the stack. -/
def settleAll (code : Code) (previous next : Option Char) (position : Nat)
    (threads : List Thread) : List Thread :=
  settle code previous next position (threads.length + 2 * code.size) threads
    (Array.replicate code.size false) []

def isAccepting (code : Code) (t : Thread) : Bool :=
  match code.getD t.place .accept with
  | .accept => true
  | _ => false

/-- The threads that go on after a character. -/
def step (code : Code) (c : Char) (threads : List Thread) : List Thread :=
  threads.filterMap fun t =>
    match code.getD t.place .accept with
    | .consume set after => if set.contains c then some { t with place := after } else none
    | _ => none

/-- Runs threads, and as long as nothing is found a new one from every place. Once a thread
finishes, those that are preferred to it go on. -/
def run (code : Code) (start : Thread) (threads : List Thread) (found : Option Slots)
    (previous : Option Char) (position : Nat) (text : List Char) : Option Slots :=
  let threads := if found.isNone then threads ++ [start] else threads
  let settled := settleAll code previous text.head? position threads
  let preferred := settled.takeWhile (!isAccepting code ·)
  let found := match settled.drop preferred.length with
    | t :: _ => some t.slots
    | [] => found
  match text with
  | [] => found
  | c :: rest => run code start (step code c preferred) found (some c) (position + 1) rest

end TypedQuery.Regex

/-!
## Searching

A text is searched from left to right. The leftmost match counts, and among those that
start there the one that the pattern prefers. Matches do not overlap, and an empty one does
not touch the end of the one before it.
-/

namespace TypedQuery

structure Regex where
  code : Regex.Code
  start : Nat
  /-- Groups that remember their match, not counting the whole match. -/
  groups : Nat
  names : List (String × Nat)

namespace Regex

/-- Patterns that need more states are refused. -/
def sizeLimit : Nat := 327680

def compile? (text : String) : Option Regex := do
  let reading ← read? text
  if sizeLimit < reading.pattern.size then none
  else
    let (start, code) := emit (.group 0 reading.pattern) 0 #[.accept]
    some ⟨code, start, reading.groups, reading.names⟩

/-- The first match in a text of which `position` characters, the last of them
`previous`, have been passed. -/
def search? (r : Regex) (previous : Option Char) (position : Nat)
    (text : List Char) : Option Slots :=
  run r.code ⟨r.start, Array.replicate (2 * r.groups + 2) none⟩
    [] none previous position text

def firstMatch? (r : Regex) (text : List Char) : Option Slots := r.search? none 0 text

def isMatch (r : Regex) (text : List Char) : Bool := (r.firstMatch? text).isSome

/-- Where a group matched. -/
def Slots.span? (slots : Slots) (group : Nat) : Option (Nat × Nat) := do
  let start ← (← slots[2 * group]?)
  let stop ← (← slots[2 * group + 1]?)
  some (start, stop)

def excerpt (text : List Char) (start stop : Nat) : List Char :=
  (text.drop start).take (stop - start)

/-- The text that a group matched. -/
def Slots.text? (slots : Slots) (text : List Char) (group : Nat) : Option (List Char) :=
  (slots.span? group).map fun (start, stop) => excerpt text start stop

/-- The matches from a position on. `last` is where the match before ended. -/
def matchesFrom (r : Regex) (text : List Char) :
    Nat → (position : Nat) → (last : Option Nat) → List Slots
  | 0, _, _ => []
  | fuel + 1, position, last =>
    let searchAt (i : Nat) : Option Slots :=
      if text.length < i then none
      else r.search? (if i = 0 then none else text[i - 1]?) i (text.drop i)
    match searchAt position with
    | none => []
    | some slots =>
      match slots.span? 0 with
      | none => []
      | some (start, stop) =>
        if start = stop && last = some stop then matchesFrom r text fuel (position + 1) none
        else slots :: matchesFrom r text fuel stop (some stop)

/-- All matches; every second step at least goes on by a character. -/
def allMatches (r : Regex) (text : List Char) : List Slots :=
  r.matchesFrom text (2 * text.length + 2) 0 none

/-! ### Replacement -/

/-- A piece of a replacement: text, or what a group matched. -/
inductive Piece where
  | text (cs : List Char)
  | group (index : Nat)
  | named (name : String)
  deriving DecidableEq

namespace Piece

def isNameChar (c : Char) : Bool := c.isAlphanum || c = '_'

/-- A group by number or name. -/
def ofReference (name : List Char) : Piece :=
  let digits := match name with
    | '+' :: rest => rest
    | cs => cs
  if !digits.isEmpty && digits.all Decimal.isDigit && Decimal.ofDigits digits
    < UInt64.size then
    group (Decimal.ofDigits digits)
  else named (String.ofList name)

/-- What follows a dollar sign: another one, a name in braces, or letters,
digits and underscores. -/
def reference? : List Char → Option (Piece × List Char)
  | '$' :: rest => some (text ['$'], rest)
  | '\x7b' :: rest =>
    match rest.dropWhile (· ≠ '\x7d') with
    | '\x7d' :: after => some (ofReference (rest.takeWhile (· ≠ '\x7d')), after)
    | _ => none
  | cs =>
    let name := cs.takeWhile isNameChar
    if name.isEmpty then none else some (ofReference name, cs.dropWhile isNameChar)

def readFrom : Nat → List Char → List Piece
  | 0, _ => []
  | _, [] => []
  | fuel + 1, '$' :: rest =>
    match reference? rest with
    | some (piece, after) => piece :: readFrom fuel after
    | none => text ['$'] :: readFrom fuel rest
  | fuel + 1, c :: rest => text [c] :: readFrom fuel rest

/-- The pieces of a replacement. A dollar sign that refers to nothing stands for itself. -/
def read (cs : List Char) : List Piece := readFrom cs.length cs

end Piece

/-- What a piece stands for in a match; nothing for a group that took no part. -/
def filled (r : Regex) (subject : List Char) (slots : Slots) : Piece → List Char
  | .text cs => cs
  | .group index => (slots.text? subject index).getD []
  | .named name =>
    ((r.names.find? (·.1 = name)).bind fun (_, index) => slots.text? subject index).getD []

/-- The text with its matches replaced. Everything before `position` is done. -/
def replaceFrom (r : Regex) (subject : List Char) (pieces : List Piece) (position : Nat) :
    List Slots → List Char
  | [] => subject.drop position
  | slots :: rest =>
    match slots.span? 0 with
    | none => subject.drop position
    | some (start, stop) =>
      excerpt subject position start ++ pieces.flatMap (r.filled subject slots)
        ++ replaceFrom r subject pieces stop rest

def replaceAll (r : Regex) (replacement subject : List Char) : List Char :=
  r.replaceFrom subject (Piece.read replacement) 0 (r.allMatches subject)

end Regex

end TypedQuery
