import TypedQuery.Json.Decode
import TypedQuery.Regex.CharSet
import TypedQuery.Regex.Pattern
import TypedQuery.Text.Search

/-!
# Reading patterns

`Pattern.read?` reads a pattern and settles its flags on the way, so that what it returns
needs none. A flag holds from where it is set to the end of the group around it. Brackets
nest at most `Reader.depthLimit` deep, counting every group, class, repetition, alternative
and sequence of more than one part.

The recursion counts down the characters of the text: every step reads at least one.
-/

namespace TypedQuery.Regex

structure Flags where
  ignoreCase : Bool := false
  multiLine : Bool := false
  dotAll : Bool := false
  swapGreed : Bool := false
  unicode : Bool := true
  returns : Bool := false
  verbose : Bool := false

/-- What has been read so far. -/
structure ReaderState where
  rest : List Char
  flags : Flags
  groups : Nat
  names : List (String × Nat)

abbrev Reader := StateT ReaderState Option

/-- A pattern that has been read. -/
structure Part where
  pattern : Pattern
  /-- How deep it nests. -/
  depth : Nat
  /-- Flags are a part of their own, which cannot be repeated. -/
  repeatable : Bool := true

namespace Reader

def depthLimit : Nat := 250

/-! ## Characters -/

/-- Skips blanks and comments, which run to the end of the line. -/
def skipBlanks : (comment : Bool) → List Char → List Char
  | _, [] => []
  | true, c :: cs => skipBlanks (c ≠ '\n') cs
  | false, c :: cs =>
    if Unicode.isBlank c then skipBlanks false cs
    else if c = '#' then skipBlanks true cs
    else c :: cs

/-- Blanks count for nothing when the flags say so. -/
def skip : Reader Unit :=
  modify fun s => if s.flags.verbose then { s with rest := skipBlanks false s.rest } else s

def advance : Reader Unit := modify fun s => { s with rest := s.rest.drop 1 }

/-- Passes one character and the blanks after it. -/
def next : Reader Unit := do
  advance
  skip

def peek : Reader Char := do
  match (← get).rest with
  | c :: _ => pure c
  | [] => failure

def peekIs (c : Char) : Reader Bool := do pure ((← get).rest.head? = some c)

def expect (c : Char) : Reader Unit := do
  if ← peekIs c then advance else failure

/-- Passes the given characters if they come next. -/
def takeIf (text : String) : Reader Bool := do
  if text.toList.isPrefixOf (← get).rest then
    modify fun s => { s with rest := s.rest.drop text.length }
    pure true
  else pure false

def collectFrom (ok : Char → Bool) : Nat → Reader (List Char)
  | 0 => pure []
  | fuel + 1 => do
    match (← get).rest with
    | c :: _ =>
      if ok c then
        next
        pure (c :: (← collectFrom ok fuel))
      else pure []
    | [] => pure []

/-- The characters up to the first that fails the test, without blanks that do not count. -/
def collect (ok : Char → Bool) : Reader (List Char) := do collectFrom ok (← get).rest.length

/-! ## Escapes -/

/-- What a character or an escape stands for. -/
inductive Atom where
  | literal (c : Char) (asByte : Bool)
  | set (s : CharSet)
  | look (a : Assertion)

def hexValue (cs : List Char) : Option Nat :=
  cs.foldlM (fun n c => (Json.hexValue? c).map (16 * n + ·)) 0

def scalar (n : Nat) : Reader Char := if n.isValidChar then pure (Char.ofNat n) else failure

def hexDigits : Nat → Reader (List Char)
  | 0 => pure []
  | count + 1 => do
    let c ← peek
    next
    pure (c :: (← hexDigits count))

/-- A code point in hexadecimal: a fixed number of digits, or any number of them between
braces. -/
def hex : Reader Atom := do
  let kind ← peek
  next
  if ← peekIs '\x7b' then
    next
    let digits ← collect (· ≠ '\x7d')
    expect '\x7d'
    skip
    if digits.isEmpty then failure
    let some n := hexValue digits | failure
    pure (.literal (← scalar n) false)
  else
    let digits ← hexDigits (if kind = 'x' then 2 else if kind = 'u' then 4 else 8)
    let some n := hexValue digits | failure
    pure (.literal (← scalar n) (kind = 'x'))

/-- Complements a set. Outside of Unicode this would reach bytes that are no characters. -/
def negated (negate : Bool) (s : CharSet) : Reader CharSet := do
  if !negate then pure s
  else if (← get).flags.unicode then pure (.complement s)
  else failure

def fold (s : CharSet) : Reader CharSet := do
  let flags := (← get).flags
  pure (if flags.ignoreCase then if flags.unicode then .folded s else .foldedAscii s else s)

/-- Splits a text where the separator first occurs. -/
def cut? (separator text : List Char) : Option (String × String) :=
  (Text.indexOf? separator text).map fun i =>
    (String.ofList (text.take i), String.ofList (text.drop (i + separator.length)))

def namedSet? (name : List Char) : Option CharSet :=
  match (cut? ['!', '='] name <|> cut? [':'] name) <|> cut? ['='] name with
  | some (property, value) => CharSet.valued? property value
  | none => CharSet.named? (String.ofList name)

/-- A set by name. -/
def property : Reader CharSet := do
  let negate := (← peek) = 'P'
  next
  let name ← if ← peekIs '\x7b' then do
      next
      let name ← collect (· ≠ '\x7d')
      expect '\x7d'
      pure name
    else do
      let c ← peek
      if c = '\\' then failure
      next
      pure [c]
  let some s := namedSet? name | failure
  if !(← get).flags.unicode then failure
  negated negate (← fold s)

/-- The sets named by one letter; the capital letter names what is not in them. -/
def shorthand (c : Char) : Reader CharSet := do
  advance
  let unicode := (← get).flags.unicode
  let s : CharSet := match c.toLower with
    | 'd' => if unicode then .digit else CharSet.Ascii.digit
    | 's' => if unicode then .blank else CharSet.Ascii.space
    | _ => if unicode then .word else CharSet.Ascii.word
  negated c.isUpper s

def edge? : String → Option WordEdge
  | "start" => some .start
  | "end" => some .stop
  | "start-half" => some .startHalf
  | "end-half" => some .stopHalf
  | _ => none

/-- Names which edge of a word is meant. A brace that does not start with a letter or a
hyphen begins a number of repetitions. -/
def wordEdge : Reader WordEdge := do
  let isNameChar (c : Char) : Bool := c.isAlpha || c = '-'
  if !(← peekIs '\x7b') then return .either
  let before ← get
  next
  if !isNameChar (← peek) then
    set before
    return .either
  let name ← collect isNameChar
  expect '\x7d'
  match edge? (String.ofList name) with
  | some e => pure e
  | none => failure

/-- Characters that stand for themselves after a backslash. -/
def isEscapable (c : Char) : Bool := c.toNat < 128 && !c.isAlphanum && c ≠ '<' && c ≠ '>'

def escape : Reader Atom := do
  expect '\\'
  let c ← peek
  let word (e : WordEdge) : Reader Atom := do pure (.look (.word e !(← get).flags.unicode))
  if c = 'x' || c = 'u' || c = 'U' then hex
  else if c = 'p' || c = 'P' then return .set (← property)
  else if ['d', 's', 'w', 'D', 'S', 'W'].contains c then return .set (← shorthand c)
  else do
    advance
    if isEscapable c then pure (.literal c false)
    else match c with
      | 'a' => pure (.literal '\x07' false)
      | 'f' => pure (.literal '\x0c' false)
      | 't' => pure (.literal '\t' false)
      | 'n' => pure (.literal '\n' false)
      | 'r' => pure (.literal '\r' false)
      | 'v' => pure (.literal '\x0b' false)
      | 'A' => pure (.look .textStart)
      | 'z' => pure (.look .textEnd)
      | 'b' => word (← wordEdge)
      | 'B' => word .neither
      | '<' => word .start
      | '>' => word .stop
      | _ => failure

/-! ## Classes in brackets -/

/-- A set and how deep its brackets nest. -/
abbrev DeepSet := CharSet × Nat

def setUnion (items : List DeepSet) : DeepSet :=
  match items with
  | [item] => item
  | items => (CharSet.unions (items.map (·.1)), if items.isEmpty then 0
    else 1 + (items.map (·.2)).foldl max 0)

inductive SetOperator where
  | intersection
  | difference
  | symmetricDifference

def SetOperator.apply : SetOperator → CharSet → CharSet → CharSet
  | intersection => CharSet.intersection
  | difference => CharSet.difference
  | symmetricDifference => CharSet.symmetricDifference

/-- Finishes an operation whose right side has been read. -/
def combine (pending : Option (SetOperator × DeepSet)) (right : DeepSet) :
    Reader DeepSet := do
  match pending with
  | none => pure right
  | some (op, left) =>
    pure (op.apply (← fold left.1) (← fold right.1), 1 + max left.2 right.2)

/-- A character inside a class. -/
def classChar : Atom → Reader Char
  | .literal c _ => do
    if !(← get).flags.unicode && 127 < c.toNat then failure else pure c
  | _ => failure

def classAtom : Reader Atom := do
  let c ← peek
  if c = '\\' then escape
  else do
    advance
    pure (.literal c false)

/-- The character after the present one, past blanks that do not count. -/
def peekPast : Reader (Option Char) := do
  let s ← get
  let after := s.rest.drop 1
  if s.flags.verbose then
    let after := after.dropWhile Unicode.isBlank
    pure ((if after.head? = some '#' then (after.drop 1).dropWhile Unicode.isBlank
      else after).head?)
  else pure after.head?

/-- A character, a range of characters or a set. -/
def classItem : Reader CharSet := do
  let first ← classAtom
  skip
  let c ← peek
  let after ← peekPast
  if c ≠ '-' || after = some ']' || after = some '-' then
    match first with
    | .literal .. => return .single (← classChar first)
    | .set s => pure s
    | .look _ => failure
  else do
    next
    discard peek
    let last ← classAtom
    let low ← classChar first
    let high ← classChar last
    if low ≤ high then pure (.range low high) else failure

/-- A class such as `[:alpha:]`. Anything else is read as a class in brackets. -/
def asciiClass? : Reader (Option CharSet) := do
  match (← get).rest with
  | '[' :: ':' :: rest =>
    let (negate, rest) := match rest with
      | '^' :: rest => (true, rest)
      | rest => (false, rest)
    let name := rest.takeWhile (· ≠ ':')
    match rest.dropWhile (· ≠ ':'), CharSet.Ascii.named? (String.ofList name) with
    | ':' :: ']' :: rest, some s =>
      modify fun state => { state with rest := rest }
      return some (← negated negate (← fold s))
    | _, _ => pure none
  | _ => pure none

def hyphens : Nat → Reader (List DeepSet)
  | 0 => pure []
  | fuel + 1 => do
    if ← peekIs '-' then
      next
      pure ((.single '-', 0) :: (← hyphens fuel))
    else pure []

/-- The start of a class: whether it is negated, and the hyphens or the bracket that
stand for themselves. -/
def classOpening : Reader (Bool × List DeepSet) := do
  expect '['
  skip
  let negate ← peekIs '^'
  if negate then next
  let items ← hyphens (← get).rest.length
  let c ← peek
  if items.isEmpty && c = ']' then
    next
    discard peek
    pure (negate, [(.single ']', 0)])
  else pure (negate, items)

mutual

/-- A class in brackets. -/
def bracket : Nat → Reader DeepSet
  | 0 => failure
  | fuel + 1 => do
    let (negate, items) ← classOpening
    let (s, depth) ← classItems fuel items.reverse none
    pure (← negated negate (← fold s), depth + 1)

/-- The items of a class, the last first, up to its closing bracket. -/
def classItems : Nat → List DeepSet → Option (SetOperator × DeepSet) → Reader DeepSet
  | 0, _, _ => failure
  | fuel + 1, items, pending => do
    skip
    let finished := combine pending (setUnion items.reverse)
    match (← get).rest with
    | [] => failure
    | '[' :: _ =>
      match ← asciiClass? with
      | some s => classItems fuel ((s, 0) :: items) pending
      | none =>
        let nested ← bracket fuel
        classItems fuel (nested :: items) pending
    | ']' :: _ =>
      advance
      finished
    | '&' :: '&' :: _ => operator fuel .intersection finished
    | '-' :: '-' :: _ => operator fuel .difference finished
    | '~' :: '~' :: _ => operator fuel .symmetricDifference finished
    | _ =>
      let item ← classItem
      classItems fuel ((item, 0) :: items) pending

/-- The right side of an operation on sets. -/
def operator : Nat → SetOperator → Reader DeepSet → Reader DeepSet
  | 0, _, _ => failure
  | fuel + 1, op, finished => do
    advance
    advance
    let left ← finished
    classItems fuel [] (some (op, left))

end

/-! ## Parts -/

def one (s : CharSet) : Part := { pattern := .one s, depth := 0 }

def look (a : Assertion) : Part := { pattern := .look a, depth := 0 }

def literal (c : Char) (asByte : Bool) : Reader Part := do
  let flags := (← get).flags
  if !flags.unicode && asByte && 127 < c.toNat then failure
  else pure (one (← fold (.single c)))

def dot : Reader Part := do
  let flags := (← get).flags
  let breaks : CharSet :=
    if flags.returns then CharSet.ofRanges [('\r', '\r'), ('\n', '\n')] else .single '\n'
  if !flags.unicode then failure
  else pure (one (if flags.dotAll then .full else .complement breaks))

def lineEdge (text line withReturns : Assertion) : Reader Part := do
  let flags := (← get).flags
  pure (look (if flags.multiLine then if flags.returns then withReturns else line else text))

def primitive : Reader Part := do
  match ← peek with
  | '\\' =>
    match ← escape with
    | .literal c asByte => literal c asByte
    | .set s => pure (one s)
    | .look a => pure (look a)
  | '.' =>
    advance
    dot
  | '^' =>
    advance
    lineEdge .textStart .lineStart .returnStart
  | '$' =>
    advance
    lineEdge .textEnd .lineEnd .returnEnd
  | c =>
    advance
    literal c false

/-! ## Repetitions -/

/-- The part before a repetition sign. -/
def repeatedPart : List Part → Reader (Part × List Part)
  | part :: parts => if part.repeatable then pure (part, parts) else failure
  | [] => failure

def repetition (part : Part) (least : Nat) (most : Option Nat) (lazy : Bool) :
    Reader Part := do
  let greedy := lazy == (← get).flags.swapGreed
  pure { pattern := part.pattern.repeats least most greedy, depth := part.depth + 1 }

/-- A decimal number of 32 bits, and nothing if there are no digits. -/
def decimal : Reader (Option Nat) := do
  modify fun s => { s with rest := s.rest.dropWhile Unicode.isBlank }
  let digits ← collect Decimal.isDigit
  discard (collect Unicode.isBlank)
  if digits.isEmpty then pure none
  else if Decimal.ofDigits digits < UInt32.size then pure (some (Decimal.ofDigits digits))
  else failure

def sign (part : Part) (least : Nat) (most : Option Nat) : Reader Part := do
  advance
  let lazy ← peekIs '?'
  if lazy then advance
  repetition part least most lazy

/-- A repetition between braces. -/
def counted (part : Part) : Reader Part := do
  next
  let some least ← decimal | failure
  let most ← if ← peekIs ',' then do
      next
      if ← peekIs '\x7d' then pure none
      else do
        let some most ← decimal | failure
        pure (some most)
    else pure (some least)
  expect '\x7d'
  skip
  let lazy ← peekIs '?'
  if lazy then advance
  if most.any (· < least) then failure
  repetition part least most lazy

/-! ## Groups -/

def isNameStart (c : Char) : Bool := c = '_' || Unicode.alphabetic.contains c.toNat

def isNameChar (c : Char) : Bool :=
  isNameStart c || (Unicode.category c).startsWith "N" || c = '.' || c = '[' || c = ']'

/-- Counts a group that remembers its match. -/
def newGroup : Reader Nat := do
  let index := (← get).groups + 1
  modify fun s => { s with groups := index }
  pure index

def groupName (index : Nat) : Reader Unit := do
  let s ← get
  let name := s.rest.takeWhile (· ≠ '>')
  let text := String.ofList name
  let wellFormed := match name with
    | c :: rest => isNameStart c && rest.all isNameChar
    | [] => false
  if !wellFormed || (s.names.map (·.1)).contains text then failure
  modify fun s =>
    { s with rest := s.rest.drop name.length, names := s.names ++ [(text, index)] }
  expect '>'

def setFlag (value : Bool) (flags : Flags) : Char → Option Flags
  | 'i' => some { flags with ignoreCase := value }
  | 'm' => some { flags with multiLine := value }
  | 's' => some { flags with dotAll := value }
  | 'U' => some { flags with swapGreed := value }
  | 'u' => some { flags with unicode := value }
  | 'R' => some { flags with returns := value }
  | 'x' => some { flags with verbose := value }
  | _ => none

/-- Flags before a hyphen are set, and those after it are taken away. -/
def applyFlags : Bool → Flags → List Char → Option Flags
  | _, flags, [] => some flags
  | value, flags, c :: rest =>
    if c = '-' then applyFlags false flags rest
    else do applyFlags value (← setFlag value flags c) rest

inductive Opening where
  | flags
  | group (index : Option Nat)

/-- The start of a group, or flags. -/
def opening : Reader Opening := do
  expect '('
  skip
  let rest := (← get).rest
  if ["?=", "?!", "?<=", "?<!"].any fun look => look.toList.isPrefixOf rest then failure
  else if (← takeIf "?P<") || (← takeIf "?<") then do
    let index ← newGroup
    groupName index
    pure (.group (some index))
  else if ← takeIf "?" then do
    let s ← get
    let letters := s.rest.takeWhile fun c => c ≠ ':' && c ≠ ')'
    if !letters.Nodup || letters.getLast? = some '-' then failure
    let some flags := applyFlags true s.flags letters | failure
    match s.rest.drop letters.length with
    | ':' :: rest =>
      set { s with rest, flags }
      pure (.group none)
    | ')' :: rest =>
      if letters.isEmpty then failure
      set { s with rest, flags }
      pure .flags
    | _ => failure
  else return .group (some (← newGroup))

/-! ## Patterns -/

/-- Several parts as one; a single part stays as it is. -/
def assemble (join : List Pattern → Pattern) : List Part → Part
  | [] => { pattern := .empty, depth := 0 }
  | [part] => { part with repeatable := true }
  | parts =>
    { pattern := join (parts.map (·.pattern))
      depth := 1 + (parts.map (·.depth)).foldl max 0 }

/-- Alternatives up to the end of a group. `parts` and `branches` have been
read, the last ones first. -/
def alternatives : Nat → List Part → List Part → Reader Part
  | 0, _, _ => failure
  | fuel + 1, parts, branches => do
    skip
    let branch := assemble .sequence parts.reverse
    match (← get).rest with
    | [] | ')' :: _ => pure (assemble .alternatives (branch :: branches).reverse)
    | '|' :: _ =>
      advance
      alternatives fuel [] (branch :: branches)
    | '(' :: _ =>
      let outside := (← get).flags
      match ← opening with
      | .flags =>
        alternatives fuel
          ({ pattern := .empty, depth := 0, repeatable := false } :: parts) branches
      | .group index =>
        let body ← alternatives fuel [] []
        expect ')'
        modify fun s => { s with flags := outside }
        let pattern := match index with
          | some i => .group i body.pattern
          | none => body.pattern
        alternatives fuel ({ pattern, depth := body.depth + 1 } :: parts) branches
    | '[' :: _ =>
      let (s, depth) ← bracket (2 * (← get).rest.length)
      alternatives fuel ({ pattern := .one s, depth } :: parts) branches
    | '?' :: _ =>
      let (part, parts) ← repeatedPart parts
      alternatives fuel ((← sign part 0 (some 1)) :: parts) branches
    | '*' :: _ =>
      let (part, parts) ← repeatedPart parts
      alternatives fuel ((← sign part 0 none) :: parts) branches
    | '+' :: _ =>
      let (part, parts) ← repeatedPart parts
      alternatives fuel ((← sign part 1 none) :: parts) branches
    | '\x7b' :: _ =>
      let (part, parts) ← repeatedPart parts
      alternatives fuel ((← counted part) :: parts) branches
    | _ => alternatives fuel ((← primitive) :: parts) branches

end Reader

/-- A pattern, the number of its groups and their names. -/
structure Reading where
  pattern : Pattern
  groups : Nat
  names : List (String × Nat)

/-- The pattern that a text stands for, if it stands for one. -/
def read? (text : String) : Option Reading := do
  let cs := text.toList
  let (part, s) ← (Reader.alternatives (cs.length + 1) [] []).run ⟨cs, {}, 0, []⟩
  if s.rest.isEmpty && part.depth ≤ Reader.depthLimit then
    some ⟨part.pattern, s.groups, s.names⟩
  else none

end TypedQuery.Regex
