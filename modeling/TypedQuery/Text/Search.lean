import TypedQuery.Unicode.Classes

/-!
# Parts of texts

Cutting texts, and finding one text in another. Positions count characters, not bytes, also
where bytes are compared.
-/

namespace TypedQuery.Text

/-! ## Cutting -/

def trimStart (cs : List Char) : List Char := cs.dropWhile Unicode.isBlank

def trimEnd (cs : List Char) : List Char := (trimStart cs.reverse).reverse

def trim (cs : List Char) : List Char := trimEnd (trimStart cs)

/-- Characters from `start`, which counts from the end when it is negative. Without a
length, all that follow. -/
def slice (start : Int) (length : Option Int) (cs : List Char) : List Char :=
  let count : Int := cs.length
  let first := if start < 0 then max (count + start) 0 else min start count
  let stop := match length with
    | some n => min (first + max n 0) count
    | none => count
  (cs.drop first.toNat).take (stop - first).toNat

/-- The last `n` characters. -/
def tail (n : Nat) (cs : List Char) : List Char := cs.drop (cs.length - n)

/-- `count` characters of `fill` over and over. -/
def cycled (fill : List Char) (count : Nat) : List Char :=
  (List.range count).map fun i => fill.getD (i % fill.length) ' '

/-- What is missing up to the width. Without something to fill with, nothing is. -/
def padding (width : Nat) (fill cs : List Char) : List Char :=
  if width ≤ cs.length || fill.isEmpty then [] else cycled fill (width - cs.length)

def padStart (width : Nat) (fill cs : List Char) : List Char := padding width fill cs ++ cs

def padEnd (width : Nat) (fill cs : List Char) : List Char := cs ++ padding width fill cs

/-!
## Searching texts

Searches go from left to right. The empty text occurs everywhere, in front of each
character and at the end.
-/

/-- The first position at which `needle` occurs. -/
def indexOf? [BEq α] (needle : List α) : List α → Option Nat
  | [] => if needle.isEmpty then some 0 else none
  | c :: rest =>
    if needle.isPrefixOf (c :: rest) then some 0 else (indexOf? needle rest).map (· + 1)

def contains (needle cs : List Char) : Bool := (indexOf? needle cs).isSome

/-!
### Bytes

A text is kept as its bytes in UTF-8, and a position that is asked for is looked for among
them. What is found there is counted in characters again, by the bytes that begin one.
-/

def bytes (cs : List Char) : List UInt8 := cs.flatMap String.utf8EncodeChar

/-- How many characters begin among the bytes. -/
def characterCount (bs : List UInt8) : Nat := bs.countP fun b => b.IsUTF8FirstByte

/-- The bytes at which the characters begin, the first one at `first`. -/
def offsetsFrom (first : Nat) : List Char → List Nat
  | [] => []
  | c :: rest => first :: offsetsFrom (first + c.utf8Size) rest

/-- The byte at which a character begins. Where a character after the last one would
begin, the text ends. -/
def offset? (cs : List Char) (position : Nat) : Option Nat :=
  match (offsetsFrom 0 cs)[position]? with
  | some offset => some offset
  | none => if cs.length = position then some (bytes cs).length else none

/-- The first position at or after `start` at which `needle` occurs, and -1 when there is
none. -/
def find (needle : List Char) (start : Nat) (cs : List Char) : Int :=
  match offset? cs start with
  | none => -1
  | some offset =>
    let rest := (bytes cs).drop offset
    match indexOf? (bytes needle) rest with
    | none => -1
    | some byte => start + characterCount (rest.take byte)

/-- Pieces between the occurrences of a separator that is not empty. The piece being
read is `piece`, last character first, and `skip` counts the characters of a separator
still to be passed over. -/
def splitFrom (separator piece : List Char) : Nat → List Char → List (List Char)
  | _, [] => [piece.reverse]
  | skip + 1, _ :: rest => splitFrom separator piece skip rest
  | 0, c :: rest =>
    if separator.isPrefixOf (c :: rest) then
      piece.reverse :: splitFrom separator [] (separator.length - 1) rest
    else splitFrom separator (c :: piece) 0 rest

/-- The pieces between occurrences of the separator. An empty separator occurs
around every character. -/
def split (separator cs : List Char) : List (List Char) :=
  if separator.isEmpty then [] :: cs.map ([·]) ++ [[]] else splitFrom separator [] 0 cs

/-- Puts `replacement` in place of every occurrence of `target`. -/
def replace (target replacement cs : List Char) : List Char :=
  replacement.intercalate (split target cs)

end TypedQuery.Text
