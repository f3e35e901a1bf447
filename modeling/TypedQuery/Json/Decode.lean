import TypedQuery.Decimal.Reader
import TypedQuery.Json.Basic

/-!
# JSON documents

A text is read as JSON, and JSON as the record or the variant that it stands for.
-/

namespace TypedQuery.Json

/-!
## Reading JSON

`Json.parse?` accepts exactly one document, with blanks around it. Brackets nest at most
127 deep; the bound is also what the recursion counts down. Strings hold no raw control
characters, and an escaped surrogate must be the first half of a pair.

Numbers are read on demand. An integer must be written without point and exponent; `-0` is
not one. A double is computed from the longest run of digits that fits 64 bits, scaled by
powers of ten: not always the nearest one.
-/

open Decimal (isDigit)

def isBlank (c : Char) : Bool := c = ' ' || c = '\n' || c = '\t' || c = '\r'

def skipBlanks (cs : List Char) : List Char := cs.dropWhile isBlank

/-! ### Strings -/

def hexValue? (c : Char) : Option Nat :=
  if '0' ≤ c ∧ c ≤ '9' then some (c.toNat - '0'.toNat)
  else if 'a' ≤ c ∧ c ≤ 'f' then some (c.toNat - 'a'.toNat + 10)
  else if 'A' ≤ c ∧ c ≤ 'F' then some (c.toNat - 'A'.toNat + 10)
  else none

/-- Four hexadecimal digits. -/
def hexUnit? (a b c d : Char) : Option Nat :=
  match hexValue? a, hexValue? b, hexValue? c, hexValue? d with
  | some a, some b, some c, some d => some (((a * 16 + b) * 16 + c) * 16 + d)
  | _, _, _, _ => none

def simpleEscape? : Char → Option Char
  | '"' => some '"'
  | '\\' => some '\\'
  | '/' => some '/'
  | 'b' => some '\x08'
  | 'f' => some '\x0c'
  | 'n' => some '\n'
  | 'r' => some '\r'
  | 't' => some '\t'
  | _ => none

/-- Reads the rest of a string after its opening quote; `done` holds its
characters in reverse. -/
def stringTail (done : List Char) : List Char → Option (String × List Char)
  | [] => none
  | '"' :: rest => some (String.ofList done.reverse, rest)
  | '\\' :: 'u' :: a :: b :: c :: d :: rest =>
    match hexUnit? a b c d with
    | none => none
    | some unit =>
      if unit < 0xD800 ∨ 0xDFFF < unit then stringTail (Char.ofNat unit :: done) rest
      else if 0xDC00 ≤ unit then none
      else match rest with
        | '\\' :: 'u' :: a' :: b' :: c' :: d' :: rest' =>
          match hexUnit? a' b' c' d' with
          | none => none
          | some low =>
            if 0xDC00 ≤ low ∧ low ≤ 0xDFFF then
              stringTail (Char.ofNat (0x10000 + (unit - 0xD800) * 0x400 + (low - 0xDC00))
                :: done) rest'
            else none
        | _ => none
  | '\\' :: c :: rest =>
    match simpleEscape? c with
    | some e => stringTail (e :: done) rest
    | none => none
  | c :: rest => if c.toNat < 0x20 ∨ c = '\\' then none else stringTail (c :: done) rest

/-! ### Numbers -/

/-- Splits off a number: minus sign, digits without a leading zero, then point and
exponent. -/
def numberToken (cs : List Char) : Option (String × List Char) :=
  let (minus, cs) := match cs with
    | '-' :: rest => (['-'], rest)
    | cs => ([], cs)
  let whole := cs.takeWhile isDigit
  let cs := cs.dropWhile isDigit
  let (point, cs, pointOk) := match cs with
    | '.' :: rest =>
      let digits := rest.takeWhile isDigit
      ('.' :: digits, rest.dropWhile isDigit, !digits.isEmpty)
    | cs => ([], cs, true)
  let (exponent, cs, exponentOk) := match cs with
    | e :: rest =>
      if e = 'e' ∨ e = 'E' then
        let (sign, rest) := match rest with
          | '+' :: rest => (['+'], rest)
          | '-' :: rest => (['-'], rest)
          | rest => ([], rest)
        let digits := rest.takeWhile isDigit
        (e :: sign ++ digits, rest.dropWhile isDigit, !digits.isEmpty)
      else ([], e :: rest, true)
    | [] => ([], [], true)
  if whole.isEmpty || (1 < whole.length && whole.head? = some '0') || !pointOk
    || !exponentOk then none
  else some (String.ofList (minus ++ whole ++ point ++ exponent), cs)

/-! ### Documents -/

/-- Items separated by commas up to the closing bracket. -/
def itemsTail (item : List Char → Option (Json × List Char)) :
    Nat → List Char → Option (List Json × List Char)
  | 0, _ => none
  | fuel + 1, cs => do
    let (j, cs) ← item (skipBlanks cs)
    match skipBlanks cs with
    | ',' :: rest =>
      let (items, rest) ← itemsTail item fuel rest
      some (j :: items, rest)
    | ']' :: rest => some ([j], rest)
    | _ => none

/-- Members separated by commas up to the closing brace. -/
def membersTail (item : List Char → Option (Json × List Char)) :
    Nat → List Char → Option (List (String × Json) × List Char)
  | 0, _ => none
  | fuel + 1, cs => do
    match skipBlanks cs with
    | '"' :: rest =>
      let (key, rest) ← stringTail [] rest
      match skipBlanks rest with
      | ':' :: rest =>
        let (j, rest) ← item (skipBlanks rest)
        match skipBlanks rest with
        | ',' :: rest =>
          let (members, rest) ← membersTail item fuel rest
          some ((key, j) :: members, rest)
        | '\x7d' :: rest => some ([(key, j)], rest)
        | _ => none
      | _ => none
    | _ => none

/-- Reads one document that starts at the first character, with brackets nested
at most `depth` deep. -/
def document (depth : Nat) (cs : List Char) : Option (Json × List Char) :=
  match cs with
  | 'n' :: 'u' :: 'l' :: 'l' :: rest => some (null, rest)
  | 't' :: 'r' :: 'u' :: 'e' :: rest => some (bool true, rest)
  | 'f' :: 'a' :: 'l' :: 's' :: 'e' :: rest => some (bool false, rest)
  | '"' :: rest => (stringTail [] rest).map fun (s, rest) => (string s, rest)
  | '[' :: rest =>
    match depth with
    | 0 => none
    | depth + 1 =>
      match skipBlanks rest with
      | ']' :: rest => some (array [], rest)
      | rest => (itemsTail (document depth) rest.length rest).map fun (items, rest) =>
        (array items, rest)
  | '\x7b' :: rest =>
    match depth with
    | 0 => none
    | depth + 1 =>
      match skipBlanks rest with
      | '\x7d' :: rest => some (object [], rest)
      | rest =>
        (membersTail (document depth) rest.length rest).map fun (members, rest) =>
          (object members, rest)
  | cs => (numberToken cs).map fun (text, rest) => (number text, rest)

/-- Reads a text that holds exactly one document. -/
def parse? (text : String) : Option Json :=
  match document 127 (skipBlanks text.toList) with
  | some (j, rest) => if (skipBlanks rest).isEmpty then some j else none
  | none => none

/-! ### What numbers denote -/

/-- The integer written by a number without point and exponent. -/
def integer? : Json → Option Int
  | number text =>
    let cs := text.toList
    let digits := if cs.head? = some '-' then cs.drop 1 else cs
    if digits.all isDigit then
      let n := Decimal.ofDigits digits
      if cs.head? = some '-' then (if n = 0 then none else some (-(n : Int))) else some n
    else none
  | _ => none

/-- Appends digits to a significand while it fits 64 bits; also the number of digits taken.
-/
def significand (start : Nat) (digits : List Char) : Nat × Nat :=
  match digits with
  | [] => (start, 0)
  | c :: rest =>
    let next := start * 10 + (Decimal.digitValue? c).getD 0
    if next < UInt64.size then
      let (n, taken) := significand next rest
      (n, taken + 1)
    else (start, 0)

/-- The power of ten as a double. -/
def powerOfTen (n : Nat) : Float := Decimal.nearest 1 n

/-- Scales by a power of ten, in steps of at most 308 downwards; none when the result is
infinite. -/
def scale : Nat → Float → Int → Option Float
  | 0, x, _ => some x
  | fuel + 1, x, exponent =>
    if exponent.natAbs ≤ 308 then
      if 0 ≤ exponent then
        let y := x * powerOfTen exponent.toNat
        if y.isInf then none else some y
      else some (x / powerOfTen exponent.natAbs)
    else if x == 0.0 then some x
    else if 0 ≤ exponent then none
    else scale fuel (x / powerOfTen 308) (exponent + 308)

def float? : Json → Option Float
  | number text =>
    let cs := text.toList
    let negative := cs.head? = some '-'
    let cs := if negative then cs.drop 1 else cs
    let whole := cs.takeWhile isDigit
    let cs := cs.dropWhile isDigit
    let (fraction, cs) := match cs with
      | '.' :: rest => (rest.takeWhile isDigit, rest.dropWhile isDigit)
      | cs => ([], cs)
    let exponent := (Decimal.readExponent? cs).getD 0
    let (n, taken) := significand 0 whole
    let (n, places) := significand n fraction
    let total : Int := (whole.length - taken : Nat) - (places : Int) + exponent
    (scale (total.natAbs / 308 + 2) (Float.ofNat n) total).map fun x =>
      if negative then -x else x
  | _ => none

/-!
## Records and variants in JSON

A record is an object whose known members occur at most once (others are skipped), or an
array of its fields in order. A variant is its bare name, or an object with the name as
only member and the content below it; a variant without content takes `null` there.
-/

def bool? : Json → Option Bool
  | bool b => some b
  | _ => none

def string? : Json → Option String
  | string s => some s
  | _ => none

def array? : Json → Option (List Json)
  | array items => some items
  | _ => none

/-- A text of one character. -/
def char? : Json → Option Char
  | string s => match s.toList with
    | [c] => some c
    | _ => none
  | _ => none

def int64? (j : Json) : Option Int64 :=
  j.integer?.bind fun n =>
    if Int64.minValue.toInt ≤ n ∧ n ≤ Int64.maxValue.toInt then
      some (Int64.ofInt n) else none

def int32? (j : Json) : Option Int32 :=
  j.integer?.bind fun n =>
    if Int32.minValue.toInt ≤ n ∧ n ≤ Int32.maxValue.toInt then
      some (Int32.ofInt n) else none

def byte? (j : Json) : Option UInt8 :=
  j.integer?.bind fun n => if 0 ≤ n ∧ n < UInt8.size then
    some (UInt8.ofNat n.toNat) else none

/-- The fields of a record by name; a field may be missing. -/
def record? (names : List String) : Json → Option (List (Option Json))
  | object members =>
    if names.all fun name => (members.filter (·.1 == name)).length ≤ 1 then
      some (names.map fun name => (members.find? (·.1 == name)).map (·.2))
    else none
  | array items =>
    if items.length ≤ names.length then
      some (items.map some ++ List.replicate (names.length - items.length) none)
    else none
  | _ => none

/-- A variant: its name, and its content unless it is a bare name. -/
def variant? : Json → Option (String × Option Json)
  | string name => some (name, none)
  | object [(name, content)] => some (name, some content)
  | _ => none

/-- A variant without content. -/
def unitVariant? (j : Json) : Option String :=
  match j.variant? with
  | some (name, none) | some (name, some null) => some name
  | _ => none

end TypedQuery.Json
