import TypedQuery.Unicode.Classes
import TypedQuery.Unicode.Tables

/-!
# Sets of characters

What a pattern can ask of one character. A set is kept as it was written, and
membership is decided by walking through it. Two characters are variants of each other
when they fold to the same one.
-/

namespace TypedQuery

inductive CharSet where
  | empty
  | range (low high : Char)
  | table (ranges : Unicode.RangeSet)
  | word
  | digit
  | union (a b : CharSet)
  | intersection (a b : CharSet)
  | complement (a : CharSet)
  /-- The set with all case variants of its characters. -/
  | folded (a : CharSet)
  /-- The set with the case variants of its letters among the first 128 characters. -/
  | foldedAscii (a : CharSet)

namespace CharSet

def single (c : Char) : CharSet := range c c

def full : CharSet := complement empty

def blank : CharSet := table Unicode.whiteSpace

def ofRanges : List (Char × Char) → CharSet
  | [] => empty
  | [(low, high)] => range low high
  | (low, high) :: rest => union (range low high) (ofRanges rest)

def unions : List CharSet → CharSet
  | [] => empty
  | [a] => a
  | a :: rest => union a (unions rest)

def difference (a b : CharSet) : CharSet := intersection a (complement b)

def symmetricDifference (a b : CharSet) : CharSet := union (difference a b) (difference b a)

/-- The characters that fold to what `c` folds to, `c` among them. -/
def variants (c : Char) : List Char :=
  let base := Unicode.foldRuns.map c.toNat
  (base :: Unicode.foldRuns.preimages base).map Char.ofNat

def contains : CharSet → Char → Bool
  | empty, _ => false
  | range low high, c => low ≤ c && c ≤ high
  | table ranges, c => ranges.contains c.toNat
  | word, c => Unicode.isWord c
  | digit, c => Unicode.isDecimalDigit c
  | union a b, c => a.contains c || b.contains c
  | intersection a b, c => a.contains c && b.contains c
  | complement a, c => !a.contains c
  | folded a, c => (variants c).any fun d => a.contains d
  | foldedAscii a, c => a.contains c || a.contains c.toLower || a.contains c.toUpper

/-- Roughly how many states recognise the encoded characters. -/
def cost : CharSet → Nat
  | empty => 1
  | range _ high => if high.toNat < 128 then 1 else 4
  | table ranges => 1 + 2 * ranges.ranges.size
  | word => 1500
  | digit => 130
  | union a b | intersection a b => a.cost + b.cost
  | complement a => a.cost + 4
  | folded a => 2 * a.cost
  | foldedAscii a => a.cost

/-! ## Classes of the first 128 characters -/

namespace Ascii

def alpha : CharSet := ofRanges [('A', 'Z'), ('a', 'z')]

def digit : CharSet := range '0' '9'

def alnum : CharSet := union digit alpha

def word : CharSet := union alnum (single '_')

def space : CharSet := ofRanges [('\t', '\r'), (' ', ' ')]

def named? : String → Option CharSet
  | "alnum" => some alnum
  | "alpha" => some alpha
  | "ascii" => some (range '\x00' '\x7f')
  | "blank" => some (ofRanges [('\t', '\t'), (' ', ' ')])
  | "cntrl" => some (ofRanges [('\x00', '\x1f'), ('\x7f', '\x7f')])
  | "digit" => some digit
  | "graph" => some (range '!' '~')
  | "lower" => some (range 'a' 'z')
  | "print" => some (range ' ' '~')
  | "punct" => some (ofRanges [('!', '/'), (':', '@'), ('[', '\x60'), ('\x7b', '~')])
  | "space" => some space
  | "upper" => some (range 'A' 'Z')
  | "word" => some word
  | "xdigit" => some (ofRanges [('0', '9'), ('A', 'F'), ('a', 'f')])
  | _ => none

end Ascii

end CharSet

end TypedQuery

/-!
## Named sets of characters

A set is named by a property, a general category or a script. Names are compared loosely:
case, blanks, hyphens and underscores do not count, and neither does `is` in front.
-/

namespace TypedQuery.CharSet

open Unicode

/-! ### Loose names -/

def isSeparator (c : Char) : Bool := c = ' ' || c = '_' || c = '-'

def looseChars (cs : List Char) : List Char :=
  (cs.filter fun c => !isSeparator c && c.toNat < 128).map Char.toLower

/-- The loose form of a name. The abbreviation `isc` stays whole. -/
def loose (name : String) : String :=
  match name.toList with
  | i :: s :: rest =>
    if i.toLower = 'i' && s.toLower = 's' then
      match looseChars rest with
      | ['c'] => "isc"
      | cs => String.ofList cs
    else String.ofList (looseChars (i :: s :: rest))
  | cs => String.ofList (looseChars cs)

/-! ### General categories -/

/-- Names of a category, and the two-letter categories in it. -/
def categories : List (List String × List String) := [
  (["C", "Other"], ["Cc", "Cf", "Cn", "Co"]),
  (["Cc", "Control", "cntrl"], ["Cc"]),
  (["Cf", "Format"], ["Cf"]),
  (["Cn", "Unassigned"], ["Cn"]),
  (["Co", "Private_Use"], ["Co"]),
  (["L", "Letter"], ["Lu", "Ll", "Lt", "Lm", "Lo"]),
  (["LC", "Cased_Letter"], ["Lu", "Ll", "Lt"]),
  (["Ll", "Lowercase_Letter"], ["Ll"]),
  (["Lm", "Modifier_Letter"], ["Lm"]),
  (["Lo", "Other_Letter"], ["Lo"]),
  (["Lt", "Titlecase_Letter"], ["Lt"]),
  (["Lu", "Uppercase_Letter"], ["Lu"]),
  (["M", "Mark", "Combining_Mark"], ["Mn", "Mc", "Me"]),
  (["Mc", "Spacing_Mark"], ["Mc"]),
  (["Me", "Enclosing_Mark"], ["Me"]),
  (["Mn", "Nonspacing_Mark"], ["Mn"]),
  (["N", "Number"], ["Nd", "Nl", "No"]),
  (["Nd", "Decimal_Number", "digit"], ["Nd"]),
  (["Nl", "Letter_Number"], ["Nl"]),
  (["No", "Other_Number"], ["No"]),
  (["P", "Punctuation", "punct"], ["Pc", "Pd", "Ps", "Pe", "Pi", "Pf", "Po"]),
  (["Pc", "Connector_Punctuation"], ["Pc"]),
  (["Pd", "Dash_Punctuation"], ["Pd"]),
  (["Pe", "Close_Punctuation"], ["Pe"]),
  (["Pf", "Final_Punctuation"], ["Pf"]),
  (["Pi", "Initial_Punctuation"], ["Pi"]),
  (["Po", "Other_Punctuation"], ["Po"]),
  (["Ps", "Open_Punctuation"], ["Ps"]),
  (["S", "Symbol"], ["Sm", "Sc", "Sk", "So"]),
  (["Sc", "Currency_Symbol"], ["Sc"]),
  (["Sk", "Modifier_Symbol"], ["Sk"]),
  (["Sm", "Math_Symbol"], ["Sm"]),
  (["So", "Other_Symbol"], ["So"]),
  (["Z", "Separator"], ["Zs", "Zl", "Zp"]),
  (["Zl", "Line_Separator"], ["Zl"]),
  (["Zp", "Paragraph_Separator"], ["Zp"]),
  (["Zs", "Space_Separator"], ["Zs"])]

def isNamed (names : List String) (name : String) : Bool := names.any fun n => loose n = name

/-- The category with a loose name. -/
def category? (name : String) : Option CharSet :=
  match name with
  | "any" => some full
  | "assigned" => some (table (categoryRuns.select (· != "Cn")))
  | "ascii" => some (range '\x00' '\x7f')
  | _ => (categories.find? (isNamed ·.1 name)).map fun c =>
    table (categoryRuns.select c.2.contains)

/-! ### Scripts -/

/-- The code of the script with a loose name. Code points of no script have no such name. -/
def scriptCode? (name : String) : Option String :=
  ((scriptNames.filter (·.1 ≠ "Zzzz")).find? fun (code, long) =>
    isNamed [code, long] name).map (·.1)

def scriptSet (code : String) : CharSet := table (scriptRuns.select (· == code))

/-- The characters that a script uses, its own or not. -/
def scriptUses (code : String) : CharSet :=
  let shared := RangeSet.mk (sharedScripts.map (·.1)).toArray
  let used := RangeSet.mk ((sharedScripts.filter (·.2.contains code)).map (·.1)).toArray
  union (table used) (difference (scriptSet code) (table shared))

/-! ### Properties -/

def property? (name : String) : Option CharSet :=
  (properties.find? (isNamed ·.1 name)).map fun p => table p.2

/-- A set named by one word. A few abbreviations are those of a category although
properties have them too. -/
def named? (name : String) : Option CharSet :=
  let name := loose name
  let asProperty := if ["cf", "sc", "lc"].contains name then none else property? name
  asProperty <|> category? name <|> (scriptCode? name).map scriptSet

/-- A set named by a property and its value. -/
def valued? (property value : String) : Option CharSet :=
  let value := loose value
  match loose property with
  | "gc" | "generalcategory" => category? value
  | "sc" | "script" => (scriptCode? value).map scriptSet
  | "scx" | "scriptextensions" => (scriptCode? value).map scriptUses
  | _ => none

end TypedQuery.CharSet
