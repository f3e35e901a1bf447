import TypedQuery.Unicode.Classes
import TypedQuery.Unicode.Tables

/-!
# Upper and lower case

A character may map to several. In a text, a capital sigma that ends a word becomes a
final sigma: the nearest character before it that is not case-ignorable is cased, and the
nearest one after it is not.
-/

namespace TypedQuery.Text

open Unicode

def mapCase (runs : ShiftRuns) (sequences : List (Nat × List Nat)) (c : Char) : List Char :=
  match sequences.find? (·.1 = c.toNat) with
  | some (_, image) => image.map Char.ofNat
  | none => [Char.ofNat (runs.map c.toNat)]

def upperChar (c : Char) : List Char :=
  if c.toNat < 128 then [c.toUpper] else mapCase upperRuns upperSequences c

def lowerChar (c : Char) : List Char :=
  if c.toNat < 128 then [c.toLower] else mapCase lowerRuns lowerSequences c

def upper (cs : List Char) : List Char := cs.flatMap upperChar

/-- Whether the first character that is not case-ignorable is cased. -/
def meetsCased (cs : List Char) : Bool :=
  match cs.dropWhile isCaseIgnorable with
  | c :: _ => isCased c
  | [] => false

/-- Lower case of a text of which `before` has been read, last character first. -/
def lowerFrom (before : List Char) : List Char → List Char
  | [] => []
  | c :: rest =>
    (if c = 'Σ' then [if meetsCased before && !meetsCased rest then 'ς' else 'σ']
      else lowerChar c)
      ++ lowerFrom (c :: before) rest

def lower (cs : List Char) : List Char := lowerFrom [] cs

/-- The first character in upper case and every other one, by itself, in lower case. -/
def capitalize : List Char → List Char
  | [] => []
  | c :: rest => upperChar c ++ rest.flatMap lowerChar

end TypedQuery.Text
