import TypedQuery.Unicode.Tables

/-!
# Classes of characters

The character classes that the text functions and the pattern language name.
-/

namespace TypedQuery.Unicode

def cased : RangeSet := property "Cased"

def caseIgnorable : RangeSet := property "Case_Ignorable"

def graphemeExtend : RangeSet := property "Grapheme_Extend"

def whiteSpace : RangeSet := property "White_Space"

def alphabetic : RangeSet := property "Alphabetic"

def joinControl : RangeSet := property "Join_Control"

def isCased (c : Char) : Bool := cased.contains c.toNat

def isCaseIgnorable (c : Char) : Bool := caseIgnorable.contains c.toNat

/-- Characters that attach to the one before them. -/
def isGraphemeExtend (c : Char) : Bool := graphemeExtend.contains c.toNat

def isBlank (c : Char) : Bool := whiteSpace.contains c.toNat

def isDecimalDigit (c : Char) : Bool := category c == "Nd"

/-- Letters, marks, decimal digits, connectors and joiners. -/
def isWord (c : Char) : Bool :=
  let k := category c
  alphabetic.contains c.toNat || k.startsWith "M" || k == "Nd" || k
    == "Pc" || joinControl.contains c.toNat

/-- Neither a control or format character, nor a separator other than the
blank, nor unassigned. -/
def isPrintable (c : Char) : Bool :=
  c = ' ' || !(["Cc", "Cf", "Cs", "Co", "Cn", "Zl", "Zp", "Zs"].contains (category c))

end TypedQuery.Unicode
