import TypedQuery.Unicode.Classes

/-!
# Quoted text

Names and texts inside messages stand between double quotes. A quote and a backslash
are preceded by a backslash, the common control characters have letters, and any
other character that is not printable, or that would attach to the one before it, is
written by its code point.
-/

namespace TypedQuery.Text

def hexDigits (n : Nat) : String := String.ofList (Nat.toDigits 16 n)

def quoteChar (c : Char) : String :=
  if c = '\x00' then "\\0"
  else if c = '\t' then "\\t"
  else if c = '\r' then "\\r"
  else if c = '\n' then "\\n"
  else if c = '"' then "\\\""
  else if c = '\\' then "\\\\"
  else if Unicode.isGraphemeExtend c || !Unicode.isPrintable c then
    "\\u\x7b" ++ hexDigits c.toNat ++ "\x7d"
  else c.toString

def quote (s : String) : String := "\"" ++ String.join (s.toList.map quoteChar) ++ "\""

/-- A bracketed list of quoted texts. -/
def quoteList (items : List String) : String :=
  "[" ++ ", ".intercalate (items.map quote) ++ "]"

end TypedQuery.Text
