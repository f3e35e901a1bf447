/-!
# Outlines

A tree printed with box-drawing connectors, one node a line: the name, and details in
brackets when there are some. Long details are cut, and the cut is marked by three points
that count towards the width.
-/

namespace TypedQuery

namespace Text

/-- At most `width` characters (at least the three points of the mark). -/
def truncate (text : String) (width : Nat) : String :=
  let cs := text.toList
  if cs.length ≤ width then text else String.ofList (cs.take (width - 3)) ++ "..."

/-- Lines without their ends; a carriage return before a line end belongs to it, and an
empty last line is none. -/
def linesFrom (line : List Char) : List Char → List (List Char)
  | [] => if line.isEmpty then [] else [line.reverse]
  | '\n' :: rest =>
    (match line with
      | '\r' :: before => before.reverse
      | line => line.reverse) :: linesFrom [] rest
  | c :: rest => linesFrom (c :: line) rest

def lines (text : String) : List String := (linesFrom [] text.toList).map String.ofList

/-- Puts `margin` in front of each line. -/
def indent (text margin : String) : String :=
  "\n".intercalate ((lines text).map (margin ++ ·))

end Text

inductive Outline where
  | node (name : String) (details : Option String) (children : List Outline)

namespace Outline

def label (maxDetails : Option Nat) (name : String) : Option String → String
  | none => name
  | some details =>
    name ++ " (" ++ (match maxDetails with
      | some width => Text.truncate details width
      | none => details) ++ ")"

mutual

/-- The lines of the nodes below one whose own lines start with `margin`. -/
def childLines (maxDetails : Option Nat) (margin : String) : List Outline → String
  | [] => ""
  | [child] => subtreeLines maxDetails margin "└─ " "   " child
  | child :: rest => subtreeLines maxDetails margin "├─ " "│  " child
    ++ childLines maxDetails margin rest

def subtreeLines (maxDetails : Option Nat) (margin connector extension : String) :
    Outline → String
  | node name details children =>
    margin ++ connector ++ label maxDetails name details ++ "\n"
      ++ childLines maxDetails (margin ++ extension) children

end

def render (maxDetails : Option Nat) : Outline → String
  | node name details children => label maxDetails name details ++ "\n"
    ++ childLines maxDetails "" children

end Outline

end TypedQuery
