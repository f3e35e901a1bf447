import TypedQuery.Regex.CharSet

/-!
# Patterns

What a pattern matches, after all its flags have been taken into account. `Pattern.repeats`
keeps patterns small: a pattern without width is not worth repeating.
-/

namespace TypedQuery

/-- Which edges of words an assertion asks for. The half edges look at one side only. -/
inductive WordEdge where
  | either
  | neither
  | start
  | stop
  | startHalf
  | stopHalf
  deriving DecidableEq

/-- A condition on a place between characters. -/
inductive Assertion where
  | textStart
  | textEnd
  | lineStart
  | lineEnd
  /-- Lines that may also end with a carriage return, or with one and a line feed after it.
  -/
  | returnStart
  | returnEnd
  | word (edge : WordEdge) (ascii : Bool)
  deriving DecidableEq

namespace Assertion

def isWord (ascii : Bool) : Option Char → Bool
  | some c => if ascii then CharSet.Ascii.word.contains c else Unicode.isWord c
  | none => false

def holds (previous next : Option Char) : Assertion → Bool
  | textStart => previous.isNone
  | textEnd => next.isNone
  | lineStart => previous.isNone || previous = some '\n'
  | lineEnd => next.isNone || next = some '\n'
  | returnStart => previous.isNone || previous
    = some '\n' || (previous = some '\r' && next ≠ some '\n')
  | returnEnd =>
    next.isNone || next = some '\r' || (next = some '\n' && previous ≠ some '\r')
  | word edge ascii =>
    let before := isWord ascii previous
    let after := isWord ascii next
    match edge with
    | .either => before != after
    | .neither => before == after
    | .start => !before && after
    | .stop => before && !after
    | .startHalf => !before
    | .stopHalf => !after

end Assertion

inductive Pattern where
  | empty
  | one (set : CharSet)
  | look (assertion : Assertion)
  | andThen (a b : Pattern)
  /-- The first alternative is preferred. -/
  | either (a b : Pattern)
  /-- At least `least` and at most `most` times: as often as possible if greedy, else
  as rarely as possible. -/
  | repeated (p : Pattern) (least : Nat) (most : Option Nat) (greedy : Bool)
  /-- Remembers where it matched. -/
  | group (index : Nat) (p : Pattern)

namespace Pattern

def sequence : List Pattern → Pattern
  | [] => empty
  | [p] => p
  | p :: rest => andThen p (sequence rest)

def alternatives : List Pattern → Pattern
  | [] => empty
  | [p] => p
  | p :: rest => either p (alternatives rest)

/-- Whether it can only match between characters. -/
def hasNoWidth : Pattern → Bool
  | empty | look _ => true
  | one _ => false
  | andThen a b | either a b => a.hasNoWidth && b.hasNoWidth
  | repeated p _ most _ => p.hasNoWidth || most = some 0
  | group _ p => p.hasNoWidth

def repeats (p : Pattern) (least : Nat) (most : Option Nat) (greedy : Bool) : Pattern :=
  let (least, most) := if p.hasNoWidth then (min least 1, some (min (most.getD 1) 1))
    else (least, most)
  match least, most with
  | 0, some 0 => empty
  | 1, some 1 => p
  | least, most => repeated p least most greedy

/-- Roughly how many states the pattern needs. -/
def size : Pattern → Nat
  | empty => 0
  | one set => set.cost
  | look _ => 1
  | andThen a b => a.size + b.size
  | either a b => a.size + b.size + 1
  | repeated p least none _ => p.size * max least 1 + 2
  | repeated p least (some most) _ => p.size * least + (p.size + 1) * (most - least)
  | group _ p => p.size + 2

end Pattern

end TypedQuery
