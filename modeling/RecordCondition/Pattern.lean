import RecordCondition.Text.CharClass

/-!
# Patterns

A pattern is what is searched for anywhere in a text.  Of a pattern only two
things count: how it is written, and the texts in which it is found.

Regular patterns are lists of alternatives, and an alternative is a sequence of
anchors, of characters from a set and of repetitions of these.  A sequence is
matched from its end.  A table says of each suffix of the text whether the parts
from some point on match there, and each part turns the table of what follows it
into its own.  So the work grows with the length of the text and not with the
number of ways to divide it among the parts.
-/

namespace RecordCondition

open Text

structure Pattern where
  /-- The pattern as it is written. -/
  source : String
  /-- Whether the pattern is found in a text. -/
  isMatch : String → Bool

/-! ## Regular patterns -/

inductive CharMember
  | range (low high : Char)
  /-- A decimal digit of any script. -/
  | digit
  deriving DecidableEq, Repr

structure CharSet where
  negated : Bool
  members : List CharMember
  deriving DecidableEq, Repr

def CharMember.contains (c : Char) : CharMember → Bool
  | .range low high => low ≤ c && c ≤ high
  | .digit => isDecimalDigit c

def CharSet.contains (set : CharSet) (c : Char) : Bool :=
  set.members.any (CharMember.contains c) != set.negated

def CharSet.single (c : Char) : CharSet :=
  ⟨false, [.range c c]⟩

/-- Everything but a line feed. -/
def CharSet.dot : CharSet :=
  ⟨true, [.range '\n' '\n']⟩

inductive Part
  | start
  | finish
  | one (set : CharSet)
  /-- A part some times in a row, as often as one likes if `most` is missing. -/
  | repeated (part : Part) (least : Nat) (most : Option Nat)
  deriving DecidableEq, Repr

/-- A table has an entry for each suffix of a text, the longest first. -/
abbrev SuffixTable : Type := List Bool

/-- The suffixes at which a part matches, given those at which a match can go on
behind it.  Where a part may be repeated without end, a match needs no more
repetitions than the text has characters. -/
def Part.before (text : List Char) : Part → SuffixTable → SuffixTable
  | .start, after => after.take 1 ++ List.replicate text.length false
  | .finish, after => List.replicate text.length false ++ after.drop text.length
  | .one set, after =>
      text.zipWith (fun c next => set.contains c && next) (after.drop 1) ++ [false]
  | .repeated part least most, after =>
      let once := part.before text
      let further := match most with
        | some most => most - least
        | none => text.length
      let optional := Nat.repeat (fun table => after.zipWith or (once table)) further after
      Nat.repeat once least optional

/-- Whether the parts match one after the other somewhere in the text. -/
def matchesSequence (text : List Char) (parts : List Part) : Bool :=
  (parts.foldr (Part.before text) (List.replicate (text.length + 1) true)).any id

/-- Whether one of some alternatives matches somewhere in the text. -/
def matchesAny (alternatives : List (List Part)) (text : String) : Bool :=
  alternatives.any (matchesSequence text.toList)

end RecordCondition
