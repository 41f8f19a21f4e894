import RecordCondition.Json.Reader
import RecordCondition.Text.CharClass

/-!
# Tokens of annotations

The text of an annotation is a sequence of words, string literals, punctuation
and other literals, with groups in brackets of three kinds.  Comments are passed
over, unless they are documentation, which counts as an annotation itself.
String literals may be written raw, with any number of number signs around their
quotes; a word may be marked with `r#`, which belongs to it.
-/

namespace RecordCondition

open Text

namespace Annotation

inductive Enclosure
  | round
  | square
  | curly
  deriving DecidableEq, Repr

inductive Token
  | word (text : String)
  | string (value : String)
  | mark (c : Char)
  /-- The two colons between the words of a path. -/
  | path
  | literal
  | group (enclosure : Enclosure) (contents : List Token)

/-- What is read before brackets are matched. -/
inductive Piece
  | tokens (tokens : List Token)
  | opening (enclosure : Enclosure)
  | closing

/-! ## Characters -/

/-- White space, to which the marks for the direction of text belong. -/
def isGap (c : Char) : Bool :=
  isWhitespace c || c = '\u200e' || c = '\u200f'

/-- The characters of words.  No other token is written with characters outside
of ASCII, so all of those belong to words, but for white space. -/
def isWordPart (c : Char) : Bool :=
  c.isAlphanum || c = '_' || (0x80 ≤ c.toNat && !isGap c)

def isWordStart (c : Char) : Bool :=
  isWordPart c && !c.isDigit

/-! ## Literals -/

/-- The text of a raw string up to its closing quote and number signs. -/
def splitRaw (close : List Char) : List Char → List Char × List Char
  | [] => ([], [])
  | c :: rest =>
      if close.isPrefixOf (c :: rest) then ([], (c :: rest).drop close.length)
      else (c :: (splitRaw close rest).1, (splitRaw close rest).2)

/-- The raw string that starts after the letter `r`, if one does. -/
def readRaw (text : List Char) : Option (List Char × List Char) :=
  let signs := text.takeWhile (· = '#')
  match text.dropWhile (· = '#') with
  | '"' :: rest => some (splitRaw ('"' :: signs) rest)
  | _ => none

/-- The character that an escape in a string stands for.  A backslash at the end
of a line stands for nothing and hides the white space after it. -/
def readEscape : List Char → List Char × List Char
  | 'n' :: rest => (['\n'], rest)
  | 't' :: rest => (['\t'], rest)
  | 'r' :: rest => (['\r'], rest)
  | '0' :: rest => (['\x00'], rest)
  | 'x' :: a :: b :: rest =>
      match Json.hexValue? a, Json.hexValue? b with
      | some a, some b => ([Char.ofNat (a * 16 + b)], rest)
      | _, _ => ([], rest)
  | 'u' :: '\x7b' :: rest =>
      let digits := (rest.takeWhile (· ≠ '\x7d')).filterMap Json.hexValue?
      ([Char.ofNat (digits.foldl (fun value digit => value * 16 + digit) 0)],
        (rest.dropWhile (· ≠ '\x7d')).drop 1)
  | '\n' :: rest => ([], rest.dropWhile isWhitespace)
  | '\r' :: rest => ([], rest.dropWhile isWhitespace)
  | c :: rest => ([c], rest)
  | [] => ([], [])

theorem readEscape_length (text : List Char) :
    (readEscape text).2.length ≤ text.length := by
  have drop (p : Char → Bool) (cs : List Char) : (cs.dropWhile p).length ≤ cs.length :=
    (List.dropWhile_sublist p).length_le
  unfold readEscape
  split
  case h_5 => split <;> simp only [List.length_cons] <;> omega
  case h_6 rest =>
    have := drop (· ≠ '\x7d') rest
    simp only [List.length_cons, List.length_drop]
    omega
  case h_7 rest => exact Nat.le_succ_of_le (drop isWhitespace rest)
  case h_8 rest => exact Nat.le_succ_of_le (drop isWhitespace rest)
  all_goals simp

/-- The text of a string up to its closing quote.  A carriage return before a
line feed is dropped. -/
def readQuoted (text : List Char) : List Char × List Char :=
  match text with
  | [] => ([], [])
  | '"' :: rest => ([], rest)
  | '\\' :: rest =>
      let next := readQuoted (readEscape rest).2
      ((readEscape rest).1 ++ next.1, next.2)
  | '\r' :: '\n' :: rest => ('\n' :: (readQuoted rest).1, (readQuoted rest).2)
  | c :: rest => (c :: (readQuoted rest).1, (readQuoted rest).2)
  termination_by text.length
  decreasing_by
    · exact Nat.lt_succ_of_le (readEscape_length rest)
    all_goals simp only [List.length_cons]; omega

/-- What follows a single quote: a character literal ends with another quote,
otherwise the quote marks a name. -/
def skipTick : List Char → List Char
  | '\\' :: _ :: rest => (rest.dropWhile (· ≠ '\'')).drop 1
  | _ :: '\'' :: rest => rest
  | rest => rest.dropWhile isWordPart

/-- A suffix that is written onto a literal says nothing about its value. -/
def skipSuffix : List Char → List Char
  | [] => []
  | c :: rest => if isWordStart c then rest.dropWhile isWordPart else c :: rest

/-! ## Comments -/

def skipLine (text : List Char) : List Char :=
  text.dropWhile (· ≠ '\n')

/-- What follows a comment between marks, in which others may be nested. -/
def skipComment : Nat → List Char → List Char
  | _, [] => []
  | depth, '/' :: '*' :: rest => skipComment (depth + 1) rest
  | 0, '*' :: '/' :: rest => rest
  | depth + 1, '*' :: '/' :: rest => skipComment depth rest
  | depth, _ :: rest => skipComment depth rest

/-- What a documentation comment stands for.  It is inner when it is about what
encloses it. -/
def documentation (inner : Bool) : List Token :=
  let text := Token.group .square [.word "doc", .mark '=', .literal]
  if inner then [.mark '#', .mark '!', text] else [.mark '#', text]

/-- The comment after a slash, if one begins there.  A third slash or a second
star makes it documentation, but a further one does not. -/
def readComment : List Char → Option (List Token × List Char)
  | '/' :: '!' :: rest => some (documentation true, skipLine rest)
  | '/' :: '/' :: '/' :: rest => some ([], skipLine rest)
  | '/' :: '/' :: rest => some (documentation false, skipLine rest)
  | '/' :: rest => some ([], skipLine rest)
  | '*' :: '!' :: rest => some (documentation true, skipComment 0 rest)
  | '*' :: '*' :: '/' :: rest => some ([], rest)
  | '*' :: '*' :: '*' :: rest => some ([], skipComment 0 ('*' :: '*' :: rest))
  | '*' :: '*' :: rest => some (documentation false, skipComment 0 ('*' :: rest))
  | '*' :: rest => some ([], skipComment 0 rest)
  | _ => none

/-! ## Pieces -/

def readWord (start : List Char) (text : List Char) : Piece × List Char :=
  (.tokens [.word (String.ofList (start ++ text.takeWhile isWordPart))],
    text.dropWhile isWordPart)

/-- A literal of which the value is of no interest. -/
def plainLiteral (rest : List Char) : Piece × List Char :=
  (.tokens [.literal], rest)

def stringLiteral (parts : List Char × List Char) : Piece × List Char :=
  (.tokens [.string (String.ofList parts.1)], skipSuffix parts.2)

/-- What follows an `r`: a raw string, a word with a mark, or the rest of a word
that begins with the letter. -/
def readAfterR (rest : List Char) : Piece × List Char :=
  match readRaw rest, rest with
  | some parts, _ => stringLiteral parts
  | none, '#' :: name => readWord ['r', '#'] name
  | none, _ => readWord ['r'] rest

/-- What follows a `b` or a `c`, which may stand in front of the quotes of a
literal. -/
def readAfterLetter (c : Char) (rest : List Char) : Piece × List Char :=
  match rest with
  | '"' :: text => plainLiteral (readQuoted text).2
  | '\'' :: text => if c = 'b' then plainLiteral (skipTick text) else readWord [c] rest
  | 'r' :: text =>
      match readRaw text with
      | some parts => plainLiteral parts.2
      | none => readWord [c] rest
  | _ => readWord [c] rest

/-- The comment `ERROR` alone in round brackets is the literal for something
that could not be expanded; its text after the first bracket. -/
def unexpanded : List Char :=
  "/*ERROR*/)".toList

/-- The piece at the front of a text that does not begin with white space. -/
def readPiece (c : Char) (rest : List Char) : Piece × List Char :=
  if c = '"' then stringLiteral (readQuoted rest)
  else if c = '\'' then plainLiteral (skipTick rest)
  else if c = '(' then
    if unexpanded.isPrefixOf rest then plainLiteral (rest.drop unexpanded.length)
    else (.opening .round, rest)
  else if c = '[' then (.opening .square, rest)
  else if c = '\x7b' then (.opening .curly, rest)
  else if c = ')' || c = ']' || c = '\x7d' then (.closing, rest)
  else if c = 'r' then readAfterR rest
  else if c = 'b' || c = 'c' then readAfterLetter c rest
  else if isWordStart c then readWord [c] rest
  else if c.isDigit then plainLiteral (rest.dropWhile fun c => isWordPart c || c = '.')
  else if c = '/' then
    match readComment rest with
    | some (tokens, after) => (.tokens tokens, after)
    | none => (.tokens [.mark c], rest)
  else
    match c, rest with
    | ':', ':' :: after => (.tokens [.path], after)
    | _, _ => (.tokens [.mark c], rest)

/-- The pieces of a text; each takes at least a character. -/
def readPieces (text : List Char) : List Piece :=
  match text with
  | [] => []
  | c :: rest =>
      if isGap c then
        readPieces rest
      else if (readPiece c rest).2.length ≤ rest.length then
        (readPiece c rest).1 :: readPieces (readPiece c rest).2
      else
        []
  termination_by text.length

/-- The groups that are open, innermost first, each with the tokens in it so
far, last first. -/
abbrev Stack : Type := List (Enclosure × List Token)

/-- Adds a token to the innermost group that is open. -/
def pushToken (token : Token) (outer : List Token) : Stack → List Token × Stack
  | [] => (token :: outer, [])
  | (enclosure, contents) :: stack => (outer, (enclosure, token :: contents) :: stack)

def pushPiece : List Token × Stack → Piece → List Token × Stack
  | state, .tokens tokens =>
      tokens.foldl (fun state token => pushToken token state.1 state.2) state
  | (outer, stack), .opening enclosure => (outer, (enclosure, []) :: stack)
  | (outer, (enclosure, contents) :: stack), .closing =>
      pushToken (.group enclosure contents.reverse) outer stack
  | (outer, []), .closing => (outer, [])

/-- The tokens of an annotation. -/
def readTokens (text : String) : List Token :=
  ((readPieces text.toList).foldl pushPiece ([], [])).1.reverse

end Annotation

end RecordCondition
