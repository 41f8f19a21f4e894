import RecordCondition.Pattern
import RecordCondition.Decimal

/-!
# Reading patterns

The written form of regular patterns: literal characters, a dot, `\d`, classes in square
brackets with ranges and complement, the anchors, alternatives, and repetition
of the character or anchor in front, which may itself be repeated.  There are no
groups, no classes within classes, and no letters after a backslash but `d` and
those for control characters.
-/

namespace RecordCondition

open Text

namespace Pattern

inductive Token
  /-- A character as it is written, which may have a meaning of its own. -/
  | sign (c : Char)
  /-- A character that stands for itself. -/
  | literal (c : Char)
  | digit
  deriving DecidableEq, Repr

/-- What a backslash and a character stand for.  Every sign of ASCII can be
written so, except for the two that mark the ends of words. -/
def Token.ofEscape? (c : Char) : Option Token :=
  match c with
  | 'd' => some .digit
  | 'n' => some (.literal '\n')
  | 'r' => some (.literal '\r')
  | 't' => some (.literal '\t')
  | 'a' => some (.literal '\x07')
  | 'v' => some (.literal '\x0b')
  | 'f' => some (.literal '\x0c')
  | c =>
      if c.isAlphanum || c = '<' || c = '>' || 0x80 ≤ c.toNat then none else some (.literal c)

def readTokens : List Char → Option (List Token)
  | [] => some []
  | ['\\'] => none
  | '\\' :: c :: rest => do
      let token ← Token.ofEscape? c
      let tokens ← readTokens rest
      some (token :: tokens)
  | c :: rest => (readTokens rest).map (.sign c :: ·)

/-! ## Classes -/

def Token.member : Token → CharMember
  | .sign c => .range c c
  | .literal c => .range c c
  | .digit => .digit

/-- The range between two tokens of a class, which must not run backwards. -/
def Token.range? (low high : Token) : Option CharMember :=
  match low.member, high.member with
  | .range low _, .range high _ => if low ≤ high then some (.range low high) else none
  | _, _ => none

/-- The members of a class up to its closing bracket.  A dash in front of the
bracket stands for itself. -/
def readMembers : List Token → Option (List CharMember × List Token)
  | [] => none
  | .sign ']' :: rest => some ([], rest)
  | .sign '[' :: _ => none
  | .sign '&' :: .sign '&' :: _ => none
  | .sign '~' :: .sign '~' :: _ => none
  | .sign '-' :: .sign '-' :: _ => none
  | low :: .sign '-' :: .sign ']' :: rest => some ([low.member, .range '-' '-'], rest)
  | _ :: .sign '-' :: .sign '-' :: _ => none
  | low :: .sign '-' :: high :: rest => do
      let range ← low.range? high
      let (members, rest) ← readMembers rest
      some (range :: members, rest)
  | token :: rest => (readMembers rest).map fun (members, rest) => (token.member :: members, rest)

/-- The members of a class from its first place, where dashes stand for
themselves, and so does a closing bracket. -/
def readFirstMembers (text : List Token) : Option (List CharMember × List Token) :=
  let dashes := text.takeWhile (· = .sign '-')
  match dashes, text.dropWhile (· = .sign '-') with
  | [], .sign ']' :: rest =>
      (readMembers rest).map fun (members, rest) => (.range ']' ']' :: members, rest)
  | dashes, rest =>
      (readMembers rest).map fun (members, rest) => (dashes.map Token.member ++ members, rest)

/-- A class after its opening bracket. -/
def readClass : List Token → Option (CharSet × List Token)
  | .sign '^' :: rest =>
      (readFirstMembers rest).map fun (members, rest) => (⟨true, members⟩, rest)
  | rest => (readFirstMembers rest).map fun (members, rest) => (⟨false, members⟩, rest)

/-! ## Parts -/

/-- What is repeated: an anchor or a character. -/
def readAtom : List Token → Option (Part × List Token)
  | .sign '^' :: rest => some (.start, rest)
  | .sign '$' :: rest => some (.finish, rest)
  | .sign '.' :: rest => some (.one .dot, rest)
  | .sign '[' :: rest => (readClass rest).map fun (set, rest) => (.one set, rest)
  | .sign c :: rest =>
      if ['(', ')', '*', '+', '?', '{', '|'].contains c then none
      else some (.one (.single c), rest)
  | token :: rest => some (.one ⟨false, [token.member]⟩, rest)
  | [] => none

def Token.isSpace : Token → Bool
  | .sign c => isWhitespace c
  | _ => false

def Token.decimalDigit? : Token → Option Char
  | .sign c => if c.isDigit then some c else none
  | _ => none

/-- A number, which may have white space around it. -/
def readNumber (text : List Token) : Option (Nat × List Token) :=
  let text := text.dropWhile Token.isSpace
  let numeral := text.takeWhile fun token => token.decimalDigit?.isSome
  let digits := numeral.filterMap Token.decimalDigit?
  if digits.isEmpty then none
  else some (decimalValue digits, (text.drop digits.length).dropWhile Token.isSpace)

/-- The bounds of a counted repetition after its opening brace. -/
def readCount (text : List Token) : Option (Nat × Option Nat × List Token) := do
  let (least, rest) ← readNumber text
  match rest with
  | .sign '\x7d' :: rest => some (least, some least, rest)
  | .sign ',' :: .sign '\x7d' :: rest => some (least, none, rest)
  | .sign ',' :: rest =>
      let (most, rest) ← readNumber rest
      match rest with
      | .sign '\x7d' :: rest => if least ≤ most then some (least, some most, rest) else none
      | _ => none
  | _ => none

def readRepetition : List Token → Option (Nat × Option Nat × List Token)
  | .sign '*' :: rest => some (0, none, rest)
  | .sign '+' :: rest => some (1, none, rest)
  | .sign '?' :: rest => some (0, some 1, rest)
  | .sign '{' :: rest => readCount rest
  | _ => none

/-- A question mark behind a repetition asks for the fewest possible, which
makes no difference to whether there is a match. -/
def skipFewest : List Token → List Token
  | .sign '?' :: rest => rest
  | rest => rest

/-- A part with the repetitions that follow it. -/
def readRepetitions (part : Part) (text : List Token) : Part × List Token :=
  match readRepetition text with
  | none => (part, text)
  | some (least, most, rest) =>
      let after := skipFewest rest
      if after.length < text.length then
        readRepetitions (.repeated part least most) after
      else
        (part, text)
  termination_by text.length

/-- Puts a part in front of the first alternative. -/
def prependPart (part : Part) : List (List Part) → List (List Part)
  | [] => [[part]]
  | first :: others => (part :: first) :: others

def readAlternatives (text : List Token) : Option (List (List Part)) :=
  match text with
  | [] => some [[]]
  | .sign '|' :: rest => (readAlternatives rest).map ([] :: ·)
  | text => do
      let (atom, rest) ← readAtom text
      let (part, after) := readRepetitions atom rest
      if after.length < text.length then
        (readAlternatives after).map (prependPart part)
      else
        none
  termination_by text.length

def read? (source : String) : Option Pattern := do
  let tokens ← readTokens source.toList
  let alternatives ← readAlternatives tokens
  some ⟨source, matchesAny alternatives⟩

end Pattern

end RecordCondition
