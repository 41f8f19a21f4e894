import RecordCondition.Json
import RecordCondition.Token.Lexer

/-!
# Reading JSON

A reader takes a value from the front of a text.  It tells a text that ends too
early from one that is wrong before its end.  A value that is only passed over
is read leniently: unpaired surrogates are let through, and a number cut off by
the end of the text is wrong rather than too short.
-/

namespace RecordCondition

open Text

namespace Json

inductive Fault
  | malformed
  | truncated
  /-- A well-formed value of a kind that is not wanted. -/
  | unexpected
  deriving DecidableEq, Repr

abbrev Reader (α : Type) : Type :=
  List Char → Except Fault (α × List Char)

def skipBlanks (text : List Char) : List Char :=
  text.dropWhile isBlank

/-- The rest of a word of which the first letter has been taken. -/
def readWord (value : Json) : List Char → Reader Json
  | [], text => .ok (value, text)
  | _ :: _, [] => .error .truncated
  | expected :: word, c :: rest =>
      if c = expected then readWord value word rest else .error .malformed

/-! ## Numbers -/

/-- What a number that ends too early is called. -/
def cutOff (lenient : Bool) : Fault :=
  if lenient then .malformed else .truncated

/-- One digit or more. -/
def readDigits (lenient : Bool) : Reader (List Char)
  | [] => .error (cutOff lenient)
  | c :: rest =>
      if c.isDigit then
        .ok (c :: rest.takeWhile Char.isDigit, rest.dropWhile Char.isDigit)
      else
        .error .malformed

/-- Digits of which the first is zero only when it stands alone. -/
def readWhole (lenient : Bool) (text : List Char) : Except Fault (List Char × List Char) := do
  let (digits, rest) ← readDigits lenient text
  if digits.head? = some '0' && 1 < digits.length then .error .malformed else .ok (digits, rest)

def readFraction (lenient : Bool) : Reader (List Char)
  | '.' :: rest => do
      let (digits, rest) ← readDigits lenient rest
      .ok ('.' :: digits, rest)
  | text => .ok ([], text)

def readExponent (lenient : Bool) : Reader (List Char)
  | [] => .ok ([], [])
  | c :: rest =>
      if c = 'e' || c = 'E' then do
        let (sign, rest) := splitSign rest
        let (digits, rest) ← readDigits lenient rest
        .ok (c :: (sign ++ digits), rest)
      else
        .ok ([], c :: rest)

def readUnsigned (lenient : Bool) (text : List Char) : Except Fault (List Char × List Char) := do
  let (whole, rest) ← readWhole lenient text
  let (fraction, rest) ← readFraction lenient rest
  let (exponent, rest) ← readExponent lenient rest
  .ok (whole ++ fraction ++ exponent, rest)

def readNumber (lenient : Bool) : Reader String
  | '-' :: rest => do
      let (digits, rest) ← readUnsigned lenient rest
      .ok (String.ofList ('-' :: digits), rest)
  | text => do
      let (digits, rest) ← readUnsigned lenient text
      .ok (String.ofList digits, rest)

/-! ## Strings -/

def hexValue? (c : Char) : Option Nat :=
  if c.isDigit then some (digitValue c)
  else if 'a' ≤ c && c ≤ 'f' then some (c.toNat - 'a'.toNat + 10)
  else if 'A' ≤ c && c ≤ 'F' then some (c.toNat - 'A'.toNat + 10)
  else none

/-- Four hexadecimal digits. -/
def readUnit : Reader Nat
  | a :: b :: c :: d :: rest =>
      match hexValue? a, hexValue? b, hexValue? c, hexValue? d with
      | some a, some b, some c, some d => .ok (((a * 16 + b) * 16 + c) * 16 + d, rest)
      | _, _, _, _ => .error .malformed
  | text => if utf8Size text < 4 then .error .truncated else .error .malformed

def isHighSurrogate (unit : Nat) : Bool :=
  0xD800 ≤ unit && unit ≤ 0xDBFF

def isLowSurrogate (unit : Nat) : Bool :=
  0xDC00 ≤ unit && unit ≤ 0xDFFF

/-- The character of an escaped unit, with the second unit of a pair. -/
def readCodePoint (lenient : Bool) (text : List Char) : Except Fault (Char × List Char) := do
  let (unit, rest) ← readUnit text
  if lenient then
    .ok (Char.ofNat unit, rest)
  else if isLowSurrogate unit then
    .error .malformed
  else if isHighSurrogate unit then
    match rest with
    | [] => .error .truncated
    | ['\\'] => .error .truncated
    | '\\' :: 'u' :: rest => do
        let (low, rest) ← readUnit rest
        if isLowSurrogate low then
          .ok (Char.ofNat (0x10000 + (unit - 0xD800) * 0x400 + (low - 0xDC00)), rest)
        else
          .error .malformed
    | _ => .error .malformed
  else
    .ok (Char.ofNat unit, rest)

/-- What follows a backslash. -/
def readEscape (lenient : Bool) : Reader Char
  | [] => .error .truncated
  | '"' :: rest => .ok ('"', rest)
  | '\\' :: rest => .ok ('\\', rest)
  | '/' :: rest => .ok ('/', rest)
  | 'b' :: rest => .ok ('\x08', rest)
  | 'f' :: rest => .ok ('\x0c', rest)
  | 'n' :: rest => .ok ('\n', rest)
  | 'r' :: rest => .ok ('\r', rest)
  | 't' :: rest => .ok ('\t', rest)
  | 'u' :: rest => readCodePoint lenient rest
  | _ => .error .malformed

/-- The characters of a string up to its closing mark. -/
def readCharacters (lenient : Bool) : List Char → Except Fault (List Char × List Char)
  | [] => .error .truncated
  | c :: rest =>
      if c = '"' then
        .ok ([], rest)
      else if c = '\\' then
        match readEscape lenient rest with
        | .error e => .error e
        | .ok (character, after) =>
            if after.length < rest.length + 1 then
              (readCharacters lenient after).map fun (text, after) => (character :: text, after)
            else
              .error .malformed
      else if c.toNat < 0x20 then
        .error .malformed
      else
        (readCharacters lenient rest).map fun (text, after) => (c :: text, after)
  termination_by text => text.length

/-- A string after its opening mark. -/
def readString (lenient : Bool) (text : List Char) : Except Fault (String × List Char) :=
  (readCharacters lenient text).map fun (text, after) => (String.ofList text, after)

/-! ## Values -/

/-- Values separated by commas, up to a closing mark. -/
def readItems (close : Char) (item : Reader α) (text : List Char) :
    Except Fault (List α × List Char) :=
  match item text with
  | .error e => .error e
  | .ok (first, rest) =>
      match skipBlanks rest with
      | [] => .error .truncated
      | c :: after =>
          if c = close then
            .ok ([first], after)
          else if c ≠ ',' then
            .error .malformed
          else if after.length < text.length then
            (readItems close item after).map fun (items, after) => (first :: items, after)
          else
            .error .malformed
  termination_by text.length

/-- The items of an array or an object after its opening mark. -/
def readList (close : Char) (item : Reader α) (text : List Char) :
    Except Fault (List α × List Char) :=
  match skipBlanks text with
  | [] => .error .truncated
  | c :: rest => if c = close then .ok ([], rest) else readItems close item (c :: rest)

/-- The colon after a key. -/
def readColon (text : List Char) : Except Fault (List Char) :=
  match skipBlanks text with
  | [] => .error .truncated
  | c :: rest => if c = ':' then .ok rest else .error .malformed

def readMember (lenient : Bool) (value : Reader Json) (text : List Char) :
    Except Fault ((String × Json) × List Char) :=
  match skipBlanks text with
  | [] => .error .truncated
  | '"' :: rest => do
      let (key, rest) ← readString lenient rest
      let rest ← readColon rest
      let (value, rest) ← value rest
      .ok ((key, value), rest)
  | _ => .error .malformed

/-- A value with less than `depth` arrays and objects one inside the other. -/
def readNested (lenient : Bool) : Nat → Reader Json
  | 0 => fun _ => .error .malformed
  | depth + 1 => fun text =>
      match skipBlanks text with
      | [] => .error .truncated
      | 'n' :: rest => readWord .null ['u', 'l', 'l'] rest
      | 't' :: rest => readWord (.truth true) ['r', 'u', 'e'] rest
      | 'f' :: rest => readWord (.truth false) ['a', 'l', 's', 'e'] rest
      | '"' :: rest => (readString lenient rest).map fun (text, rest) => (.string text, rest)
      | '[' :: rest =>
          (readList ']' (readNested lenient depth) rest).map fun (items, rest) =>
            (.array items, rest)
      | '\x7b' :: rest =>
          (readList '\x7d' (readMember lenient (readNested lenient depth)) rest).map
            fun (members, rest) => (.object members, rest)
      | c :: rest =>
          if c = '-' || c.isDigit then
            (readNumber lenient (c :: rest)).map fun (token, rest) => (.number token, rest)
          else
            .error .malformed

/-- The value at the front of a text.  Every array and object takes a character
of it. -/
def readValue (lenient : Bool) (text : List Char) : Except Fault (Json × List Char) :=
  readNested lenient (text.length + 1) text

/-- The value that a text consists of. -/
def parse (text : String) : Except Fault Json := do
  let (value, rest) ← readValue false text.toList
  if (skipBlanks rest).isEmpty then .ok value else .error .malformed

end Json

end RecordCondition
