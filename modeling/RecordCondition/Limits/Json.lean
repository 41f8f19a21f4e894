import RecordCondition.Json.Reader
import RecordCondition.Limits

/-!
# Limits as JSON

Limits are written as an object with a number for each, and read from such an
object or from an array of the numbers in order.  What is missing is taken from
the defaults, and keys of other names are passed over.  The text is read from
left to right, and the first fault in it is the one that is answered.
-/

namespace RecordCondition

namespace Limits

open Json

/-- Defaults that settings may replace.  A setting that is no unsigned number of
64 bits has no effect. -/
def ofSettings (maxLength maxDepth : Option String) : Limits :=
  let read (setting : Option String) (default : Nat) : Nat :=
    match setting.bind fun text => (unsigned64.read text).toOption with
    | some value => value.1.toNat
    | none => default
  ⟨read maxLength 1000, read maxDepth 32⟩

def toJson (limits : Limits) : String :=
  String.join
    ["\x7b\"max_length\":", toString limits.maxLength,
      ",\"max_depth\":", toString limits.maxDepth, "\x7d"]

/-- The limit that a number token stands for.  A number beyond all doubles is
no number at all. -/
def ofToken (token : String) : Except Fault Nat :=
  match (Json.number token).integer? unsigned64 with
  | some value => .ok value.1.toNat
  | none =>
      match doubleOfToken token with
      | some (.infinite _) => .error .malformed
      | _ => .error .unexpected

/-- The fault of a value that is no limit.  An array or an object is refused at
its first character, other values at their end. -/
def refuse (text : List Char) : Fault :=
  match skipBlanks text with
  | '[' :: _ | '\x7b' :: _ => .unexpected
  | text =>
      match readValue false text with
      | .error e => e
      | .ok (.number token, _) =>
          match ofToken token with
          | .error e => e
          | .ok _ => .unexpected
      | .ok _ => .unexpected

def readLimit (text : List Char) : Except Fault (Nat × List Char) :=
  match readValue false text with
  | .ok (.number token, rest) => do
      let limit ← ofToken token
      .ok (limit, rest)
  | _ => .error (refuse text)

/-- The limits found so far. -/
structure Found where
  maxLength : Option Nat := none
  maxDepth : Option Nat := none

def Found.complete (found : Found) (defaults : Limits) : Limits :=
  ⟨found.maxLength.getD defaults.maxLength, found.maxDepth.getD defaults.maxDepth⟩

/-- A limit after its key; a second one is refused before its value is read. -/
def readFirst (present : Option Nat) (text : List Char) : Except Fault (Nat × List Char) :=
  match present with
  | some _ => .error .unexpected
  | none => do
      let rest ← readColon text
      readLimit rest

/-- A key and its value. -/
def readEntry (found : Found) (text : List Char) : Except Fault (Found × List Char) :=
  match text with
  | '"' :: rest => do
      let (key, rest) ← readString false rest
      if key = "max_length" then
        let (limit, rest) ← readFirst found.maxLength rest
        .ok (⟨some limit, found.maxDepth⟩, rest)
      else if key = "max_depth" then
        let (limit, rest) ← readFirst found.maxDepth rest
        .ok (⟨found.maxLength, some limit⟩, rest)
      else
        let rest ← readColon rest
        let (_, rest) ← readValue true rest
        .ok (found, rest)
  | [] => .error .truncated
  | _ => .error .malformed

/-- The entries of an object, up to its closing brace. -/
def readEntries (found : Found) (text : List Char) : Except Fault (Found × List Char) :=
  match readEntry found text with
  | .error e => .error e
  | .ok (found, rest) =>
      match skipBlanks rest with
      | [] => .error .truncated
      | '\x7d' :: after => .ok (found, after)
      | ',' :: after =>
          if (skipBlanks after).length < text.length then
            readEntries found (skipBlanks after)
          else
            .error .malformed
      | _ => .error .malformed
  termination_by text.length

def readObject (text : List Char) : Except Fault (Found × List Char) :=
  match skipBlanks text with
  | '\x7d' :: after => .ok ({}, after)
  | text => readEntries {} text

/-- The end of an array of two limits. -/
def readClose (text : List Char) : Except Fault (List Char) :=
  match skipBlanks text with
  | [] => .error .truncated
  | ']' :: rest => .ok rest
  | _ => .error .malformed

/-- Up to two limits in order. -/
def readArray (text : List Char) : Except Fault (Found × List Char) :=
  match skipBlanks text with
  | [] => .error .truncated
  | ']' :: rest => .ok ({}, rest)
  | text => do
      let (first, rest) ← readLimit text
      match skipBlanks rest with
      | [] => .error .truncated
      | ']' :: rest => .ok ({ maxLength := some first }, rest)
      | ',' :: rest =>
          match skipBlanks rest with
          | ']' :: _ => .error .malformed
          | rest => do
              let (second, rest) ← readLimit rest
              let rest ← readClose rest
              .ok (⟨some first, some second⟩, rest)
      | _ => .error .malformed

def ofJson (defaults : Limits) (text : String) : Except Fault Limits := do
  let (found, rest) ←
    match skipBlanks text.toList with
    | [] => .error .truncated
    | '\x7b' :: rest => readObject rest
    | '[' :: rest => readArray rest
    | rest => .error (refuse rest)
  if (skipBlanks rest).isEmpty then .ok (found.complete defaults) else .error .malformed

end Limits

end RecordCondition
