import RecordCondition.Calendar
import RecordCondition.Decimal
import RecordCondition.Text.CharClass

/-!
# Instants

A moment in universal time with nanoseconds, and the offset from universal time
at which it is shown.  Instants are compared by the moment alone.  In a leap
second the nanoseconds run on beyond a thousand million.

Reading is lenient about white space, the letter between date and time, and the
form of the offset.  Each part of the text is read in turn, and the first part
that fails decides the error.
-/

namespace RecordCondition

open Text

structure Instant where
  /-- Seconds from the start of 1970. -/
  seconds : Int
  nanoseconds : Nat
  /-- Seconds by which local time is ahead of universal time. -/
  offset : Int
  deriving DecidableEq, Repr

namespace Instant

def compare (left right : Instant) : Ordering :=
  (Ord.compare left.seconds right.seconds).then
    (Ord.compare left.nanoseconds right.nanoseconds)

/-- The same moment shown in universal time. -/
def toUtc (instant : Instant) : Instant :=
  { instant with offset := 0 }

def ofDate (date : Date) (hour minute second : Nat) : Instant :=
  ⟨date.toDays * 86400 + hour * 3600 + minute * 60 + second, 0, 0⟩

/-! ## Writing -/

def displayYear (year : Int) : List Char :=
  if 0 ≤ year && year ≤ 9999 then paddedDecimal 4 year.natAbs
  else (if year < 0 then '-' else '+') :: paddedDecimal 4 year.natAbs

/-- Thousandths, millionths or thousand-millionths, whichever are enough. -/
def displayFraction (nanoseconds : Nat) : List Char :=
  if nanoseconds = 0 then []
  else if nanoseconds % 1000000 = 0 then '.' :: paddedDecimal 3 (nanoseconds / 1000000)
  else if nanoseconds % 1000 = 0 then '.' :: paddedDecimal 6 (nanoseconds / 1000)
  else '.' :: paddedDecimal 9 nanoseconds

def displayOffset (offset : Int) : List Char :=
  let minutes := offset.natAbs / 60
  (if offset < 0 then '-' else '+') ::
    (paddedDecimal 2 (minutes / 60) ++ ':' :: paddedDecimal 2 (minutes % 60))

def displayLocal (instant : Instant) : List Char :=
  let shown := instant.seconds + instant.offset
  let date := Date.ofDays (shown / 86400)
  let time := (shown % 86400).toNat
  let leap := instant.nanoseconds / 1000000000
  displayYear date.year ++ '-' :: paddedDecimal 2 date.month ++ '-' :: paddedDecimal 2 date.day ++
    ' ' :: paddedDecimal 2 (time / 3600) ++ ':' :: paddedDecimal 2 (time / 60 % 60) ++
    ':' :: paddedDecimal 2 (time % 60 + leap) ++
    displayFraction (instant.nanoseconds % 1000000000)

def displayUtc (instant : Instant) : String :=
  String.ofList (instant.toUtc.displayLocal ++ [' ', 'U', 'T', 'C'])

def displayFixed (instant : Instant) : String :=
  String.ofList (instant.displayLocal ++ ' ' :: displayOffset instant.offset)

/-! ## Reading -/

inductive ReadError
  | invalid
  | tooShort
  | outOfRange
  | tooLong
  | impossible
  deriving DecidableEq, Repr

def ReadError.message : ReadError → String
  | .invalid => "input contains invalid characters"
  | .tooShort => "premature end of input"
  | .outOfRange => "input is out of range"
  | .tooLong => "trailing input"
  | .impossible => "no possible date and time matching input"

def skipSpace (text : List Char) : List Char :=
  text.dropWhile isWhitespace

/-- At least one digit and at most `width`, with what follows them. -/
def readNumber (width : Nat) (text : List Char) : Except ReadError (Nat × List Char) :=
  match text with
  | [] => .error .tooShort
  | c :: _ =>
      if c.isDigit then
        let digits := (text.take width).takeWhile Char.isDigit
        .ok (decimalValue digits, text.drop digits.length)
      else
        .error .invalid

/-- A number of at most two digits, after white space, between two bounds. -/
def readField (low high : Nat) (text : List Char) : Except ReadError (Nat × List Char) := do
  let (value, rest) ← readNumber 2 (skipSpace text)
  if low ≤ value && value ≤ high then .ok (value, rest) else .error .outOfRange

/-- A mark after optional white space. -/
def readMark (mark : Char) (text : List Char) : Except ReadError (List Char) :=
  match skipSpace text with
  | [] => .error .tooShort
  | c :: rest => if c = mark then .ok rest else .error .invalid

/-- The years for which there are dates. -/
def isKnownYear (year : Int) : Bool :=
  -262143 ≤ year && year ≤ 262142

/-- A year of at most four digits, or of any number of digits after a sign. -/
def readYear (text : List Char) : Except ReadError (Int × List Char) :=
  match skipSpace text with
  | '-' :: rest => do
      let (value, rest) ← readNumber rest.length rest
      signedYear (-(value : Int)) rest
  | '+' :: rest => do
      let (value, rest) ← readNumber rest.length rest
      signedYear value rest
  | text => do
      let (value, rest) ← readNumber 4 text
      .ok (value, rest)
where
  /-- A year beyond 32 bits is refused where it stands. -/
  signedYear (year : Int) (rest : List Char) : Except ReadError (Int × List Char) :=
    if -2147483648 ≤ year && year ≤ 2147483647 then .ok (year, rest) else .error .outOfRange

/-- The nanoseconds of a fraction of a second, of which further digits are
dropped. -/
def readFraction : List Char → Except ReadError (Nat × List Char)
  | '.' :: text => do
      let (value, rest) ← readNumber 9 text
      .ok (value * Nat.pow 10 (9 - (text.length - rest.length)), rest.dropWhile Char.isDigit)
  | text => .ok (0, text)

/-- Two digits, which are too few only when the text ends. -/
def readPair : List Char → Except ReadError (Nat × List Char)
  | first :: second :: rest =>
      if first.isDigit && second.isDigit then
        .ok (10 * digitValue first + digitValue second, rest)
      else
        .error .invalid
  | text => if utf8Size text < 2 then .error .tooShort else .error .invalid

/-- The seconds of an offset after its sign. -/
def readOffsetDigits (text : List Char) : Except ReadError (Nat × List Char) := do
  let (hours, rest) ← readPair text
  let (minutes, rest) ← readPair (rest.dropWhile fun c => c = ':' || isWhitespace c)
  if minutes < 60 then .ok (hours * 3600 + minutes * 60, rest) else .error .outOfRange

def readOffset : List Char → Except ReadError (Int × List Char)
  | [] => .error .tooShort
  | c :: rest =>
      if ((c :: rest).take 3).map Char.toLower = ['u', 't', 'c'] then
        .ok (0, (c :: rest).drop 3)
      else if c = 'Z' || c = 'z' then
        .ok (0, rest)
      else if c = '+' then do
        let (seconds, rest) ← readOffsetDigits rest
        .ok (seconds, rest)
      else if c = '-' || c = '−' then do
        let (seconds, rest) ← readOffsetDigits rest
        .ok (-(seconds : Int), rest)
      else
        .error .invalid

/-- The moment of a local date and time.  A sixtieth second is the one before it
running on. -/
def ofLocal (date : Date) (hour minute second nanoseconds : Nat) (offset : Int) :
    Except ReadError Instant :=
  if !date.isValid || !isKnownYear date.year then .error .outOfRange
  else if offset.natAbs ≥ 86400 then .error .outOfRange
  else
    let leap := if second = 60 then 1 else 0
    let seconds :=
      date.toDays * 86400 + hour * 3600 + minute * 60 + (second - leap : Nat) - offset
    if isKnownYear (Date.ofDays (seconds / 86400)).year then
      .ok ⟨seconds, nanoseconds + leap * 1000000000, offset⟩
    else
      .error .impossible

def readChars (text : List Char) : Except ReadError Instant := do
  let (year, rest) ← readYear text
  let rest ← readMark '-' rest
  let (month, rest) ← readField 1 12 rest
  let rest ← readMark '-' rest
  let (day, rest) ← readField 1 31 rest
  let rest ←
    match rest with
    | [] => .error .tooShort
    | c :: rest =>
        if c = 'T' || c = 't' || c = ' ' then .ok rest else .error .invalid
  let (hour, rest) ← readField 0 23 rest
  let rest ← readMark ':' rest
  let (minute, rest) ← readField 0 59 rest
  let rest ← readMark ':' rest
  let (second, rest) ← readField 0 60 rest
  let (nanoseconds, rest) ← readFraction rest
  let (offset, rest) ← readOffset (skipSpace rest)
  if (skipSpace rest).isEmpty then
    ofLocal ⟨year, month, day⟩ hour minute second nanoseconds offset
  else
    .error .tooLong

def read (text : String) : Except ReadError Instant :=
  readChars text.toList

end Instant

end RecordCondition
