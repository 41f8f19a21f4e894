import RecordCondition.Text.Alphabetic
import RecordCondition.Text.Numeric

/-!
# Character classes

Membership in the Unicode classes used for names and patterns, and the four
blanks that separate the tokens of a condition.  Class tables are increasing
lists of closed intervals, so a search may stop at the first interval that
starts beyond the character.
-/

namespace RecordCondition.Text

def inRanges : List (Nat × Nat) → Nat → Bool
  | [], _ => false
  | (low, high) :: ranges, code =>
      if code < low then false
      else if code ≤ high then true
      else inRanges ranges code

def isAlphabetic (c : Char) : Bool :=
  inRanges alphabeticRanges c.toNat

/-- A decimal digit of any script. -/
def isDecimalDigit (c : Char) : Bool :=
  inRanges decimalDigitRanges c.toNat

def isAlphanumeric (c : Char) : Bool :=
  isAlphabetic c || inRanges numericRanges c.toNat

/-- The characters with the Unicode property `White_Space`. -/
def isWhitespace (c : Char) : Bool :=
  inRanges
    [(0x9, 0xd), (0x20, 0x20), (0x85, 0x85), (0xa0, 0xa0), (0x1680, 0x1680),
      (0x2000, 0x200a), (0x2028, 0x2029), (0x202f, 0x202f), (0x205f, 0x205f),
      (0x3000, 0x3000)]
    c.toNat

/-- The characters that may stand between two tokens. -/
def isBlank (c : Char) : Bool :=
  c = ' ' || c = '\t' || c = '\r' || c = '\n'

def isNameStart (c : Char) : Bool :=
  isAlphabetic c || c = '_'

def isNameContinue (c : Char) : Bool :=
  isAlphanumeric c || c = '_'

theorem isNameContinue_of_isNameStart {c : Char} (hstart : isNameStart c = true) :
    isNameContinue c = true := by
  simp only [isNameStart, isNameContinue, isAlphanumeric, Bool.or_eq_true] at hstart ⊢
  rcases hstart with halphabetic | hunderscore
  · exact .inl (.inl halphabetic)
  · exact .inr hunderscore

theorem isBlank_iff {c : Char} :
    isBlank c = true ↔ c = ' ' ∨ c = '\t' ∨ c = '\r' ∨ c = '\n' := by
  simp [isBlank, or_assoc]

/-- The number of bytes of the UTF-8 encoding. -/
def utf8Size : List Char → Nat
  | [] => 0
  | c :: cs => c.utf8Size + utf8Size cs

@[simp] theorem utf8Size_nil : utf8Size [] = 0 := rfl

@[simp] theorem utf8Size_cons (c : Char) (cs : List Char) :
    utf8Size (c :: cs) = c.utf8Size + utf8Size cs := rfl

@[simp] theorem utf8Size_append (cs ds : List Char) :
    utf8Size (cs ++ ds) = utf8Size cs + utf8Size ds := by
  induction cs with
  | nil => simp
  | cons c cs ih => simp [ih, Nat.add_assoc]

end RecordCondition.Text
