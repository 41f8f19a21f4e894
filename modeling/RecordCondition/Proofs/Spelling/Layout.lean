import RecordCondition.Proofs.Spelling.Grammar

/-!
# How tokens are laid out in a text

The ways in which one token may be written, and the ways in which written tokens
may follow each other.  Blanks may stand anywhere between tokens.  They are
needed only where two tokens would otherwise run together: between two words or
numbers, between a prefix sign and a number without a sign of its own, and
between a whole number and a dot.
-/

namespace RecordCondition

open Text

/-! ## Names and numbers -/

/-- The words that are no names, however they are written. -/
def reservedWords : List String :=
  ["and", "or", "not", "in", "is", "true", "false"]

structure IsName (cs : List Char) : Prop where
  start : ∃ c rest, cs = c :: rest ∧ isNameStart c = true
  all : ∀ c ∈ cs, isNameContinue c = true
  unreserved : String.ofList (cs.map Char.toLower) ∉ reservedWords

def IsSign (cs : List Char) : Prop :=
  cs = [] ∨ cs = ['+'] ∨ cs = ['-']

def AllDigits (cs : List Char) : Prop :=
  ∀ c ∈ cs, c.isDigit = true

inductive IsFraction : List Char → Prop
  | none : IsFraction []
  | some {digits : List Char} : AllDigits digits → IsFraction ('.' :: digits)

inductive IsExponent : List Char → Prop
  | none : IsExponent []
  | some {mark : Char} {sign digits : List Char} :
      mark = 'e' ∨ mark = 'E' → IsSign sign → digits ≠ [] → AllDigits digits →
      IsExponent (mark :: (sign ++ digits))

/-- An optional sign, digits, an optional fraction and an optional exponent. -/
def IsNumber (cs : List Char) : Prop :=
  ∃ sign whole fraction exponent,
    cs = sign ++ (whole ++ fraction ++ exponent) ∧ IsSign sign ∧ whole ≠ [] ∧
      AllDigits whole ∧ IsFraction fraction ∧ IsExponent exponent

def IsWhole (cs : List Char) : Prop :=
  ∀ c ∈ cs, c ≠ '.' ∧ c ≠ 'e' ∧ c ≠ 'E'

/-! ## Single tokens -/

/-- The text of a quotation as it may stand between two marks: a mark or a
backslash needs a backslash in front of it, and any character may have one that
still means that character. -/
inductive Quoted (quote : Char) : List Char → List Char → Prop
  | nil : Quoted quote [] []
  | plain {c : Char} {text body : List Char} :
      c ≠ quote → c ≠ '\\' → Quoted quote text body → Quoted quote (c :: text) (c :: body)
  | escaped (c : Char) {text body : List Char} :
      Quoted quote text body → Quoted quote (unescape c :: text) ('\\' :: c :: body)

/-- The ways to write a token. -/
def Token.Written : Token → List Char → Prop
  | .name id, cs => cs = id.toList ∧ IsName cs
  | .keyword word, cs => cs.map Char.toLower = word.text.toList
  | .truth true, cs => cs.map Char.toLower = "true".toList
  | .truth false, cs => cs.map Char.toLower = "false".toList
  | .number digits, cs => cs = digits.toList ∧ IsNumber cs
  | .quoted text, cs =>
      ∃ quote body, (quote = '\'' ∨ quote = '"') ∧ Quoted quote text.toList body ∧
        cs = quote :: (body ++ [quote])
  | .symbol mark, cs => cs = mark.text.toList
  | .stray, _ => False

/-! ## Sequences of tokens -/

/-- Tokens that would swallow a letter or a digit behind them. -/
def Token.EndsWord : Token → Prop
  | .name _ | .keyword _ | .truth _ | .number _ => True
  | _ => False

/-- Tokens that begin with a letter or a digit. -/
def Token.BeginsWord : Token → Prop
  | .name _ | .keyword _ | .truth _ => True
  | .number digits => startsWithDigit digits.toList = true
  | _ => False

def Token.IsUnsigned : Token → Prop
  | .number digits => startsWithDigit digits.toList = true
  | _ => False

/-- Whether a blank must stand between a token and the next one.  A sign is a
prefix where no operand stands in front of it. -/
def Token.NeedsBlank (afterOperand : Bool) (token next : Token) : Prop :=
  (token.EndsWord ∧ next.BeginsWord) ∨
    ((token = .symbol .plus ∨ token = .symbol .minus) ∧ afterOperand = false ∧
      next.IsUnsigned) ∨
    ((∃ digits, token = .number digits ∧ IsWhole digits.toList) ∧ next = .symbol .dot)

/-- A text in which the tokens stand one after the other, given whether an
operand stands in front of it. -/
inductive Layout : Bool → List Token → List Char → Prop
  | nil (afterOperand : Bool) : Layout afterOperand [] []
  | blank {afterOperand : Bool} {tokens : List Token} {c : Char} {cs : List Char} :
      isBlank c = true → Layout afterOperand tokens cs →
      Layout afterOperand tokens (c :: cs)
  | token {afterOperand : Bool} {token : Token} {tokens : List Token}
      {written cs : List Char} :
      token.Written written → Layout token.endsOperand tokens cs →
      (∀ next others, tokens = next :: others → token.NeedsBlank afterOperand next →
        ∃ c tail, cs = c :: tail ∧ isBlank c = true) →
      Layout afterOperand (token :: tokens) (written ++ cs)

def Expr.WrittenAs (e : Expr) (text : String) : Prop :=
  ∃ tokens, Spelled (.expr .disjunction e) tokens ∧ Layout false tokens text.toList

end RecordCondition
