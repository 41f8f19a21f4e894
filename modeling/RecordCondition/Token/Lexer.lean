import RecordCondition.Token

/-!
# Splitting a condition into tokens

A token is the longest one that starts at a character, and blanks separate
tokens.  The one decision that needs context is a sign directly before a digit:
after an operand it is an operator, elsewhere it belongs to the number.

Each token is kept together with the text from its first character onward, so
the place of a token is the size of the text in front of it.
-/

namespace RecordCondition

open Text

/-! ## Numbers -/

/-- The mark and digits of a fraction, which may have no digits. -/
def splitFraction : List Char → List Char × List Char
  | '.' :: rest => ('.' :: rest.takeWhile Char.isDigit, rest.dropWhile Char.isDigit)
  | cs => ([], cs)

def splitSign : List Char → List Char × List Char
  | '+' :: rest => (['+'], rest)
  | '-' :: rest => (['-'], rest)
  | cs => ([], cs)

def startsWithDigit : List Char → Bool
  | c :: _ => c.isDigit
  | [] => false

/-- The letter, sign and digits of an exponent; without a digit there is no
exponent. -/
def splitExponent : List Char → List Char × List Char
  | [] => ([], [])
  | c :: rest =>
      if (c = 'e' || c = 'E') && startsWithDigit (splitSign rest).2 then
        (c :: ((splitSign rest).1 ++ (splitSign rest).2.takeWhile Char.isDigit),
          (splitSign rest).2.dropWhile Char.isDigit)
      else
        ([], c :: rest)

/-- Digits, an optional fraction and an optional exponent. -/
def splitNumber (cs : List Char) : List Char × List Char :=
  let fraction := splitFraction (cs.dropWhile Char.isDigit)
  let exponent := splitExponent fraction.2
  (cs.takeWhile Char.isDigit ++ fraction.1 ++ exponent.1, exponent.2)

@[simp] theorem splitFraction_append (cs : List Char) :
    (splitFraction cs).1 ++ (splitFraction cs).2 = cs := by
  unfold splitFraction
  split <;> simp

@[simp] theorem splitSign_append (cs : List Char) :
    (splitSign cs).1 ++ (splitSign cs).2 = cs := by
  unfold splitSign
  split <;> simp

@[simp] theorem splitExponent_append (cs : List Char) :
    (splitExponent cs).1 ++ (splitExponent cs).2 = cs := by
  unfold splitExponent
  split
  · rfl
  · split <;> simp

@[simp] theorem splitNumber_append (cs : List Char) :
    (splitNumber cs).1 ++ (splitNumber cs).2 = cs := by
  simp [splitNumber, List.append_assoc]

/-! ## Quotations -/

/-- The character meant by a backslash and `c`. -/
def unescape : Char → Char
  | 'n' => '\n'
  | 't' => '\t'
  | c => c

/-- The text of a quotation up to its closing mark, and what follows the mark. -/
def splitQuotation (quote : Char) : List Char → Option (List Char × List Char)
  | [] => none
  | '\\' :: c :: rest =>
      (splitQuotation quote rest).map fun (text, after) => (unescape c :: text, after)
  | c :: rest =>
      if c = quote then some ([], rest)
      else (splitQuotation quote rest).map fun (text, after) => (c :: text, after)

theorem splitQuotation_length {quote : Char} {cs text after : List Char}
    (hsplit : splitQuotation quote cs = some (text, after)) :
    after.length < cs.length := by
  fun_induction splitQuotation quote cs generalizing text after with
  | case1 => simp at hsplit
  | case2 c rest ih =>
      obtain ⟨⟨inner, tail⟩, hinner, heq⟩ := Option.map_eq_some_iff.mp hsplit
      have hlt := ih hinner
      simp only [Prod.mk.injEq] at heq
      obtain ⟨-, rfl⟩ := heq
      simp only [List.length_cons]
      omega
  | case3 rest _ =>
      simp only [Option.some.injEq, Prod.mk.injEq] at hsplit
      simp [← hsplit.2]
  | case4 c rest _ hne ih =>
      obtain ⟨⟨inner, tail⟩, hinner, heq⟩ := Option.map_eq_some_iff.mp hsplit
      have hlt := ih hinner
      simp only [Prod.mk.injEq] at heq
      obtain ⟨-, rfl⟩ := heq
      simp only [List.length_cons]
      omega

/-! ## Symbols -/

/-- The longest symbol that starts with `c`. -/
def Symbol.read (c : Char) (rest : List Char) : Option (Symbol × List Char) :=
  match c, rest with
  | '(', rest => some (.opening .round, rest)
  | ')', rest => some (.closing .round, rest)
  | '[', rest => some (.opening .square, rest)
  | ']', rest => some (.closing .square, rest)
  | ',', rest => some (.comma, rest)
  | '.', rest => some (.dot, rest)
  | '+', rest => some (.plus, rest)
  | '-', rest => some (.minus, rest)
  | '~', rest => some (.tilde, rest)
  | '*', '*' :: rest => some (.power, rest)
  | '*', rest => some (.star, rest)
  | '/', '/' :: rest => some (.doubleSlash, rest)
  | '/', rest => some (.slash, rest)
  | '%', rest => some (.percent, rest)
  | '=', '=' :: rest => some (.equal, rest)
  | '!', '=' :: rest => some (.notEqual, rest)
  | '<', '=' :: rest => some (.lessEqual, rest)
  | '<', rest => some (.less, rest)
  | '>', '=' :: rest => some (.greaterEqual, rest)
  | '>', rest => some (.greater, rest)
  | _, _ => none

/-- A symbol is exactly the text it was read from. -/
theorem Symbol.text_append_of_read {c : Char} {rest after : List Char} {symbol : Symbol}
    (hread : Symbol.read c rest = some (symbol, after)) :
    symbol.text.toList ++ after = c :: rest := by
  unfold Symbol.read at hread
  split at hread <;>
    simp only [Option.some.injEq, Prod.mk.injEq, reduceCtorEq] at hread <;>
    obtain ⟨rfl, rfl⟩ := hread <;> rfl

/-! ## Tokens -/

/-- The token that starts with the character `c`, and the text after it.  No
token is read beyond text that begins none. -/
def Token.read (afterOperand : Bool) (c : Char) (rest : List Char) : Token × List Char :=
  if isNameStart c then
    (.ofWord (c :: rest.takeWhile isNameContinue), rest.dropWhile isNameContinue)
  else if c.isDigit then
    (.number (String.ofList (splitNumber (c :: rest)).1), (splitNumber (c :: rest)).2)
  else if (c = '+' || c = '-') && !afterOperand && startsWithDigit rest then
    (.number (String.ofList (c :: (splitNumber rest).1)), (splitNumber rest).2)
  else if c = '\'' || c = '"' then
    match splitQuotation c rest with
    | some (text, after) => (.quoted (String.ofList text), after)
    | none => (.stray, [])
  else
    match Symbol.read c rest with
    | some (mark, after) => (.symbol mark, after)
    | none => (.stray, [])

private theorem length_dropWhile_le (p : Char → Bool) (cs : List Char) :
    (cs.dropWhile p).length ≤ cs.length :=
  (List.dropWhile_sublist p).length_le

private theorem splitNumber_length_le (cs : List Char) :
    (splitNumber cs).2.length ≤ cs.length := by
  have happend := congrArg List.length (splitNumber_append cs)
  simp only [List.length_append] at happend
  omega

private theorem splitNumber_length_lt {c : Char} (rest : List Char)
    (hdigit : c.isDigit = true) : (splitNumber (c :: rest)).2.length ≤ rest.length := by
  have happend := congrArg List.length (splitNumber_append (c :: rest))
  have hpositive : 0 < (splitNumber (c :: rest)).1.length := by
    simp [splitNumber, hdigit]
  simp only [List.length_append, List.length_cons] at happend
  omega

theorem Token.read_length (afterOperand : Bool) (c : Char) (rest : List Char) :
    (Token.read afterOperand c rest).2.length ≤ rest.length := by
  unfold Token.read
  split
  · exact length_dropWhile_le _ _
  split
  · next hdigit => exact splitNumber_length_lt rest hdigit
  split
  · exact splitNumber_length_le rest
  split
  · split
    · next hquotation => exact Nat.le_of_lt (splitQuotation_length hquotation)
    · exact Nat.zero_le _
  · split
    · next mark after hread =>
        have happend := congrArg List.length (Symbol.text_append_of_read hread)
        have hpositive : 0 < mark.text.toList.length := by
          cases mark with
          | opening bracket => cases bracket <;> decide
          | closing bracket => cases bracket <;> decide
          | _ => decide
        simp only [List.length_append, List.length_cons] at happend
        show after.length ≤ rest.length
        omega
    · exact Nat.zero_le _

/-- A token and the text from its first character onward. -/
structure Lexeme where
  token : Token
  text : List Char
  deriving DecidableEq, Repr

/-- The tokens of a text, given whether an operand stands before it. -/
def lexAfter (afterOperand : Bool) : List Char → List Lexeme
  | [] => []
  | c :: rest =>
      if isBlank c then
        lexAfter afterOperand rest
      else
        ⟨(Token.read afterOperand c rest).1, c :: rest⟩ ::
          lexAfter (Token.read afterOperand c rest).1.endsOperand
            (Token.read afterOperand c rest).2
  termination_by cs => cs.length
  decreasing_by
    · simp
    · exact Nat.lt_succ_of_le (Token.read_length afterOperand c rest)

def lex (text : String) : List Lexeme :=
  lexAfter false text.toList

@[simp] theorem lexAfter_nil (afterOperand : Bool) : lexAfter afterOperand [] = [] := by
  simp [lexAfter]

theorem lexAfter_blank {c : Char} (hblank : isBlank c = true) (afterOperand : Bool)
    (rest : List Char) :
    lexAfter afterOperand (c :: rest) = lexAfter afterOperand rest := by
  simp [lexAfter, hblank]

theorem lexAfter_token {c : Char} (hblank : isBlank c = false) (afterOperand : Bool)
    (rest : List Char) :
    lexAfter afterOperand (c :: rest) =
      ⟨(Token.read afterOperand c rest).1, c :: rest⟩ ::
        lexAfter (Token.read afterOperand c rest).1.endsOperand
          (Token.read afterOperand c rest).2 := by
  simp [lexAfter, hblank]

end RecordCondition
