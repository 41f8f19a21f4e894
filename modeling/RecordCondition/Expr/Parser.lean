import RecordCondition.Expr
import RecordCondition.Token.Lexer

/-!
# Reading expressions from tokens

A reader takes tokens from the front of a list and returns what is left, or
fails and takes nothing.  The readers below form a ladder of precedence; from
the loosest: `or`, `and`, `not`, chained comparisons, sums, products, signs with
right-associative powers, and operands with their calls, attributes and
subscripts.

Every reader of the ladder is given the reader for expressions in brackets, so
the only recursion is one level of the ladder per level of brackets.
-/

namespace RecordCondition

abbrev Reader (α : Type) : Type :=
  List Token → Option (α × List Token)

/-! ## Combining readers -/

/-- Items as long as they can be read and each takes a token. -/
def Reader.many (item : Reader α) (tokens : List Token) : List α × List Token :=
  match item tokens with
  | none => ([], tokens)
  | some (first, rest) =>
      if rest.length < tokens.length then
        (first :: (many item rest).1, (many item rest).2)
      else
        ([], tokens)
  termination_by tokens.length

/-- An operator and the operand after it. -/
def Reader.step (operator : Reader ο) (operand : Reader Expr) : Reader (ο × Expr) :=
  fun tokens => do
    let (op, rest) ← operator tokens
    let (right, rest) ← operand rest
    some ((op, right), rest)

def symbol (expected : Symbol) : Reader Unit
  | .symbol actual :: rest => if actual = expected then some ((), rest) else none
  | _ => none

def keyword (expected : Keyword) : Reader Unit
  | .keyword actual :: rest => if actual = expected then some ((), rest) else none
  | _ => none

/-! ## Operators -/

def relation : Reader Relation
  | .symbol .equal :: rest => some (.equal, rest)
  | .symbol .notEqual :: rest => some (.notEqual, rest)
  | .symbol .lessEqual :: rest => some (.lessEqual, rest)
  | .symbol .greaterEqual :: rest => some (.greaterEqual, rest)
  | .symbol .less :: rest => some (.less, rest)
  | .symbol .greater :: rest => some (.greater, rest)
  | .keyword .not :: .keyword .in :: rest => some (.notIn, rest)
  | .keyword .in :: rest => some (.in, rest)
  | .keyword .is :: .keyword .not :: rest => some (.isNot, rest)
  | .keyword .is :: rest => some (.is, rest)
  | _ => none

def sumOperator : Reader BinaryOperator
  | .symbol .plus :: rest => some (.add, rest)
  | .symbol .minus :: rest => some (.subtract, rest)
  | _ => none

def productOperator : Reader BinaryOperator
  | .symbol .doubleSlash :: rest => some (.floorDivide, rest)
  | .symbol .slash :: rest => some (.divide, rest)
  | .symbol .star :: rest => some (.multiply, rest)
  | .symbol .percent :: rest => some (.modulo, rest)
  | _ => none

/-- The operator that a prefix sign stands for. -/
def Token.prefixSign : Token → Option PrefixOperator
  | .symbol .minus => some .minus
  | .symbol .plus => some .plus
  | .symbol .tilde => some .invert
  | _ => none

/-- The signs in front of an operand; there may be none. -/
def signs : List Token → List PrefixOperator × List Token
  | [] => ([], [])
  | token :: rest =>
      match token.prefixSign with
      | some op => (op :: (signs rest).1, (signs rest).2)
      | none => ([], token :: rest)

/-- How many times `not` stands in front of an operand. -/
def negations : List Token → Nat × List Token
  | .keyword .not :: rest => ((negations rest).1 + 1, (negations rest).2)
  | tokens => (0, tokens)

/-! ## Operands -/

section Ladder

variable (inner : Reader Expr)

/-- Expressions separated by commas, and whether a comma ends them. -/
def elements (tokens : List Token) : (List Expr × Bool) × List Token :=
  let (values, rest) :=
    match inner tokens with
    | none => ([], tokens)
    | some (first, rest) =>
        let (others, rest) := Reader.many (Reader.step (symbol .comma) inner) rest
        (first :: others.map Prod.snd, rest)
  match symbol .comma rest with
  | some ((), rest) => ((values, true), rest)
  | none => ((values, false), rest)

/-- Elements between a pair of brackets. -/
def enclosed (bracket : Bracket) : Reader (List Expr × Bool) :=
  fun tokens => do
    let ((), rest) ← symbol (.opening bracket) tokens
    let (contents, rest) := elements inner rest
    let ((), rest) ← symbol (.closing bracket) rest
    some (contents, rest)

/-- What a pair of round brackets stands for: one expression without a comma is
a group, anything else a tuple. -/
def Expr.ofRound : List Expr × Bool → Expr
  | ([value], false) => value
  | (values, _) => .tuple values

def atom : Reader Expr
  | .number digits :: rest => some (.constant (.number digits), rest)
  | .quoted text :: rest => some (.constant (.text text), rest)
  | .truth value :: rest => some (.constant (.truth value), rest)
  | .name id :: rest => some (.name id, rest)
  | tokens =>
      match enclosed inner .round tokens with
      | some (contents, rest) => some (.ofRound contents, rest)
      | none => (enclosed inner .square tokens).map fun (contents, rest) =>
          (.list contents.1, rest)

/-- What may follow an operand and apply to it. -/
inductive Trailer
  | call (arguments : List Expr)
  | attribute (field : String)
  | subscript (index : Expr)

def Trailer.apply (value : Expr) : Trailer → Expr
  | .call arguments => .call value arguments
  | .attribute field => .attribute value field
  | .subscript index => .subscript value index

def trailer : Reader Trailer
  | .symbol .dot :: .name field :: rest => some (.attribute field, rest)
  | .symbol (.opening .square) :: rest => do
      let (index, rest) ← inner rest
      let ((), rest) ← symbol (.closing .square) rest
      some (.subscript index, rest)
  | tokens => (enclosed inner .round tokens).map fun (contents, rest) =>
      (.call contents.1, rest)

def postfixed : Reader Expr := fun tokens => do
  let (value, rest) ← atom inner tokens
  let (trailers, rest) := Reader.many (trailer inner) rest
  some (trailers.foldl Trailer.apply value, rest)

/-! ## The ladder -/

/-- A base or an exponent together with the signs in front of it. -/
def signed : Reader (List PrefixOperator × Expr) := fun tokens => do
  let (ops, rest) := signs tokens
  let (value, rest) ← postfixed inner rest
  some ((ops, value), rest)

/-- Signs bind more loosely than the power to their right. -/
def Expr.powers : List PrefixOperator × Expr → List (List PrefixOperator × Expr) → Expr
  | (ops, value), [] => ops.foldr .prefixed value
  | (ops, value), exponent :: rest =>
      ops.foldr .prefixed (.binary .power value (Expr.powers exponent rest))

def factor : Reader Expr := fun tokens => do
  let (first, rest) ← signed inner tokens
  let (exponents, rest) := Reader.many
    (fun tokens => do
      let ((), rest) ← symbol .power tokens
      signed inner rest)
    rest
  some (.powers first exponents, rest)

/-- Operands joined by operators that group from the left. -/
def leftChain (operator : Reader BinaryOperator) (operand : Reader Expr) : Reader Expr :=
  fun tokens => do
    let (first, rest) ← operand tokens
    let (steps, rest) := Reader.many (Reader.step operator operand) rest
    some (steps.foldl (fun left step => .binary step.1 left step.2) first, rest)

def term : Reader Expr :=
  leftChain productOperator (factor inner)

def arithmetic : Reader Expr :=
  leftChain sumOperator (term inner)

def comparison : Reader Expr := fun tokens => do
  let (left, rest) ← arithmetic inner tokens
  let (steps, rest) := Reader.many (Reader.step relation (arithmetic inner)) rest
  some (.chain left steps, rest)

def negation : Reader Expr := fun tokens => do
  let (count, rest) := negations tokens
  let (value, rest) ← comparison inner rest
  some ((List.replicate count PrefixOperator.not).foldr .prefixed value, rest)

/-- Operands separated by the keyword of a junction. -/
def joined (op : Junction) (separator : Keyword) (operand : Reader Expr) : Reader Expr :=
  fun tokens => do
    let (first, rest) ← operand tokens
    let (others, rest) := Reader.many (Reader.step (keyword separator) operand) rest
    some (.join op first (others.map Prod.snd), rest)

def conjunction : Reader Expr :=
  joined .and .and (negation inner)

def disjunction : Reader Expr :=
  joined .or .or (conjunction inner)

end Ladder

/-- The expression at the front of some tokens, when its brackets are nested
less than `depth` deep. -/
def expression : Nat → Reader Expr
  | 0 => fun _ => none
  | depth + 1 => fun tokens => disjunction (expression depth) tokens

@[simp] theorem expression_zero (tokens : List Token) : expression 0 tokens = none := rfl

@[simp] theorem expression_succ (depth : Nat) (tokens : List Token) :
    expression (depth + 1) tokens = disjunction (expression depth) tokens := rfl

/-- The expression at the front of some tokens.  Every level of brackets takes
a token, so there are enough levels for all of them. -/
def readExpression (tokens : List Token) : Option (Expr × List Token) :=
  expression (tokens.length + 1) tokens

/-! ## Whole texts -/

/-- No expression ends at the end of the text.  The position is the size in
bytes of the text before the first token that could not be used. -/
structure ParseError where
  position : Nat
  deriving DecidableEq, Repr

def ParseError.message (e : ParseError) : String :=
  s!"unexpected input at position {e.position}"

/-- The tokens left when reading stops: those after the expression, or, where
none could be read, those after the signs at the front. -/
def unread (tokens : List Token) : List Token :=
  match readExpression tokens with
  | some (_, rest) => rest
  | none => (signs tokens).2

/-- The size in bytes of the text before the last `count` of its tokens. -/
def positionBefore (text : String) (count : Nat) : Nat :=
  let lexemes := lex text
  match lexemes.drop (lexemes.length - count) with
  | [] => text.utf8ByteSize
  | lexeme :: _ => text.utf8ByteSize - Text.utf8Size lexeme.text

/-- The expression that a text consists of. -/
def Expr.parse (text : String) : Except ParseError Expr :=
  let tokens := (lex text).map Lexeme.token
  match readExpression tokens with
  | some (value, []) => .ok value
  | _ => .error ⟨positionBefore text (unread tokens).length⟩

end RecordCondition
