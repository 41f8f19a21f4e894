import RecordCondition.Expr.Parser

/-!
# The spellings of expressions

How an expression may be written out in tokens, told from the precedence of the
operators alone: `or`, `and`, `not`, chained comparisons, sums, products, signs
with powers to their right, and operands with what is applied to them.  Any
expression may stand in round brackets, any number of times, and then counts as
an operand.
-/

namespace RecordCondition

/-- The levels of precedence, from the tightest. -/
inductive Level
  | atom
  | postfixed
  | factor
  | term
  | arithmetic
  | comparison
  | negation
  | conjunction
  | disjunction
  deriving DecidableEq, Repr

/-- The next level; nothing is looser than a disjunction. -/
def Level.looser : Level → Level
  | .atom => .postfixed
  | .postfixed => .factor
  | .factor => .term
  | .term => .arithmetic
  | .arithmetic => .comparison
  | .comparison => .negation
  | .negation => .conjunction
  | .conjunction => .disjunction
  | .disjunction => .disjunction

def Junction.keyword : Junction → Keyword
  | .and => .and
  | .or => .or

def Junction.operandLevel : Junction → Level
  | .and => .negation
  | .or => .conjunction

def Relation.tokens : Relation → List Token
  | .equal => [.symbol .equal]
  | .notEqual => [.symbol .notEqual]
  | .less => [.symbol .less]
  | .lessEqual => [.symbol .lessEqual]
  | .greater => [.symbol .greater]
  | .greaterEqual => [.symbol .greaterEqual]
  | .in => [.keyword .in]
  | .notIn => [.keyword .not, .keyword .in]
  | .is => [.keyword .is]
  | .isNot => [.keyword .is, .keyword .not]

def PrefixOperator.token : PrefixOperator → Token
  | .not => .keyword .not
  | .minus => .symbol .minus
  | .plus => .symbol .plus
  | .invert => .symbol .tilde

def BinaryOperator.symbol : BinaryOperator → Symbol
  | .add => .plus
  | .subtract => .minus
  | .multiply => .star
  | .divide => .slash
  | .floorDivide => .doubleSlash
  | .modulo => .percent
  | .power => .power

def BinaryOperator.IsSum : BinaryOperator → Prop
  | .add | .subtract => True
  | _ => False

def BinaryOperator.IsProduct : BinaryOperator → Prop
  | .multiply | .divide | .floorDivide | .modulo => True
  | _ => False

def Literal.token : Literal → Token
  | .text value => .quoted value
  | .number digits => .number digits
  | .truth value => .truth value

def Bracket.enclose (bracket : Bracket) (tokens : List Token) : List Token :=
  .symbol (.opening bracket) :: (tokens ++ [.symbol (.closing bracket)])

def trailingComma : Bool → List Token
  | true => [.symbol .comma]
  | false => []

/-- What a run of tokens may be a spelling of. -/
inductive Phrase
  | expr (level : Level) (e : Expr)
  /-- Operands, each with a separator in front of it. -/
  | followers (separator : Token) (level : Level) (values : List Expr)
  /-- Operands of a comparison, each with its relation in front of it. -/
  | links (steps : List (Relation × Expr))
  /-- What stands between brackets, and whether a comma ends it. -/
  | elements (values : List Expr) (trailing : Bool)

inductive Spelled : Phrase → List Token → Prop
  | looser {level : Level} {e : Expr} {tokens : List Token} :
      Spelled (.expr level e) tokens → Spelled (.expr level.looser e) tokens
  | junction (op : Junction) {first next : Expr} {others : List Expr}
      {tokens following : List Token} :
      Spelled (.expr op.operandLevel first) tokens →
      Spelled (.followers (.keyword op.keyword) op.operandLevel (next :: others))
        following →
      Spelled (.expr op.operandLevel.looser (.junction op (first :: next :: others)))
        (tokens ++ following)
  | not {e : Expr} {tokens : List Token} :
      Spelled (.expr .negation e) tokens →
      Spelled (.expr .negation (.prefixed .not e)) (.keyword .not :: tokens)
  | compare {left : Expr} {step : Relation × Expr} {steps : List (Relation × Expr)}
      {tokens following : List Token} :
      Spelled (.expr .arithmetic left) tokens →
      Spelled (.links (step :: steps)) following →
      Spelled
        (.expr .comparison
          (.compare left ((step :: steps).map Prod.fst) ((step :: steps).map Prod.snd)))
        (tokens ++ following)
  | sum {op : BinaryOperator} {left right : Expr} {tokens following : List Token} :
      op.IsSum →
      Spelled (.expr .arithmetic left) tokens →
      Spelled (.expr .term right) following →
      Spelled (.expr .arithmetic (.binary op left right))
        (tokens ++ .symbol op.symbol :: following)
  | product {op : BinaryOperator} {left right : Expr} {tokens following : List Token} :
      op.IsProduct →
      Spelled (.expr .term left) tokens →
      Spelled (.expr .factor right) following →
      Spelled (.expr .term (.binary op left right))
        (tokens ++ .symbol op.symbol :: following)
  | sign {op : PrefixOperator} {e : Expr} {tokens : List Token} :
      op ≠ .not →
      Spelled (.expr .factor e) tokens →
      Spelled (.expr .factor (.prefixed op e)) (op.token :: tokens)
  | power {base exponent : Expr} {tokens following : List Token} :
      Spelled (.expr .postfixed base) tokens →
      Spelled (.expr .factor exponent) following →
      Spelled (.expr .factor (.binary .power base exponent))
        (tokens ++ .symbol .power :: following)
  | call {function : Expr} {arguments : List Expr} {trailing : Bool}
      {tokens following : List Token} :
      Spelled (.expr .postfixed function) tokens →
      Spelled (.elements arguments trailing) following →
      Spelled (.expr .postfixed (.call function arguments))
        (tokens ++ Bracket.round.enclose following)
  | attributed {value : Expr} {tokens : List Token} (field : String) :
      Spelled (.expr .postfixed value) tokens →
      Spelled (.expr .postfixed (.attribute value field))
        (tokens ++ [.symbol .dot, .name field])
  | subscript {value index : Expr} {tokens following : List Token} :
      Spelled (.expr .postfixed value) tokens →
      Spelled (.expr .disjunction index) following →
      Spelled (.expr .postfixed (.subscript value index))
        (tokens ++ Bracket.square.enclose following)
  | name (id : String) : Spelled (.expr .atom (.name id)) [.name id]
  | constant (value : Literal) : Spelled (.expr .atom (.constant value)) [value.token]
  | group {e : Expr} {tokens : List Token} :
      Spelled (.expr .disjunction e) tokens →
      Spelled (.expr .atom e) (Bracket.round.enclose tokens)
  | tuple {values : List Expr} {trailing : Bool} {tokens : List Token} :
      values.length ≠ 1 ∨ trailing = true →
      Spelled (.elements values trailing) tokens →
      Spelled (.expr .atom (.tuple values)) (Bracket.round.enclose tokens)
  | list {values : List Expr} {trailing : Bool} {tokens : List Token} :
      Spelled (.elements values trailing) tokens →
      Spelled (.expr .atom (.list values)) (Bracket.square.enclose tokens)
  | noFollower (separator : Token) (level : Level) :
      Spelled (.followers separator level []) []
  | follower {separator : Token} {level : Level} {value : Expr} {values : List Expr}
      {tokens following : List Token} :
      Spelled (.expr level value) tokens →
      Spelled (.followers separator level values) following →
      Spelled (.followers separator level (value :: values))
        (separator :: (tokens ++ following))
  | noLink : Spelled (.links []) []
  | link (relation : Relation) {value : Expr} {steps : List (Relation × Expr)}
      {tokens following : List Token} :
      Spelled (.expr .arithmetic value) tokens →
      Spelled (.links steps) following →
      Spelled (.links ((relation, value) :: steps))
        (relation.tokens ++ (tokens ++ following))
  | noElement (trailing : Bool) :
      Spelled (.elements [] trailing) (trailingComma trailing)
  | someElements {first : Expr} {others : List Expr} {tokens following : List Token}
      (trailing : Bool) :
      Spelled (.expr .disjunction first) tokens →
      Spelled (.followers (.symbol .comma) .disjunction others) following →
      Spelled (.elements (first :: others) trailing)
        (tokens ++ (following ++ trailingComma trailing))

end RecordCondition
