import RecordCondition.Text.CharClass

/-!
# Tokens of a condition

Words fall into keywords, truth values and names.  Keywords and truth values
are recognised without regard to case, so no spelling of them is a name.
Numbers keep the text they were written with.
-/

namespace RecordCondition

inductive Bracket
  | round
  | square
  deriving DecidableEq, Repr

inductive Keyword
  | and
  | or
  | not
  | in
  | is
  deriving DecidableEq, Repr

inductive Symbol
  | opening (bracket : Bracket)
  | closing (bracket : Bracket)
  | comma
  | dot
  | plus
  | minus
  | tilde
  | star
  | power
  | slash
  | doubleSlash
  | percent
  | equal
  | notEqual
  | less
  | lessEqual
  | greater
  | greaterEqual
  deriving DecidableEq, Repr

inductive Token
  | name (text : String)
  | keyword (word : Keyword)
  | truth (value : Bool)
  | number (text : String)
  | quoted (text : String)
  | symbol (symbol : Symbol)
  /-- Text that begins no token, such as a lone `=` or an unclosed quotation. -/
  | stray
  deriving DecidableEq, Repr

def Keyword.text : Keyword → String
  | .and => "and"
  | .or => "or"
  | .not => "not"
  | .in => "in"
  | .is => "is"

def Symbol.text : Symbol → String
  | .opening .round => "("
  | .closing .round => ")"
  | .opening .square => "["
  | .closing .square => "]"
  | .comma => ","
  | .dot => "."
  | .plus => "+"
  | .minus => "-"
  | .tilde => "~"
  | .star => "*"
  | .power => "**"
  | .slash => "/"
  | .doubleSlash => "//"
  | .percent => "%"
  | .equal => "=="
  | .notEqual => "!="
  | .less => "<"
  | .lessEqual => "<="
  | .greater => ">"
  | .greaterEqual => ">="

/-- The reading of a whole word, in which case is ignored for the seven
reserved words only. -/
def Token.ofWord (word : List Char) : Token :=
  match String.ofList (word.map Char.toLower) with
  | "and" => .keyword .and
  | "or" => .keyword .or
  | "not" => .keyword .not
  | "in" => .keyword .in
  | "is" => .keyword .is
  | "true" => .truth true
  | "false" => .truth false
  | _ => .name (String.ofList word)

/-- Whether an operand may end with this token.  A sign after such a token
joins two operands; elsewhere it belongs to the operand that follows. -/
def Token.endsOperand : Token → Bool
  | .name _ | .truth _ | .number _ | .quoted _ => true
  | .symbol (.closing _) => true
  | _ => false

end RecordCondition
