/-!
# Expressions

The expression trees that condition text is read into.  They cover general
arithmetic, calls and collections, so that what is no condition can be refused
by the name of its kind.  A comparison keeps its relations and its operands in
two lists, and nothing in the type makes their lengths agree.
-/

namespace RecordCondition

/-- A constant.  A number keeps the text it was written with. -/
inductive Literal
  | text (value : String)
  | number (digits : String)
  | truth (value : Bool)
  deriving DecidableEq, Repr

inductive Junction
  | and
  | or
  deriving DecidableEq, Repr

inductive Relation
  | equal
  | notEqual
  | less
  | lessEqual
  | greater
  | greaterEqual
  | in
  | notIn
  | is
  | isNot
  deriving DecidableEq, Repr

inductive PrefixOperator
  | not
  | minus
  | plus
  | invert
  deriving DecidableEq, Repr

inductive BinaryOperator
  | add
  | subtract
  | multiply
  | divide
  | floorDivide
  | modulo
  | power
  deriving DecidableEq, Repr

inductive Expr
  | junction (op : Junction) (values : List Expr)
  | compare (left : Expr) (relations : List Relation) (operands : List Expr)
  | name (id : String)
  | constant (value : Literal)
  | prefixed (op : PrefixOperator) (operand : Expr)
  | binary (op : BinaryOperator) (left right : Expr)
  | call (function : Expr) (arguments : List Expr)
  | attribute (value : Expr) (field : String)
  | subscript (value index : Expr)
  | list (elements : List Expr)
  | tuple (elements : List Expr)
  deriving Repr

/-- The text a literal stands for in a comparison. -/
def Literal.display : Literal → String
  | .text value => value
  | .number digits => digits
  | .truth true => "true"
  | .truth false => "false"

def Junction.kind : Junction → String
  | .and => "And"
  | .or => "Or"

def Relation.kind : Relation → String
  | .equal => "Eq"
  | .notEqual => "NotEq"
  | .less => "Lt"
  | .lessEqual => "LtE"
  | .greater => "Gt"
  | .greaterEqual => "GtE"
  | .in => "In"
  | .notIn => "NotIn"
  | .is => "Is"
  | .isNot => "IsNot"

/-- The relation as it is written in a condition. -/
def Relation.symbol : Relation → String
  | .equal => "=="
  | .notEqual => "!="
  | .less => "<"
  | .lessEqual => "<="
  | .greater => ">"
  | .greaterEqual => ">="
  | .in => "in"
  | .notIn => "not in"
  | .is => "is"
  | .isNot => "is not"

def PrefixOperator.kind : PrefixOperator → String
  | .not => "Not"
  | .minus => "USub"
  | .plus => "UAdd"
  | .invert => "Invert"

def BinaryOperator.kind : BinaryOperator → String
  | .add => "Add"
  | .subtract => "Sub"
  | .multiply => "Mult"
  | .divide => "Div"
  | .floorDivide => "FloorDiv"
  | .modulo => "Mod"
  | .power => "Pow"

/-- The name under which an expression of this kind is refused. -/
def Expr.kind : Expr → String
  | .junction .. => "BoolOp"
  | .compare .. => "Compare"
  | .name _ => "Name"
  | .constant _ => "Constant"
  | .prefixed .. => "UnaryOp"
  | .binary .. => "BinOp"
  | .call .. => "Call"
  | .attribute .. => "Attribute"
  | .subscript .. => "Subscript"
  | .list _ => "List"
  | .tuple _ => "Tuple"

/-- A run of operands under one junction; a single operand stands for itself. -/
def Expr.join (op : Junction) (first : Expr) (rest : List Expr) : Expr :=
  match rest with
  | [] => first
  | _ :: _ => .junction op (first :: rest)

/-- A comparison of an operand with those that follow it, if any do. -/
def Expr.chain (left : Expr) (steps : List (Relation × Expr)) : Expr :=
  match steps with
  | [] => left
  | _ :: _ => .compare left (steps.map Prod.fst) (steps.map Prod.snd)

@[simp] theorem Expr.join_nil (op : Junction) (first : Expr) :
    Expr.join op first [] = first := rfl

@[simp] theorem Expr.chain_nil (left : Expr) : Expr.chain left [] = left := rfl

end RecordCondition
