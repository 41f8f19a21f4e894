import RecordCondition.Text.CharClass

/-!
# How deeply a text nests

The depth of a text is measured before it is read as an expression, from its
brackets and its chains of prefix operators.  The text is cut into pieces, and
a counter takes one piece at a time.  A bracket is a level.  So is each prefix
operator and each power, until an operator that binds more loosely ends the
run at that level of brackets.
-/

namespace RecordCondition

open Text

/-! ## Pieces -/

inductive Piece
  | quotation
  | opening
  | closing
  /-- A plus or a minus, which is a prefix unless an operand stands before it. -/
  | sign
  | tilde
  | power
  /-- A comma, or an operator that binds more loosely than a prefix. -/
  | loose
  /-- Alphanumeric characters, underscores and, after the first, dots. -/
  | word (text : List Char)
  | other
  deriving DecidableEq, Repr

/-- What follows a quotation; an unclosed one takes the whole text. -/
def skipQuotation (quote : Char) : List Char → List Char
  | [] => []
  | '\\' :: [] => []
  | '\\' :: _ :: rest => skipQuotation quote rest
  | c :: rest => if c = quote then rest else skipQuotation quote rest

def isWordContinue (c : Char) : Bool :=
  isNameContinue c || c = '.'

def Piece.read (c : Char) (rest : List Char) : Piece × List Char :=
  match c, rest with
  | '\'', rest => (.quotation, skipQuotation '\'' rest)
  | '"', rest => (.quotation, skipQuotation '"' rest)
  | '(', rest | '[', rest => (.opening, rest)
  | ')', rest | ']', rest => (.closing, rest)
  | '-', rest | '+', rest => (.sign, rest)
  | '~', rest => (.tilde, rest)
  | '*', '*' :: rest => (.power, rest)
  | '*', rest | '/', rest | '%', rest | '<', rest | '>', rest | '=', rest
  | '!', rest | ',', rest => (.loose, rest)
  | c, rest =>
      if isNameContinue c then
        (.word (c :: rest.takeWhile isWordContinue), rest.dropWhile isWordContinue)
      else
        (.other, rest)

theorem skipQuotation_length (quote : Char) (cs : List Char) :
    (skipQuotation quote cs).length ≤ cs.length := by
  fun_induction skipQuotation quote cs <;> simp only [List.length_cons, List.length_nil] at * <;>
    omega

theorem Piece.read_length (c : Char) (rest : List Char) :
    (Piece.read c rest).2.length ≤ rest.length := by
  unfold Piece.read
  split <;> try simp only [List.length_cons]
  · exact skipQuotation_length _ _
  · exact skipQuotation_length _ _
  all_goals first
    | omega
    | split
      · exact (List.dropWhile_sublist _).length_le
      · exact Nat.le_refl _

def pieces : List Char → List Piece
  | [] => []
  | c :: rest => (Piece.read c rest).1 :: pieces (Piece.read c rest).2
  termination_by cs => cs.length
  decreasing_by exact Nat.lt_succ_of_le (Piece.read_length c rest)

/-! ## The counter -/

/-- The state of the count.  `outer` holds the runs suspended by the brackets
that are open, innermost first, and `held` their sum; `run` is the current run
of prefix operators; after an operand, a sign or `not` is infix. -/
structure Nesting where
  outer : List Nat := []
  held : Nat := 0
  run : Nat := 0
  afterOperand : Bool := false
  deepest : Nat := 0
  deriving DecidableEq, Repr

def Nesting.level (nesting : Nesting) : Nat :=
  nesting.outer.length + nesting.held + nesting.run

/-- An infix operator ends the run. -/
def Nesting.interrupt (nesting : Nesting) : Nesting :=
  { nesting with run := 0, afterOperand := false }

def Nesting.word (nesting : Nesting) (text : List Char) : Nesting :=
  match String.ofList (text.map Char.toLower) with
  | "not" =>
      if nesting.afterOperand then nesting.interrupt
      else { nesting with run := nesting.run + 1 }
  | "and" | "or" | "in" | "is" => nesting.interrupt
  | _ => { nesting with afterOperand := true }

/-- The state after a piece, before its level is compared with the deepest. -/
def Nesting.take (nesting : Nesting) : Piece → Nesting
  | .quotation => { nesting with afterOperand := true }
  | .opening =>
      { nesting with
        outer := nesting.run :: nesting.outer
        held := nesting.held + nesting.run
        run := 0
        afterOperand := false }
  | .closing =>
      match nesting.outer with
      | [] => { nesting with afterOperand := true }
      | suspended :: outer =>
          { nesting with
            outer := outer
            held := nesting.held - suspended
            run := suspended
            afterOperand := true }
  | .sign =>
      if nesting.afterOperand then nesting.interrupt
      else { nesting with run := nesting.run + 1 }
  | .tilde => { nesting with run := nesting.run + 1 }
  | .power => { nesting with run := nesting.run + 1, afterOperand := false }
  | .loose => nesting.interrupt
  | .word text => nesting.word text
  | .other => nesting

def Nesting.step (nesting : Nesting) (piece : Piece) : Nesting :=
  let next := nesting.take piece
  { next with deepest := max next.deepest next.level }

def nestingDepth (text : String) : Nat :=
  ((pieces text.toList).foldl Nesting.step {}).deepest

end RecordCondition
