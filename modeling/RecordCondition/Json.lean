import RecordCondition.Binary.Text
import RecordCondition.Integer

/-!
# JSON values

A number keeps its token, since an integer and a decimal of the same value are
told apart by the way they are written.
-/

namespace RecordCondition

inductive Json
  | null
  | truth (value : Bool)
  | number (token : String)
  | string (value : String)
  | array (elements : List Json)
  | object (members : List (String × Json))

namespace Json

/-- The value at a key of an object; of several at one key it is the last. -/
def get? (key : String) : Json → Option Json
  | .object members => (members.reverse.find? fun entry => entry.1 = key).map Prod.snd
  | _ => none

/-- A number token without a point and an exponent is an integer, but for the
zero with a sign, which only a decimal can hold. -/
def isIntegerToken (token : String) : Bool :=
  token ≠ "-0" && token.toList.all fun c => c.isDigit || c = '-'

def signed64 : IntegerType := ⟨true, 64⟩

def unsigned64 : IntegerType := ⟨false, 64⟩

/-- The integer of a type that a value is. -/
def integer? (type : IntegerType) : Json → Option type.Value
  | .number token =>
      if isIntegerToken token then (type.read token).toOption else none
  | _ => none

/-- The double that a number token stands for. -/
def doubleOfToken (token : String) : Option (Binary .double) :=
  (Binary.read .double token).toOption

/-- The double that a value is, an integer as the nearest double. -/
def double? : Json → Option (Binary .double)
  | .number token => doubleOfToken token
  | _ => none

def truth? : Json → Option Bool
  | .truth value => some value
  | _ => none

def string? : Json → Option String
  | .string value => some value
  | _ => none

def array? : Json → Option (List Json)
  | .array elements => some elements
  | _ => none

end Json

end RecordCondition
