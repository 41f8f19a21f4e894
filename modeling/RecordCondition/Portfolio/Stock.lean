import RecordCondition.Declaration
import RecordCondition.TextRecord

/-!
# Stocks

A record type with prices and ratios, declared so that codes are searched as
text and the numbers are ordered, with some stocks to try conditions on.
-/

namespace RecordCondition

namespace Portfolio

structure Stock where
  code : String
  price : Binary .double
  eps : Binary .double
  er : Binary .double

namespace Stock

def number (name : String) (value : Stock → Binary .double) : DeclaredField × Column Stock :=
  (⟨name, ["condition(op(lt, lte, gt, gte))"]⟩,
    ⟨.binary .double, fun stock => .one (value stock)⟩)

def fields : List (DeclaredField × Column Stock) :=
  [(⟨"code", ["condition(op(in, not_in))"]⟩, ⟨.text, fun stock => .one stock.code⟩),
    number "price" Stock.price,
    number "eps" Stock.eps,
    number "er" Stock.er]

def registry : Except DeclarationError (Registry Stock) :=
  Registry.ofDeclared fields

/-- The stock that a record written as text describes. -/
def ofText? (record : TextRecord) : Option Stock := do
  let code ← record.scalar? .text "code"
  let price ← record.scalar? (.binary .double) "price"
  let eps ← record.scalar? (.binary .double) "eps"
  let er ← record.scalar? (.binary .double) "er"
  pure ⟨code, price, eps, er⟩

/-- A number of tenths. -/
def tenths (count : Nat) : Binary .double :=
  .ofRatio .double false count 10

def listed : List Stock :=
  [⟨"100", .ofNat .double 100, tenths 1, tenths 4⟩,
    ⟨"600", .ofNat .double 250, tenths 1, tenths 6⟩,
    ⟨"200", .ofNat .double 300, tenths 3, tenths 9⟩,
    ⟨"300", .ofNat .double 50, tenths 5, tenths 1⟩]

end Stock

end Portfolio

end RecordCondition
