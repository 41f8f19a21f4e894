import RecordCondition.Declaration
import RecordCondition.TextRecord

/-!
# Holdings

A record type with an optional number, a list, a time, a field that is not
checked and one that is left out, with some holdings to try conditions on.
-/

namespace RecordCondition

namespace Portfolio

/-- Counts of shares. -/
def shareCount : IntegerType := ⟨false, 32⟩

structure Holding where
  code : String
  price : Binary .double
  shares : Option shareCount.Value
  tags : List String
  bought : Instant
  per : Binary .double
  note : String := ""

namespace Holding

def fields : List (DeclaredField × Column Holding) :=
  [(⟨"code", ["condition(op(in, not_in))"]⟩, ⟨.text, fun holding => .one holding.code⟩),
    (⟨"price", ["condition(op(lt, lte, gt, gte))"]⟩,
      ⟨.binary .double, fun holding => .one holding.price⟩),
    (⟨"shares", ["condition(rename = \"qty\", op(lt, gt))"]⟩,
      ⟨.integer shareCount, fun holding => .ofOption holding.shares⟩),
    (⟨"tags", ["condition(op(in))"]⟩, ⟨.text, fun holding => .many (holding.tags.map .one)⟩),
    (⟨"bought", ["condition(op(lt, gt))"]⟩, ⟨.utc, fun holding => .one holding.bought⟩),
    (⟨"per", ["condition(ignore)"]⟩, ⟨.binary .double, fun holding => .one holding.per⟩),
    (⟨"note", ["condition(exclude)"]⟩, ⟨.text, fun holding => .one holding.note⟩)]

def registry : Except DeclarationError (Registry Holding) :=
  Registry.ofDeclared fields

/-- The holding that a record written as text describes, without its note. -/
def ofText? (record : TextRecord) : Option Holding := do
  let code ← record.scalar? .text "code"
  let price ← record.scalar? (.binary .double) "price"
  let shares ← record.optional? (.integer shareCount) "shares"
  let tags ← record.list? .text "tags"
  let bought ← record.scalar? .utc "bought"
  let per ← record.scalar? (.binary .double) "per"
  pure { code, price, shares, tags, bought, per }

/-- A holding bought at nine o'clock of a day. -/
def ofPrice (code : String) (price : Nat) (shares : Option Int) (tags : List String)
    (bought : Date) : Holding where
  code := code
  price := .ofNat .double price
  shares := shares.bind shareCount.ofInt?
  tags := tags
  bought := .ofDate bought 9 0 0
  per := .ofRatio .double false price 100

def held : List Holding :=
  [ofPrice "7203" 2500 (some 100) ["auto", "export"] ⟨2024, 1, 10⟩,
    ofPrice "6758" 12000 none ["electronics"] ⟨2023, 6, 1⟩,
    ofPrice "8306" 1500 (some 20) [] ⟨2024, 5, 20⟩]

end Holding

end Portfolio

end RecordCondition
