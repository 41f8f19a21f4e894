import RecordCondition.Json.Column
import RecordCondition.Pattern.Reader
import RecordCondition.Registry

/-!
# Listings

Listings are JSON objects rather than records of a type of their own.  A code
must consist of digits, a price must not be negative, and the ratio `pbr` may be
mentioned although no listing has it.
-/

namespace RecordCondition

namespace Portfolio

namespace Listing

def codeField : TypedField Json where
  column := Json.column .text "code"
  operators := .textual
  pattern := Pattern.read? "^\\d+$"

def priceField : TypedField Json where
  column := Json.column .double "price"
  operators := .ordered
  min := some (Binary.ofNat .double 0)

def sharesField : TypedField Json where
  column := Json.column .signed "shares"
  operators := .ordered

def registry : Registry Json :=
  .ofList
    [("code", .typed codeField), ("price", .typed priceField), ("shares", .typed sharesField),
      ("pbr", .bare)]

def listed : List Json :=
  [.object [("code", .string "100"), ("price", .number "100"), ("shares", .number "10")],
    .object [("code", .string "600"), ("price", .number "250.5")],
    .object [("code", .string "200"), ("price", .number "300"), ("shares", .number "5")]]

/-- The code of a listing. -/
def code? (listing : Json) : Option String :=
  (listing.get? "code").bind Json.string?

end Listing

end Portfolio

end RecordCondition
