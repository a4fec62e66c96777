/-! # JSON values -/

namespace Offside

/-- A JSON value.  The members of an object keep their order and may repeat
    a key. -/
inductive Json where
  | null
  | bool (b : Bool)
  /-- A number written without fraction and exponent that fits 64 bits. -/
  | integer (n : Int)
  /-- Any other number, as it is written. -/
  | real (literal : String)
  | string (s : String)
  | array (items : List Json)
  | object (members : List (String × Json))
deriving Repr, Inhabited

/-- A natural number as a JSON value. -/
def Json.nat (n : Nat) : Json := .integer n

end Offside
