/-! # Numerals — natural numbers written in decimal

    Numbers that arrive as text are ASCII digits with at most one leading
    plus sign, and they fit a machine word. -/

namespace Offside.Text

/-- One more than the greatest number of a machine word. -/
def wordLimit : Nat := 0x1_0000_0000_0000_0000

/-- Whether a character is one of the ten ASCII digits. -/
def isDecimal (c : Char) : Bool := '0' ≤ c && c ≤ '9'

/-- The value of a digit. -/
def decimalValue (c : Char) : Nat := c.toNat - '0'.toNat

/-- The value of a row of digits, most significant first. -/
def decimalsValue (ds : List Char) : Nat :=
  ds.foldl (fun n d => 10 * n + decimalValue d) 0

/-- The number that a text of digits spells, if it fits a machine word. -/
def digitsWord? (ds : List Char) : Option Nat :=
  if ds ≠ [] ∧ ds.all isDecimal ∧ decimalsValue ds < wordLimit then
    some (decimalsValue ds)
  else
    none

/-- The number that a text spells: digits after at most one plus sign, in
    the range of a machine word. -/
def word? : List Char → Option Nat
  | '+' :: ds => digitsWord? ds
  | ds => digitsWord? ds

/-- A natural number in decimal. -/
def decimal (n : Nat) : String := String.ofList (Nat.toDigits 10 n)

/-- An integer in decimal, with a minus sign if it is negative. -/
def signedDecimal : Int → String
  | .ofNat n => decimal n
  | .negSucc n => "-" ++ decimal (n + 1)

end Offside.Text
