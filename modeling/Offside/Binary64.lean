import Offside.Text.Numeral

/-! # Binary64 — floating-point numbers as exact values

    A finite number is a significand below 2^53 times a power of two.  A
    decimal is rounded to the nearest such number, ties to the even
    significand, and a number is written with the fewest digits that round
    back to it, in positional notation.  All arithmetic is on integers. -/

namespace Offside

/-- A floating-point number of 64 bits. -/
inductive Binary64 where
  | finite (negative : Bool) (significand : Nat) (exponent : Int)
  | infinite (negative : Bool)
  | nan
deriving DecidableEq, Repr

namespace Binary64

/-- The least exponent of a finite number. -/
def leastExponent : Int := -1074

/-- The greatest exponent of a finite number. -/
def greatestExponent : Int := 971

/-- The least significand that has all of its 53 binary digits. -/
def leastFull : Nat := 0x10_0000_0000_0000

/-- The quotient rounded to the nearest integer, ties to even. -/
def roundQuotient (num den : Nat) : Nat :=
  let q := num / den
  let r := num % den
  if den < 2 * r || (2 * r == den && q % 2 == 1) then q + 1 else q

/-- A fraction times a power of a base, as a fraction. -/
def scale (base num den : Nat) (exponent : Int) : Nat × Nat :=
  match exponent with
  | .ofNat n => (num * Nat.pow base n, den)
  | .negSucc n => (num, den * Nat.pow base (n + 1))

/-- The greatest power of two that a positive fraction reaches. -/
def log2Quotient (num den : Nat) : Int :=
  let guess : Int := (Nat.log2 num : Int) - (Nat.log2 den : Int)
  let (num, den) := scale 2 num den (-guess)
  if den ≤ num then guess else guess - 1

/-- The finite number nearest to a positive fraction, if it is in range. -/
def nearest (negative : Bool) (num den : Nat) : Binary64 :=
  let exponent := max (log2Quotient num den - 52) leastExponent
  let (num, den) := scale 2 num den (-exponent)
  let significand := roundQuotient num den
  let (significand, exponent) :=
    if significand = 2 * leastFull then (leastFull, exponent + 1) else (significand, exponent)
  if greatestExponent < exponent then infinite negative
  else finite negative significand exponent

/-- The number nearest to a decimal, given by its digits as an integer and
    the power of ten that they are multiplied by. -/
def ofDecimal (negative : Bool) (digits : Nat) (exponent : Int) : Binary64 :=
  let magnitude : Int := (Nat.toDigits 10 digits).length + exponent
  if digits = 0 || magnitude < -330 then finite negative 0 leastExponent
  else if 330 < magnitude then infinite negative
  else
    let (num, den) := scale 10 digits 1 exponent
    nearest negative num den

/-- Whether a number is zero, of either sign. -/
def isZero : Binary64 → Bool
  | finite _ significand _ => significand == 0
  | infinite _ => false
  | nan => false

/-- Whether a number is neither infinite nor the result of an invalid
    operation. -/
def isFinite : Binary64 → Bool
  | finite .. => true
  | infinite _ => false
  | nan => false

/-! ## Shortest digits -/

/-- The greatest power of ten that a positive fraction reaches, searched
    downwards from a power that it does not reach. -/
def log10From (num den : Nat) : Nat → Int → Int
  | 0, exponent => exponent
  | fuel + 1, exponent =>
      let (n, d) := scale 10 num den (-exponent)
      if d ≤ n then exponent else log10From num den fuel (exponent - 1)

/-- The decimals around a number that round to it, as multiples of a power
    of two: the number itself, its bounds, and whether the bounds count. -/
structure Interval where
  value : Nat
  lower : Nat
  upper : Nat
  closed : Bool
  exponent : Int

/-- The interval of a finite number; the number below the least significand
    of its exponent is only half as far away. -/
def interval (significand : Nat) (exponent : Int) : Interval where
  value := 4 * significand
  lower :=
    if significand = leastFull ∧ leastExponent < exponent then 4 * significand - 1
    else 4 * significand - 2
  upper := 4 * significand + 2
  closed := significand % 2 == 0
  exponent := exponent - 2

/-- Whether a multiple of a power of ten lies in an interval. -/
def Interval.has (i : Interval) (digits : Nat) (power : Int) : Bool :=
  let (a, b) := scale 10 digits 1 power
  let (c, d) := scale 2 1 1 i.exponent
  let x := a * d
  let y := b * c
  if i.closed then i.lower * y ≤ x && x ≤ i.upper * y
  else i.lower * y < x && x < i.upper * y

/-- The multiple of a power of ten in an interval that is nearest to its
    value, if there is one; of two equally near the greater. -/
def Interval.pick (i : Interval) (power : Int) : Option Nat :=
  let (num, den) := scale 2 i.value 1 i.exponent
  let (num, den) := scale 10 num den (-power)
  let below := num / den
  let near := if den ≤ 2 * (num % den) then below + 1 else below
  if i.has near power then some near
  else if i.has below power then some below
  else if i.has (below + 1) power then some (below + 1)
  else none

/-- The fewest digits in an interval, from a power of ten downwards. -/
def Interval.shortest (i : Interval) : Nat → Int → Nat × Int
  | 0, power => (0, power)
  | fuel + 1, power =>
      match i.pick power with
      | some digits => (digits, power)
      | none => shortest i fuel (power - 1)

/-- The fewest decimal digits that round to a positive number, as an integer
    and the power of ten that it is multiplied by. -/
def shortestDecimal (significand : Nat) (exponent : Int) : Nat × Int :=
  let (num, den) := scale 2 significand 1 exponent
  (interval significand exponent).shortest 20 (log10From num den 700 310)

/-- An integer times a power of ten in positional notation. -/
def positional (digits : Nat) (power : Int) : String :=
  let ds := Nat.toDigits 10 digits
  match power with
  | .ofNat n => String.ofList (ds ++ List.replicate n '0')
  | .negSucc n =>
      let places := n + 1
      let ds := List.replicate (places + 1 - ds.length) '0' ++ ds
      let whole := ds.take (ds.length - places)
      let part := ((ds.drop (ds.length - places)).reverse.dropWhile (· == '0')).reverse
      String.ofList (if part.isEmpty then whole else whole ++ '.' :: part)

/-- A number in decimal. -/
def display : Binary64 → String
  | finite negative significand exponent =>
      let magnitude :=
        if significand = 0 then "0"
        else
          let (digits, power) := shortestDecimal significand exponent
          positional digits power
      if negative then "-" ++ magnitude else magnitude
  | infinite negative => if negative then "-inf" else "inf"
  | nan => "NaN"

/-- A number in decimal, where a whole number keeps a zero after the point. -/
def displayWithPoint (x : Binary64) : String :=
  let text := x.display
  if x.isFinite && !text.toList.contains '.' then text ++ ".0" else text

end Binary64

end Offside
