import Loxley.Number.Binary
import Loxley.Text

/-!
# Decimal numerals

A decimal is a coefficient scaled by a power of ten. This module rounds decimals to binary numbers,
finds the shortest decimal that rounds to a given number, and lays decimals out as text.
-/

set_option autoImplicit false

namespace Loxley

/-- The number `coefficient · 10 ^ exponent`. -/
structure Decimal where
  coefficient : Nat
  exponent : Int
deriving DecidableEq, Repr

namespace Decimal

/-- The pattern of the magnitude nearest to a decimal. -/
def pattern (decimal : Decimal) : Nat :=
  if 0 ≤ decimal.exponent then
    Number.nearest (decimal.coefficient * Nat.pow 10 decimal.exponent.toNat) 1
  else
    Number.nearest decimal.coefficient (Nat.pow 10 (-decimal.exponent).toNat)

/-- The number nearest to a decimal, unless it is too large. -/
def toFloat? (decimal : Decimal) : Option Float :=
  Number.ofMagnitude? decimal.pattern

/-- The decimal that a numeral `digits` or `digits.digits` denotes. -/
def ofNumeral (numeral : Text) : Decimal :=
  let whole := numeral.takeWhile Text.isDigit
  let fraction := (numeral.dropWhile Text.isDigit).drop 1
  { coefficient := Text.value (whole ++ fraction), exponent := -fraction.length }

/-- The decimal that is exactly the value of a finite pattern. -/
def exact (pattern : Nat) : Decimal :=
  { coefficient := Number.units pattern * Nat.pow 5 1074, exponent := -1074 }

/--
The better of the two multiples of `10 ^ exponent` around a pattern's value among those that round
to the pattern: the nearer one, or of two equally near the one with the even coefficient.
-/
def onGrid? (pattern : Nat) (exponent : Int) : Option Decimal :=
  let numerator := Number.units pattern * Nat.pow 10 (-exponent).toNat
  let denominator := Number.unitsPerOne * Nat.pow 10 exponent.toNat
  let below : Decimal := { coefficient := numerator / denominator, exponent }
  let above : Decimal := { coefficient := below.coefficient + 1, exponent }
  let preferred := Number.roundDiv numerator denominator
  if below.pattern = pattern then
    if above.pattern = pattern then some { coefficient := preferred, exponent } else some below
  else if above.pattern = pattern then some above
  else none

/-- The first decimal found on the grids from `10 ^ exponent` downwards. -/
def search (pattern : Nat) : Nat → Int → Option Decimal
  | 0, _ => none
  | grids + 1, exponent =>
    match onGrid? pattern exponent with
    | some decimal => some decimal
    | none => search pattern grids (exponent - 1)

/--
A power of ten above a positive pattern's value. The value is below `2 ^ (log + 1)`, and `30103 / 100000`
is slightly more than the decimal logarithm of two.
-/
def ceiling (pattern : Nat) : Int :=
  let log : Int := (Number.units pattern).log2 - 1074
  ((log + 1) * 30103).fdiv 100000 + 1

/--
The decimal with the fewest digits that rounds to a positive finite pattern, and of those the nearest
to its value. Twenty grids reach past seventeen digits, which are always enough.
-/
def shortest (pattern : Nat) : Decimal :=
  (search pattern 20 (ceiling pattern)).getD (exact pattern)

/-- A decimal written positionally, without exponent and padded with zeros up to its point. -/
def plain (decimal : Decimal) : Text :=
  let digits := Text.ofNat decimal.coefficient
  if 0 ≤ decimal.exponent then digits ++ List.replicate decimal.exponent.toNat 48
  else
    let places := (-decimal.exponent).toNat
    if places < digits.length then
      digits.take (digits.length - places) ++ 46 :: digits.drop (digits.length - places)
    else
      [48, 46] ++ List.replicate (places - digits.length) 48 ++ digits

/-- A decimal written as one digit, a fraction, and a signed exponent of at least two digits. -/
def scientific (decimal : Decimal) : Text :=
  let digits := Text.ofNat decimal.coefficient
  let exponent := decimal.exponent + (digits.length - 1 : Nat)
  let fraction := digits.drop 1
  let mark : Text := if exponent < 0 then [101, 45] else [101, 43]
  let size := Text.ofNat exponent.natAbs
  digits.take 1 ++ (if fraction.isEmpty then [] else 46 :: fraction) ++ mark ++
    (if size.length < 2 then 48 :: size else size)

end Decimal

end Loxley
