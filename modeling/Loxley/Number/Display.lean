import Loxley.Number.Decimal

/-!
# Numbers as text

Numbers are shown with the fewest digits that read back as the same number. Programs see them
positionally, whatever their size; token listings switch to an exponent for very large and very
small ones.
-/

set_option autoImplicit false

namespace Loxley.Number

/-- The wording of a number format: its special values, and how a positive decimal is laid out. -/
structure Format where
  infinity : Text
  negativeInfinity : Text
  layOut : Decimal → Text

/-- The text of a number in a format. -/
def write (format : Format) (number : Float) : Text :=
  if number.isNaN then "NaN"
  else if magnitude number = infinite then
    if isNegative number then format.negativeInfinity else format.infinity
  else
    let digits : Text :=
      if magnitude number = 0 then [48] else format.layOut (Decimal.shortest (magnitude number))
    if isNegative number then 45 :: digits else digits

/-- Numbers as programs print them: never with an exponent. -/
def plainFormat : Format where
  infinity := "Infinity"
  negativeInfinity := "-Infinity"
  layOut := Decimal.plain

/-- Numbers as token listings show them: with an exponent below `10 ^ -4` and from `10 ^ 6` on. -/
def listingFormat : Format where
  infinity := "+Inf"
  negativeInfinity := "-Inf"
  layOut decimal :=
    let exponent := decimal.exponent + ((Text.ofNat decimal.coefficient).length - 1 : Nat)
    if exponent < -4 ∨ 6 ≤ exponent then decimal.scientific else decimal.plain

/-- The text of a number as programs print it. -/
def display (number : Float) : Text :=
  write plainFormat number

end Loxley.Number
