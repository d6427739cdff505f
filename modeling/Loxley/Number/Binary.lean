/-!
# Binary magnitudes

A finite number without its sign is given by a bit pattern below `infinite`. Each pattern splits as
`shift · 2 ^ 52 + significand`, and its value is `significand · 2 ^ shift` units of `2 ^ -1074`, the
least positive number. Counting in that unit makes every finite magnitude a natural number, so that
rounding a fraction needs only division with remainder.
-/

set_option autoImplicit false

namespace Loxley.Number

/-- The pattern of infinity; the patterns below it are the finite magnitudes. -/
def infinite : Nat := 2047 * Nat.pow 2 52

/-- How many units of `2 ^ -1074` make up one. -/
def unitsPerOne : Nat := Nat.pow 2 1074

/-- The power of two that scales the significand of a pattern. -/
def shift (pattern : Nat) : Nat :=
  pattern / Nat.pow 2 52 - 1

/-- The whole significand of a pattern, with the leading bit that normal patterns leave out. -/
def significand (pattern : Nat) : Nat :=
  pattern - shift pattern * Nat.pow 2 52

/-- The value of a pattern in units of `2 ^ -1074`. -/
def units (pattern : Nat) : Nat :=
  significand pattern * Nat.pow 2 (shift pattern)

/-- The quotient rounded to the nearest natural number, a half going to the even neighbour. -/
def roundDiv (numerator denominator : Nat) : Nat :=
  let quotient := numerator / denominator
  let twice := 2 * (numerator % denominator)
  if twice < denominator then quotient
  else if denominator < twice then quotient + 1
  else quotient + quotient % 2

/--
The pattern nearest to a fraction, a half going to the even significand. A significand that rounds
up to `2 ^ 53` carries into the next shift by itself. The result is not below `infinite` exactly when
the fraction is too large for a finite number.
-/
def nearest (numerator denominator : Nat) : Nat :=
  let scaled := numerator * unitsPerOne
  let scale := (scaled / denominator).log2 - 52
  scale * Nat.pow 2 52 + roundDiv scaled (denominator * Nat.pow 2 scale)

/-- The bit pattern of a number without its sign. -/
def magnitude (number : Float) : Nat :=
  number.toBits.toNat % Nat.pow 2 63

/-- The sign bit of a number. -/
def isNegative (number : Float) : Bool :=
  Nat.pow 2 63 ≤ number.toBits.toNat

/-- The non-negative number with a finite pattern. -/
def ofMagnitude? (pattern : Nat) : Option Float :=
  if pattern < infinite then some (Float.ofBits pattern.toUInt64) else none

/-- The number nearest to an integer. -/
def ofInt (integer : Int) : Float :=
  let size := Float.ofBits (nearest integer.natAbs 1).toUInt64
  if integer < 0 then -size else size

end Loxley.Number
