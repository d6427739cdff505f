import Loxley.Number.Display
import Loxley.Proofs.Datum.ReadBack
import Mathlib

/-!
# Finite numbers as text

Bits give back what a number was made from, unless they are above infinity, as those of NaN are. A
finite number is shown positionally: as digits, with or without a fraction, after a sign if it is
negative.
-/

set_option autoImplicit false

namespace Loxley

/-! ## Patterns -/

namespace Number

open Float.Model

/-- The bits of NaN are those with a magnitude above infinity. -/
theorem isNaNBits_iff {bits : UInt64} :
    @UnpackedFloat.isNaNBits Format.binary64 bits.toBitVec = true ↔
      infinite < bits.toNat % Nat.pow 2 63 := by
  have exponent : (@UnpackedFloat.unpackExponent Format.binary64 bits.toBitVec).toNat =
      bits.toNat / 2 ^ 52 % 2 ^ 11 := by
    simp only [UnpackedFloat.unpackExponent, BitVec.toNat_cast, BitVec.extractLsb_toNat,
      UInt64.toNat_toBitVec, Nat.shiftRight_eq_div_pow]
  have mantissa : (@UnpackedFloat.unpackMantissa Format.binary64 bits.toBitVec).toNat =
      bits.toNat % 2 ^ 52 := by
    simp only [UnpackedFloat.unpackMantissa, BitVec.toNat_cast, BitVec.extractLsb_toNat,
      UInt64.toNat_toBitVec, Nat.shiftRight_zero]
  have ones : (-1#11).toNat = 2047 := by decide
  have zero : (0#52).toNat = 0 := by decide
  rw [UnpackedFloat.isNaNBits, decide_eq_true_iff, ← BitVec.toNat_inj, Ne, ← BitVec.toNat_inj,
    exponent, mantissa, ones, zero]
  simp only [infinite, Nat.pow_eq]
  omega

/-- The bits of a number are those that it was made from, unless they are those of some NaN. -/
theorem toBits_ofBits_eq (bits : UInt64) :
    (Float.ofBits bits).toBits =
      if infinite < bits.toNat % Nat.pow 2 63 then Float.nan.toBits else bits := by
  have packed := @UnpackedFloat.pack_unpack Format.binary64 bits.toBitVec (by decide)
  refine UInt64.toBitVec_inj.mp (packed.trans ?_)
  simp only [isNaNBits_iff]
  split
  · rfl
  · rfl

/-- A finite pattern is the bits of a number. -/
theorem toBits_ofBits {bits : UInt64} (finite : bits.toNat < infinite) :
    (Float.ofBits bits).toBits = bits := by
  have small : bits.toNat % Nat.pow 2 63 ≤ bits.toNat := Nat.mod_le _ _
  rw [toBits_ofBits_eq, if_neg (by omega)]

theorem magnitude_of_ofMagnitude? {pattern : Nat} {number : Float}
    (given : ofMagnitude? pattern = some number) :
    magnitude number = pattern ∧ pattern < infinite := by
  unfold ofMagnitude? at given
  split at given
  · next finite =>
      have bound : infinite < 2 ^ 63 := by decide
      have bits : pattern.toUInt64.toNat = pattern := Nat.mod_eq_of_lt (by omega)
      cases given
      refine ⟨?_, finite⟩
      rw [magnitude, toBits_ofBits (by rwa [bits]), bits]
      exact Nat.mod_eq_of_lt (by simp only [Nat.pow_eq]; omega)
  · cases given

theorem isNaN_iff {number : Float} : number.isNaN = true ↔ infinite < magnitude number := by
  rw [Float.isNaN_eq_decide_eq_nan, decide_eq_true_iff]
  constructor
  · rintro rfl
    decide
  · intro above
    have same := toBits_ofBits_eq number.toBits
    rw [magnitude] at above
    rw [Float.ofBits_toBits, if_pos above] at same
    exact Float.toBits_inj.mp same

theorem isNaN_eq_false {number : Float} (finite : magnitude number < infinite) :
    number.isNaN = false := by
  rw [Bool.eq_false_iff, Ne, isNaN_iff]
  omega

end Number

/-! ## Digits -/

theorem Text.ofNat_ne_nil (number : Nat) : Text.ofNat number ≠ [] := by
  rw [Text.ofNat]
  split <;> simp

theorem Text.isDigit_of_mem_ofNat {number : Nat} {byte : UInt8}
    (member : byte ∈ Text.ofNat number) : Text.isDigit byte = true := by
  have isDigit : ∀ digit : Fin 10, Text.isDigit (48 + digit.val.toUInt8) = true := by decide
  fun_induction Text.ofNat number with
  | case1 number small =>
      rw [List.mem_singleton.mp member]
      exact isDigit ⟨number, small⟩
  | case2 number _ ih =>
      rcases List.mem_append.mp member with earlier | last
      · exact ih earlier
      · rw [List.mem_singleton.mp last]
        exact isDigit ⟨number % 10, Nat.mod_lt _ (by decide)⟩

theorem Decimal.digits_plain (decimal : Decimal) : Datum.Digits decimal.plain := by
  have each : ∀ byte ∈ Text.ofNat decimal.coefficient, Text.isDigit byte = true := fun _ =>
    Text.isDigit_of_mem_ofNat
  have zeros : ∀ count, ∀ byte ∈ List.replicate count (48 : UInt8), Text.isDigit byte = true := by
    intro count byte member
    rw [List.eq_of_mem_replicate member]
    rfl
  have nonempty := List.length_pos_of_ne_nil (Text.ofNat_ne_nil decimal.coefficient)
  simp only [Decimal.plain]
  split
  · refine .whole (by simp [Text.ofNat_ne_nil]) fun byte member => ?_
    rcases List.mem_append.mp member with digit | zero
    · exact each byte digit
    · exact zeros _ byte zero
  · next negative =>
      have places : 0 < (-decimal.exponent).toNat := by omega
      split
      · next inside =>
          refine .fraction ?_ (fun byte member => each byte (List.mem_of_mem_take member)) ?_
            (fun byte member => each byte (List.mem_of_mem_drop member))
          · exact List.ne_nil_of_length_pos (by rw [List.length_take]; omega)
          · exact List.ne_nil_of_length_pos (by rw [List.length_drop]; omega)
      · refine @Datum.Digits.fraction [48] _ (by simp) (by simp [Text.isDigit]) ?_ ?_
        · simp [Text.ofNat_ne_nil]
        · intro byte member
          rcases List.mem_append.mp member with zero | digit
          · exact zeros _ byte zero
          · exact each byte digit

/-- Finite numbers are shown as symbolic data write them. -/
theorem Number.numberText_display {number : Float} (finite : magnitude number < infinite) :
    Datum.NumberText (display number) := by
  have digits : Datum.Digits (if magnitude number = 0 then [48]
      else plainFormat.layOut (Decimal.shortest (magnitude number))) := by
    split
    · exact .whole (by simp) (by simp [Text.isDigit])
    · exact Decimal.digits_plain _
  simp only [display, write, isNaN_eq_false finite, Bool.false_eq_true, if_false,
    Nat.ne_of_lt finite]
  split
  · exact .signed rfl digits
  · exact .unsigned digits

end Loxley
