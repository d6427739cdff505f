import Loxley.Proofs.Number.Finite

/-!
# Shortest decimals

The decimal that is chosen for a number rounds to that number, and its text reads as a decimal of the
same value. A finite number without a sign is read back from its text.
-/

set_option autoImplicit false

namespace Loxley

/-! ## Digits -/

namespace Text

theorem foldl_value (total : Nat) (digits : Text) :
    digits.foldl (fun total digit => 10 * total + (digit.toNat - 48)) total =
      total * 10 ^ digits.length + value digits := by
  induction digits generalizing total with
  | nil => simp [value]
  | cons digit rest ih =>
      have first : value (digit :: rest) =
          (10 * 0 + (digit.toNat - 48)) * 10 ^ rest.length + value rest := ih _
      rw [List.foldl_cons, ih, first, List.length_cons]
      ring

theorem value_append (digits more : Text) :
    value (digits ++ more) = value digits * 10 ^ more.length + value more := by
  rw [value, List.foldl_append, foldl_value]
  rfl

theorem value_zeros (count : Nat) : value (List.replicate count 48) = 0 := by
  induction count with
  | zero => rfl
  | succ count ih =>
      rw [List.replicate_succ', value_append, ih]
      rfl

theorem value_ofNat (number : Nat) : value (ofNat number) = number := by
  have digit : ∀ digit : Fin 10, value [48 + digit.val.toUInt8] = digit.val := by decide
  fun_induction ofNat number with
  | case1 number small => exact digit ⟨number, small⟩
  | case2 number _ ih =>
      rw [value_append, ih, digit ⟨number % 10, Nat.mod_lt _ (by decide)⟩]
      exact Nat.div_add_mod' number 10

end Text

namespace Decimal

section Numerals

variable {whole fraction : Text} (each : ∀ byte ∈ whole, Text.isDigit byte = true)

include each

theorem ofNumeral_whole :
    ofNumeral whole = { coefficient := Text.value whole, exponent := 0 } := by
  have taken : whole.takeWhile Text.isDigit = whole := List.takeWhile_eq_self_iff.mpr each
  have dropped : whole.dropWhile Text.isDigit = [] := List.dropWhile_eq_nil_iff.mpr each
  simp [ofNumeral, taken, dropped]

theorem ofNumeral_fraction :
    ofNumeral (whole ++ 46 :: fraction) =
      { coefficient := Text.value (whole ++ fraction), exponent := -fraction.length } := by
  have point : Text.isDigit 46 = false := by decide
  simp [ofNumeral, List.takeWhile_append_of_pos each, List.dropWhile_append_of_pos each, point]

end Numerals

/-- A decimal and the one that its text reads as may differ in trailing zeros only. -/
theorem pattern_ofNumeral_plain (decimal : Decimal) :
    (ofNumeral decimal.plain).pattern = decimal.pattern := by
  have each : ∀ byte ∈ Text.ofNat decimal.coefficient, Text.isDigit byte = true := fun _ =>
    Text.isDigit_of_mem_ofNat
  obtain ⟨coefficient, exponent⟩ := decimal
  simp only [plain] at each ⊢
  split
  · next notNegative =>
      have zeros : ∀ byte ∈ List.replicate exponent.toNat 48, Text.isDigit byte = true := by
        intro byte member
        rw [List.eq_of_mem_replicate member]
        rfl
      rw [ofNumeral_whole (List.forall_mem_append.mpr ⟨each, zeros⟩), Text.value_append,
        Text.value_ofNat, Text.value_zeros, List.length_replicate]
      simp [pattern, notNegative]
  · next negative =>
      split
      · next inside =>
          rw [ofNumeral_fraction fun byte member => each byte (List.mem_of_mem_take member),
            List.take_append_drop, Text.value_ofNat, List.length_drop]
          congr 2
          omega
      · next outside =>
          have zero : ∀ byte ∈ [48], Text.isDigit byte = true := by simp [Text.isDigit]
          have fraction := @ofNumeral_fraction [48]
            (List.replicate ((-exponent).toNat - (Text.ofNat coefficient).length) 48 ++
              Text.ofNat coefficient) zero
          rw [List.append_assoc]
          refine (congrArg pattern fraction).trans ?_
          have leading : Text.value [48] = 0 := rfl
          simp only [Text.value_append, Text.value_zeros, Text.value_ofNat, leading,
            List.length_append, List.length_replicate]
          congr 2
          · omega
          · omega

end Decimal

/-! ## Rounding back -/

namespace Number

theorem roundDiv_mul {denominator : Nat} (positive : 0 < denominator) (quotient : Nat) :
    roundDiv (quotient * denominator) denominator = quotient := by
  simp [roundDiv, positive]

theorem roundDiv_eq_or (numerator denominator : Nat) :
    roundDiv numerator denominator = numerator / denominator ∨
      roundDiv numerator denominator = numerator / denominator + 1 := by
  simp only [roundDiv]
  split
  · exact .inl rfl
  · split
    · exact .inr rfl
    · rcases Nat.mod_two_eq_zero_or_one (numerator / denominator) with even | odd
      · exact .inl (by rw [even, Nat.add_zero])
      · exact .inr (by rw [odd])

theorem shift_add_significand (pattern : Nat) :
    shift pattern * Nat.pow 2 52 + significand pattern = pattern := by
  simp only [significand, shift, Nat.pow_eq]
  omega

/-- A significand has 53 bits, unless the shift is at its least. -/
theorem log2_units (pattern : Nat) : (units pattern).log2 - 52 = shift pattern := by
  have split := shift_add_significand pattern
  have bound : significand pattern < 2 ^ 53 := by
    simp only [significand, shift, Nat.pow_eq]
    omega
  rcases Nat.eq_zero_or_pos (shift pattern) with least | normal
  · have small : units pattern < 2 ^ 53 := by simpa [units, least] using bound
    rcases Nat.eq_zero_or_pos (units pattern) with zero | positive
    · simp [zero, least]
    · have := (Nat.log2_lt (by omega)).mpr small
      omega
  · have leading : 2 ^ 52 ≤ significand pattern := by
      simp only [significand, shift, Nat.pow_eq] at normal ⊢
      omega
    have log : (units pattern).log2 = 52 + shift pattern := by
      have positive : units pattern ≠ 0 := by
        simp only [units, Nat.pow_eq]
        positivity
      rw [Nat.log2_eq_iff positive]
      simp only [units, Nat.pow_eq]
      constructor
      · rw [Nat.pow_add]
        exact Nat.mul_le_mul_right _ leading
      · rw [Nat.add_right_comm, Nat.pow_add]
        exact Nat.mul_lt_mul_of_pos_right bound (by positivity)
    omega

theorem pow_two_pos (exponent : Nat) : 0 < Nat.pow 2 exponent := Nat.pow_pos (by decide)

/-- The value of a pattern rounds to the pattern, however the fraction is written. -/
theorem nearest_units (pattern : Nat) {factor : Nat} (positive : 0 < factor) :
    nearest (units pattern * factor) (unitsPerOne * factor) = pattern := by
  have unit : 0 < unitsPerOne := by
    delta unitsPerOne
    apply pow_two_pos
  have scaled : units pattern * factor * unitsPerOne = units pattern * (unitsPerOne * factor) := by
    ring
  have whole : units pattern * (unitsPerOne * factor) =
      significand pattern * (unitsPerOne * factor * Nat.pow 2 (shift pattern)) := by
    rw [units]
    ring
  have power := pow_two_pos (shift pattern)
  rw [nearest, scaled, Nat.mul_div_cancel _ (Nat.mul_pos unit positive), log2_units, whole,
    roundDiv_mul (Nat.mul_pos (Nat.mul_pos unit positive) power)]
  exact shift_add_significand pattern

end Number

namespace Decimal

theorem pattern_scaled (pattern : Nat) {places : Nat} (positive : 0 < places)
    (unit : Number.unitsPerOne = Nat.pow 2 places) :
    Decimal.pattern { coefficient := Number.units pattern * Nat.pow 5 places, exponent := -places } =
      pattern := by
  have ten : Nat.pow 10 places = Number.unitsPerOne * Nat.pow 5 places := by
    rw [unit]
    exact Nat.mul_pow 2 5 places
  have negative : ¬ (0 : Int) ≤ -places := by omega
  rw [Decimal.pattern, if_neg negative, Int.neg_neg, Int.toNat_natCast, ten]
  exact Number.nearest_units pattern (Nat.pow_pos (by decide))

theorem pattern_exact (pattern : Nat) : (exact pattern).pattern = pattern :=
  pattern_scaled pattern (by decide) (by delta Number.unitsPerOne; congr)

theorem pattern_of_onGrid? {pattern : Nat} {exponent : Int} {decimal : Decimal}
    (found : onGrid? pattern exponent = some decimal) : decimal.pattern = pattern := by
  simp only [onGrid?] at found
  generalize Number.units pattern * Nat.pow 10 (-exponent).toNat = numerator at found
  generalize Number.unitsPerOne * Nat.pow 10 exponent.toNat = denominator at found
  split at found
  · next below =>
      split at found
      · next above =>
          cases found
          rcases Number.roundDiv_eq_or numerator denominator with down | up
          · rw [down]
            exact below
          · rw [up]
            exact above
      · cases found
        exact below
  · split at found
    · next above =>
        cases found
        exact above
    · cases found

theorem pattern_of_search {pattern grids : Nat} {exponent : Int} {decimal : Decimal}
    (found : search pattern grids exponent = some decimal) : decimal.pattern = pattern := by
  induction grids generalizing exponent with
  | zero => cases found
  | succ grids ih =>
      rw [search] at found
      split at found
      · next here =>
          cases found
          exact pattern_of_onGrid? here
      · exact ih found

theorem pattern_shortest (pattern : Nat) : (shortest pattern).pattern = pattern := by
  -- Whether the search ever comes to nothing need not be known: the exact value rounds back too.
  rw [shortest]
  cases found : search pattern 20 (ceiling pattern) with
  | none => exact pattern_exact pattern
  | some decimal => exact pattern_of_search found

/-- The digits of a magnitude read as a decimal that rounds to it. -/
theorem pattern_ofNumeral_shortest (pattern : Nat) :
    (ofNumeral (if pattern = 0 then [48] else (shortest pattern).plain)).pattern = pattern := by
  split
  · next zero =>
      have digit : ∀ byte ∈ [48], Text.isDigit byte = true := by simp [Text.isDigit]
      rw [zero, ofNumeral_whole digit]
      simp [Decimal.pattern, Number.nearest, Number.roundDiv, Text.value]
  · exact (pattern_ofNumeral_plain _).trans (pattern_shortest _)

end Decimal

/-! ## Numbers -/

namespace Number

theorem isNegative_of_ofMagnitude? {pattern : Nat} {number : Float}
    (given : ofMagnitude? pattern = some number) : isNegative number = false := by
  unfold ofMagnitude? at given
  split at given
  · next finite =>
      have bound : infinite < 2 ^ 63 := by decide
      have bits : pattern.toUInt64.toNat = pattern := Nat.mod_eq_of_lt (by omega)
      cases given
      rw [isNegative, toBits_ofBits (by rwa [bits]), bits, decide_eq_false_iff_not, Nat.pow_eq]
      omega
  · cases given

theorem ofMagnitude?_magnitude {number : Float} (finite : magnitude number < infinite)
    (unsigned : isNegative number = false) : ofMagnitude? (magnitude number) = some number := by
  have small : number.toBits.toNat < Nat.pow 2 63 := by
    simpa only [isNegative, decide_eq_false_iff_not, Nat.not_le] using unsigned
  have bits : magnitude number = number.toBits.toNat := Nat.mod_eq_of_lt small
  rw [ofMagnitude?, if_pos finite, bits]
  simp

/-- A finite number without a sign is read back from its text. -/
theorem toFloat?_display {number : Float} (finite : magnitude number < infinite)
    (unsigned : isNegative number = false) :
    (Decimal.ofNumeral (display number)).toFloat? = some number := by
  have rounded : (Decimal.ofNumeral (display number)).pattern = magnitude number := by
    simp only [display, write, isNaN_eq_false finite, unsigned, Bool.false_eq_true, if_false,
      Nat.ne_of_lt finite]
    exact Decimal.pattern_ofNumeral_shortest (magnitude number)
  rw [Decimal.toFloat?, rounded, ofMagnitude?_magnitude finite unsigned]

end Number

end Loxley
