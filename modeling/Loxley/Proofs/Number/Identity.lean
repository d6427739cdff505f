import Loxley.Proofs.Datum.Nesting
import Loxley.Proofs.Number.Shortest
import Loxley.Proofs.Relexing
import Loxley.Value

/-!
# Numbers and their texts

A number is known by its text: two numbers are the same exactly if they are shown alike, and the
text of a finite number without a sign is a source of one word that stands for it, bit for bit.
-/

set_option autoImplicit false

namespace Loxley.Number

/-! ## The text of a magnitude -/

/-- The text of a number without its sign. -/
def sizeText (pattern : Nat) : Text :=
  if pattern = infinite then "Infinity"
  else if pattern = 0 then [48]
  else (Decimal.shortest pattern).plain

theorem display_of_isNaN {number : Float} (isNaN : number.isNaN = true) :
    display number = "NaN" := by
  rw [display, write, if_pos isNaN]

theorem display_eq {number : Float} (notNaN : number.isNaN = false) :
    display number =
      if isNegative number then 45 :: sizeText (magnitude number)
      else sizeText (magnitude number) := by
  have signed : ("-Infinity" : Text) = 45 :: ("Infinity" : Text) := by decide
  rw [display, write, notNaN]
  by_cases isInfinite : magnitude number = infinite
  · simp [sizeText, isInfinite, plainFormat, signed]
  · simp [sizeText, isInfinite, plainFormat]

theorem digits_sizeText {pattern : Nat} (finite : pattern ≠ infinite) :
    Datum.Digits (sizeText pattern) := by
  rw [sizeText, if_neg finite]
  split
  · exact .whole (by simp) (by simp [Text.isDigit])
  · exact Decimal.digits_plain _

theorem finite_ne_cons {pattern : Nat} (finite : pattern ≠ infinite) {byte : UInt8}
    (notDigit : Text.isDigit byte = false) (rest : Text) : sizeText pattern ≠ byte :: rest := by
  intro same
  have digits := digits_sizeText finite
  rw [same] at digits
  rw [digits.starts] at notDigit
  cases notDigit

theorem sizeText_ne_cons (pattern : Nat) {byte : UInt8} (notDigit : Text.isDigit byte = false)
    (notLetter : byte ≠ 73) (rest : Text) : sizeText pattern ≠ byte :: rest := by
  by_cases isInfinite : pattern = infinite
  · intro same
    rw [sizeText, if_pos isInfinite] at same
    injection same with letter
    exact notLetter letter.symm
  · exact finite_ne_cons isInfinite notDigit rest

theorem sizeText_injective : Function.Injective sizeText := by
  have infinity : sizeText infinite = 73 :: ("nfinity" : Text) := by
    rw [sizeText, if_pos rfl]
    decide
  have notDigit : Text.isDigit 73 = false := by decide
  intro pattern other same
  by_cases isInfinite : pattern = infinite
  · by_cases isInfiniteToo : other = infinite
    · rw [isInfinite, isInfiniteToo]
    · rw [isInfinite, infinity] at same
      exact absurd same.symm (finite_ne_cons isInfiniteToo notDigit _)
  · by_cases isInfiniteToo : other = infinite
    · rw [isInfiniteToo, infinity] at same
      exact absurd same (finite_ne_cons isInfinite notDigit _)
    · -- Digits give back the magnitude that they were found for.
      have reads := Decimal.pattern_ofNumeral_shortest pattern
      rw [sizeText, if_neg isInfinite, sizeText, if_neg isInfiniteToo] at same
      rw [same, Decimal.pattern_ofNumeral_shortest] at reads
      exact reads.symm

/-! ## Equal texts -/

theorem toBits_eq_of_magnitude {number other : Float}
    (sameSign : isNegative number = isNegative other)
    (sameSize : magnitude number = magnitude other) : number.toBits = other.toBits := by
  have bound := number.toBits.toNat_lt
  have boundToo := other.toBits.toNat_lt
  simp only [isNegative, decide_eq_decide, magnitude, Nat.pow_eq] at sameSign sameSize
  exact UInt64.toNat_inj.mp (by omega)

theorem display_ne_nan {number : Float} (notNaN : number.isNaN = false) :
    display number ≠ "NaN" := by
  intro same
  rw [display_eq notNaN] at same
  split at same
  · cases same
  · exact sizeText_ne_cons _ (by decide) (by decide) _ same

theorem toBits_eq_of_display {number other : Float} (notNaN : number.isNaN = false)
    (notNaNToo : other.isNaN = false) (same : display number = display other) :
    number.toBits = other.toBits := by
  -- No magnitude starts with a sign, so a sign is shown if and only if there is one.
  have unsigned : ∀ pattern rest, sizeText pattern ≠ 45 :: rest := fun pattern =>
    sizeText_ne_cons pattern (by decide) (by decide)
  rw [display_eq notNaN, display_eq notNaNToo] at same
  by_cases negative : isNegative number = true
  · by_cases negativeToo : isNegative other = true
    · rw [if_pos negative, if_pos negativeToo] at same
      exact toBits_eq_of_magnitude (negative.trans negativeToo.symm)
        (sizeText_injective (List.cons.inj same).2)
    · rw [if_pos negative, if_neg negativeToo] at same
      exact absurd same.symm (unsigned _ _)
  · by_cases negativeToo : isNegative other = true
    · rw [if_neg negative, if_pos negativeToo] at same
      exact absurd same (unsigned _ _)
    · rw [if_neg negative, if_neg negativeToo] at same
      rw [Bool.not_eq_true] at negative negativeToo
      exact toBits_eq_of_magnitude (negative.trans negativeToo.symm) (sizeText_injective same)

theorem sameNumber_iff {number other : Float} :
    Value.sameNumber number other = true ↔
      number.isNaN = true ∧ other.isNaN = true ∨
        number.isNaN = false ∧ other.isNaN = false ∧ number.toBits = other.toBits := by
  simp only [Value.sameNumber, Bool.or_eq_true, Bool.and_eq_true, Bool.not_eq_true', beq_iff_eq,
    and_assoc]

/-- Numbers are the same if they are shown alike. -/
theorem sameNumber_iff_display {number other : Float} :
    Value.sameNumber number other = true ↔ display number = display other := by
  rw [sameNumber_iff]
  constructor
  · rintro (⟨isNaN, isNaNToo⟩ | ⟨_, _, same⟩)
    · rw [display_of_isNaN isNaN, display_of_isNaN isNaNToo]
    · rw [Float.toBits_inj.mp same]
  · intro same
    cases isNaN : number.isNaN with
    | true =>
        cases isNaNToo : other.isNaN with
        | true => exact .inl ⟨rfl, rfl⟩
        | false =>
            rw [display_of_isNaN isNaN] at same
            exact absurd same.symm (display_ne_nan isNaNToo)
    | false =>
        cases isNaNToo : other.isNaN with
        | true =>
            rw [display_of_isNaN isNaNToo] at same
            exact absurd same (display_ne_nan isNaN)
        | false => exact .inr ⟨rfl, rfl, toBits_eq_of_display isNaN isNaNToo same⟩

theorem isNaN_ofBits_iff {bits : UInt64} :
    (Float.ofBits bits).isNaN = true ↔ infinite < bits.toNat % Nat.pow 2 63 := by
  rw [isNaN_iff, magnitude, toBits_ofBits_eq]
  split
  · next isNaN => exact iff_of_true (by decide) isNaN
  · rfl

/-- Bits stand for the same number if they are equal or both of them are bits of NaN. -/
theorem sameNumber_ofBits_iff {left right : UInt64} :
    Value.sameNumber (Float.ofBits left) (Float.ofBits right) = true ↔
      left = right ∨
        infinite < left.toNat % Nat.pow 2 63 ∧ infinite < right.toNat % Nat.pow 2 63 := by
  rw [sameNumber_iff]
  simp only [← Bool.not_eq_true, isNaN_ofBits_iff, toBits_ofBits_eq]
  constructor
  · rintro (both | ⟨notNaN, notNaNToo, same⟩)
    · exact .inr both
    · rw [if_neg notNaN, if_neg notNaNToo] at same
      exact .inl same
  · rintro (rfl | both)
    · by_cases isNaN : infinite < left.toNat % Nat.pow 2 63
      · exact .inl ⟨isNaN, isNaN⟩
      · exact .inr ⟨isNaN, isNaN, rfl⟩
    · exact .inl both

/-! ## Reading texts back -/

theorem ofSource_display {number : Float} (finite : magnitude number < infinite)
    (unsigned : isNegative number = false) :
    Scan.ofSource (display number) =
      { tokens := [{ kind := .number, lexeme := display number,
                     literal := .number number, line := 1 },
          { kind := .endOfFile, lexeme := [], line := 1 }]
        diagnostics := []
        overflow := none } := by
  have digits : Datum.Digits (display number) := by
    rw [display_eq (isNaN_eq_false finite), unsigned, if_neg Bool.false_ne_true]
    exact digits_sizeText (Nat.ne_of_lt finite)
  have inRange := toFloat?_display finite unsigned
  have spelled : Token.Spelled
      { kind := .number, lexeme := display number, literal := .number number, line := 1 } := by
    generalize display number = text at digits inRange
    cases digits with
    | whole nonempty each => exact .integer nonempty each inRange
    | fraction nonempty each more others => exact .decimal nonempty each more others inRange
  have oneLine : (display number).newlines = 0 := List.count_eq_zero.mpr digits.newline_not_mem
  have read := @Scan.ofSegments_word _ [] spelled (by simp) 1
  rw [List.append_nil, oneLine] at read
  rw [Scan.ofSource, read]
  simp [Segment.ofText, Scan.ofSegments, Scan.withToken]

/--
Over all bits, those of every NaN included: the bits of a finite number without a sign are given
back by reading its text, which is one word and nothing else. Numbers are equal exactly if their
texts are, and that is so for equal bits and for any two NaNs.
-/
theorem display_tells_numbers :
    (∀ bits : UInt64, bits.toNat < infinite →
      (Float.ofBits bits).toBits = bits ∧
      Scan.ofSource (display (Float.ofBits bits)) =
        { tokens := [{ kind := .number, lexeme := display (Float.ofBits bits),
                       literal := .number (Float.ofBits bits), line := 1 },
            { kind := .endOfFile, lexeme := [], line := 1 }]
          diagnostics := []
          overflow := none }) ∧
    ∀ left right : UInt64,
      (Value.same (.number (Float.ofBits left)) (.number (Float.ofBits right)) = true ↔
        display (Float.ofBits left) = display (Float.ofBits right)) ∧
      (Value.same (.number (Float.ofBits left)) (.number (Float.ofBits right)) = true ↔
        left = right ∨
          infinite < left.toNat % Nat.pow 2 63 ∧ infinite < right.toNat % Nat.pow 2 63) := by
  refine ⟨fun bits finite => ?_, fun left right => ?_⟩
  · have same := toBits_ofBits finite
    have small : bits.toNat < Nat.pow 2 63 := Nat.lt_trans finite (by decide)
    refine ⟨same, ofSource_display ?_ ?_⟩
    · rwa [magnitude, same, Nat.mod_eq_of_lt small]
    · rw [isNegative, same, decide_eq_false_iff_not]
      exact Nat.not_le_of_lt small
  · exact ⟨sameNumber_iff_display, sameNumber_ofBits_iff⟩

/-- The least positive number is read back, zeros are shown apart by their sign, and NaNs alike. -/
theorem extremes_told :
    (1 : UInt64).toNat < infinite ∧
    (∃ word finish, Scan.ofSource (display (Float.ofBits 1)) =
        { tokens := [word, finish], diagnostics := [] } ∧
      word.literal = .number (Float.ofBits 1) ∧ (Float.ofBits 1).toBits = 1) ∧
    display (Float.ofBits 0) ≠ display (Float.ofBits 0x8000000000000000) ∧
    display (Float.ofBits 0x7FF0000000000001) = display (Float.ofBits 0xFFF8000000000000) := by
  obtain ⟨readsBack, alike⟩ := display_tells_numbers
  have small : (1 : UInt64).toNat < infinite := by decide
  obtain ⟨bits, read⟩ := readsBack 1 small
  refine ⟨small, ⟨_, _, read, rfl, bits⟩, ?_, ?_⟩
  · rw [Ne, ← (alike _ _).1, (alike _ _).2]
    decide
  · rw [← (alike _ _).1, (alike _ _).2]
    decide

end Loxley.Number
