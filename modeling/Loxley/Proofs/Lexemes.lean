import Loxley.Proofs.Number.Finite
import Loxley.Proofs.Words

/-!
# What reading makes of lexemes

Only strings have arbitrary bytes. No other lexeme has a zero byte, and every numeral that is read
stands for a finite number.
-/

set_option autoImplicit false

namespace Loxley

theorem Symbol.spelling_of_ofText? {text : Text} {symbol : Symbol}
    (found : Symbol.ofText? text = some symbol) : symbol.spelling = text := by
  have spelled := List.find?_some found
  exact eq_of_beq spelled

theorem Symbol.zero_not_mem_spelling (symbol : Symbol) : 0 ∉ symbol.spelling := by
  cases symbol <;> decide

namespace Segment

variable {first : UInt8} {rest : Text} {kind : TokenKind} {bytes : Text}

theorem zero_not_mem_of_all {keep : UInt8 → Bool} (excluded : keep 0 = false)
    (each : ∀ byte ∈ bytes, keep byte = true) : 0 ∉ bytes := by
  intro zero
  rw [each 0 zero] at excluded
  cases excluded

theorem zero_not_mem_cutNumeral (text : Text) : 0 ∉ (cutNumeral text).1 := by
  have digits : ∀ text : Text, 0 ∉ text.takeWhile Text.isDigit := fun text =>
    zero_not_mem_of_all (by decide) fun _ => List.mem_takeWhile_imp
  unfold cutNumeral
  split
  · split
    · next isPoint =>
        have isPoint := eq_of_beq (Bool.and_eq_true_iff.mp isPoint).1
        rw [List.mem_append, List.mem_cons, isPoint]
        intro member
        rcases member with whole | zero | fraction
        · exact digits _ whole
        · cases zero
        · exact digits _ fraction
    · exact digits _
  · exact digits _

theorem spelling_of_ofByte (same : ofByte first = .lexeme kind bytes) :
    ∃ symbol : Symbol, symbol.spelling = bytes := by
  unfold ofByte at same
  split at same
  · next symbol found =>
      cases same
      exact ⟨symbol, Symbol.spelling_of_ofText? found⟩
  · cases same

theorem spelling_of_cutSymbol (same : (cutSymbol first rest).1 = .lexeme kind bytes) :
    ∃ symbol : Symbol, symbol.spelling = bytes := by
  cases rest with
  | nil =>
      rw [cutSymbol_nil] at same
      exact spelling_of_ofByte same
  | cons second after =>
      rw [cutSymbol_cons] at same
      split at same
      · next symbol found =>
          cases same
          exact ⟨symbol, Symbol.spelling_of_ofText? found⟩
      · exact spelling_of_ofByte same

theorem zero_not_mem_cut (same : (cut first rest).1 = .lexeme kind bytes)
    (notString : kind ≠ .string) : 0 ∉ bytes := by
  unfold cut at same
  split at same
  · cases same
  · split at same
    · cases same
    · split at same
      · exact absurd (kind_cutString same) notString
      · split at same
        · cases same
          exact zero_not_mem_cutNumeral _
        · split at same
          · next isLetter =>
              cases same
              refine zero_not_mem_of_all (by decide : isWordByte 0 = false) fun byte member => ?_
              rcases List.mem_cons.mp member with rfl | later
              · simp [isWordByte, isLetter]
              · exact List.mem_takeWhile_imp later
          · obtain ⟨symbol, rfl⟩ := spelling_of_cutSymbol same
            exact symbol.zero_not_mem_spelling

theorem zero_not_mem_lexeme {text : Text} (member : .lexeme kind bytes ∈ ofText text)
    (notString : kind ≠ .string) : 0 ∉ bytes := by
  fun_induction ofText text with
  | case1 => cases member
  | case2 first rest ih =>
      rcases List.mem_cons.mp member with here | later
      · exact zero_not_mem_cut here.symm notString
      · exact ih later

end Segment

/-- A number is finite. -/
def Literal.Finite : Literal → Prop
  | .number value => Number.magnitude value < Number.infinite
  | _ => True

theorem Segment.finite_of_literal? {kind : TokenKind} {bytes : Text} {literal : Literal}
    (read : Segment.literal? kind bytes = some literal) : literal.Finite := by
  unfold Segment.literal? at read
  split at read
  · obtain ⟨value, given, rfl⟩ := Option.map_eq_some_iff.mp read
    obtain ⟨same, finite⟩ := Number.magnitude_of_ofMagnitude? given
    rw [← same] at finite
    exact finite
  · cases read
    trivial
  · cases read
    trivial

/-- What is known of a token that has been read. -/
structure Token.Lexed (token : Token) : Prop where
  zeroFree : token.kind ≠ .string → 0 ∉ token.lexeme
  finite : token.literal.Finite

theorem Scan.lexed_of_mem {line : Nat} {segments : List Segment}
    (lexemes : ∀ kind bytes, .lexeme kind bytes ∈ segments → kind ≠ .string → 0 ∉ bytes)
    {token : Token} (member : token ∈ (ofSegments line segments).tokens) : token.Lexed := by
  induction segments generalizing line with
  | nil =>
      rw [List.mem_singleton.mp member]
      exact ⟨fun _ => List.not_mem_nil, trivial⟩
  | cons segment rest ih =>
      have tail := fun line => @ih line fun kind bytes later =>
        lexemes kind bytes (List.mem_cons_of_mem _ later)
      cases segment with
      | blank bytes | comment bytes | stray byte | unclosed bytes => exact tail _ member
      | lexeme kind bytes =>
          simp only [ofSegments] at member
          cases read : Segment.literal? kind bytes with
          | none => simp [read] at member
          | some literal =>
              simp only [read, withToken] at member
              rcases List.mem_cons.mp member with rfl | later
              · exact ⟨lexemes kind bytes List.mem_cons_self, Segment.finite_of_literal? read⟩
              · exact tail _ later

theorem Source.Words.lexed {source : Text} {words : List Token} (isSource : Words source words) :
    ∀ word ∈ words, word.Lexed := by
  intro word member
  obtain ⟨finish, _, scanned⟩ := isSource.scanned
  have read : word ∈ (Scan.ofSource source).tokens := by
    rw [scanned]
    exact List.mem_append_left _ member
  exact Scan.lexed_of_mem (fun _ _ => Segment.zero_not_mem_lexeme) read

end Loxley
