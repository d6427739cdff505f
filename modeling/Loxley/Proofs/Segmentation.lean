import Loxley.Proofs.Lexemes

/-!
# The segments of a text

Every text splits in exactly one way into blanks, comments, lexemes, stray bytes and at most one open
string at its end, if each of them is taken as long as possible. What may follow a segment is part of
the condition on it, so the split is described without saying how it is found.
-/

set_option autoImplicit false

namespace Loxley

/-- The byte that makes comparisons of the symbols before it. -/
def Segment.equalSign : UInt8 := 61

namespace Symbol

/-- The symbol that an equal sign makes of another one. -/
def withEqual? : Symbol → Option Symbol
  | bang => some bangEqual
  | equal => some equalEqual
  | less => some lessEqual
  | greater => some greaterEqual
  | _ => none

theorem ofText?_spelling (symbol : Symbol) : ofText? symbol.spelling = some symbol := by
  cases symbol <;> decide

theorem spelling_of_withEqual? {single double : Symbol}
    (extends_ : single.withEqual? = some double) :
    ∃ first, single.spelling = [first] ∧ double.spelling = [first, Segment.equalSign] := by
  cases single with
  | bang | equal | less | greater =>
      cases extends_
      exact ⟨_, rfl, rfl⟩
  | minus | plus | slash | star | equalEqual | bangEqual | lessEqual | greaterEqual | comma | dot
  | semicolon | leftParen | rightParen | leftBrace | rightBrace => cases extends_

/-- A symbol of two bytes is another one with an equal sign. -/
theorem exists_withEqual? {symbol : Symbol} {first second : UInt8}
    (spelled : symbol.spelling = [first, second]) :
    ∃ single : Symbol, single.withEqual? = some symbol := by
  cases symbol with
  | equalEqual => exact ⟨.equal, rfl⟩
  | bangEqual => exact ⟨.bang, rfl⟩
  | lessEqual => exact ⟨.less, rfl⟩
  | greaterEqual => exact ⟨.greater, rfl⟩
  | minus | plus | slash | star | bang | equal | less | greater | comma | dot | semicolon
  | leftParen | rightParen | leftBrace | rightBrace => cases spelled

theorem spelling_cases (symbol : Symbol) :
    (∃ first, symbol.spelling = [first]) ∨
      ∃ first second, symbol.spelling = [first, second] ∧ symbol.withEqual? = none := by
  cases symbol with
  | equalEqual | bangEqual | lessEqual | greaterEqual => exact .inr ⟨_, _, rfl, rfl⟩
  | minus | plus | slash | star | bang | equal | less | greater | comma | dot | semicolon
  | leftParen | rightParen | leftBrace | rightBrace => exact .inl ⟨_, rfl⟩

theorem eq_of_spelling_eq {first second : Symbol} (same : first.spelling = second.spelling) :
    first = second := by
  have found := first.ofText?_spelling
  rw [same, second.ofText?_spelling] at found
  exact (Option.some.inj found).symm

/-- After a symbol of one byte, only an equal sign can make another symbol. -/
theorem ofText?_pair {single : Symbol} {first : UInt8} (spelled : single.spelling = [first])
    (second : UInt8) :
    ofText? [first, second] = if second = Segment.equalSign then single.withEqual? else none := by
  cases pair : ofText? [first, second] with
  | some double =>
      obtain ⟨other, extends_⟩ := exists_withEqual? (spelling_of_ofText? pair)
      obtain ⟨byte, otherSpelled, doubleSpelled⟩ := spelling_of_withEqual? extends_
      rw [spelling_of_ofText? pair] at doubleSpelled
      cases doubleSpelled
      rw [if_pos rfl, ← eq_of_spelling_eq (otherSpelled.trans spelled.symm), extends_]
  | none =>
      split
      · next isEqual =>
          cases extends_ : single.withEqual? with
          | none => rfl
          | some double =>
              obtain ⟨byte, singleSpelled, doubleSpelled⟩ := spelling_of_withEqual? extends_
              rw [spelled] at singleSpelled
              cases singleSpelled
              rw [isEqual, ← doubleSpelled, double.ofText?_spelling] at pair
              cases pair
      · rfl

/-- A byte that is no symbol starts none. -/
theorem head?_spelling_of_ofText? {first : UInt8} (none : ofText? [first] = none)
    (symbol : Symbol) : symbol.spelling.head? ≠ some first := by
  have alone : ∀ symbol : Symbol, symbol.spelling ≠ [first] := by
    intro symbol spelled
    rw [← spelled, symbol.ofText?_spelling] at none
    cases none
  intro starts
  rcases symbol.spelling_cases with ⟨byte, spelled⟩ | ⟨byte, second, spelled, _⟩
  · rw [spelled] at starts
    cases starts
    exact alone symbol spelled
  · obtain ⟨single, extends_⟩ := exists_withEqual? spelled
    obtain ⟨first, singleSpelled, doubleSpelled⟩ := spelling_of_withEqual? extends_
    rw [doubleSpelled] at starts
    cases starts
    exact alone single singleSpelled

/-- The first byte of a symbol is none of those with which other segments start. -/
theorem head_spelling (symbol : Symbol) {first : UInt8}
    (starts : symbol.spelling.head? = some first) :
    Segment.isBlank first = false ∧ first ≠ Segment.quote ∧ Text.isDigit first = false ∧
      Text.isLetter first = false ∧ (first = Segment.slash → symbol = .slash) := by
  cases symbol <;> cases starts <;> decide

end Symbol

namespace Keyword

theorem ofText?_spelling (keyword : Keyword) : ofText? keyword.spelling = some keyword := by
  cases keyword <;> decide

theorem spelling_of_ofText? {text : Text} {keyword : Keyword}
    (found : ofText? text = some keyword) : keyword.spelling = text := by
  have spelled := List.find?_some found
  exact eq_of_beq spelled

theorem ofText?_eq_none_iff {text : Text} :
    ofText? text = none ↔ ∀ keyword : Keyword, keyword.spelling ≠ text := by
  constructor
  · intro none keyword same
    rw [← same, ofText?_spelling] at none
    cases none
  · intro others
    cases found : ofText? text with
    | none => rfl
    | some keyword => exact absurd (spelling_of_ofText? found) (others keyword)

/-- Keywords are words: letters only. -/
theorem isLetter_spelling (keyword : Keyword) :
    keyword.spelling ≠ [] ∧ ∀ byte ∈ keyword.spelling, Text.isLetter byte = true := by
  have checked : (!keyword.spelling.isEmpty && keyword.spelling.all Text.isLetter) = true := by
    cases keyword <;> rfl
  simpa using checked

end Keyword

namespace Segment

/-- A segment as it stands before the rest of a text, which could not have made it any longer. -/
inductive Stands : Segment → Text → Prop
  | blank {bytes after : Text} (nonempty : bytes ≠ [])
      (blanks : ∀ byte ∈ bytes, isBlank byte = true)
      (ends : ∀ byte ∈ after.head?, isBlank byte = false) : Stands (.blank bytes) after
  | comment {body after : Text} (oneLine : Text.newline ∉ body)
      (ends : ∀ byte ∈ after.head?, byte = Text.newline) :
      Stands (.comment (slash :: slash :: body)) after
  /-- Symbols that an equal sign extends take it. Two slashes are no symbols. -/
  | symbol {symbol : Symbol} {after : Text}
      (ends : symbol.withEqual? ≠ none → after.head? ≠ some equalSign)
      (noComment : symbol = .slash → after.head? ≠ some slash) :
      Stands (.lexeme (.symbol symbol) symbol.spelling) after
  | string {content after : Text} (closed : quote ∉ content) :
      Stands (.lexeme .string (quote :: content ++ [quote])) after
  | integer {digits after : Text} (nonempty : digits ≠ [])
      (each : ∀ byte ∈ digits, Text.isDigit byte = true)
      (ends : ∀ byte ∈ after.head?, Text.isDigit byte = false)
      (noFraction : ∀ digit rest, after = point :: digit :: rest → Text.isDigit digit = false) :
      Stands (.lexeme .number digits) after
  | decimal {whole fraction after : Text} (nonempty : whole ≠ [])
      (each : ∀ byte ∈ whole, Text.isDigit byte = true) (some : fraction ≠ [])
      (others : ∀ byte ∈ fraction, Text.isDigit byte = true)
      (ends : ∀ byte ∈ after.head?, Text.isDigit byte = false) :
      Stands (.lexeme .number (whole ++ point :: fraction)) after
  | keyword {keyword : Keyword} {after : Text}
      (ends : ∀ byte ∈ after.head?, isWordByte byte = false) :
      Stands (.lexeme (.keyword keyword) keyword.spelling) after
  | identifier {first : UInt8} {others after : Text} (letter : Text.isLetter first = true)
      (each : ∀ byte ∈ others, isWordByte byte = true)
      (ends : ∀ byte ∈ after.head?, isWordByte byte = false)
      (free : ∀ keyword : Keyword, keyword.spelling ≠ first :: others) :
      Stands (.lexeme .identifier (first :: others)) after
  | stray {byte : UInt8} {after : Text} (notBlank : isBlank byte = false)
      (notQuote : byte ≠ quote) (notDigit : Text.isDigit byte = false)
      (notLetter : Text.isLetter byte = false)
      (notSymbol : ∀ symbol : Symbol, symbol.spelling.head? ≠ some byte) :
      Stands (.stray byte) after
  /-- A string that is never closed takes the rest of the text. -/
  | unclosed {content : Text} (unclosed : quote ∉ content) :
      Stands (.unclosed (quote :: content)) []

/-- A text cut into consecutive segments. -/
inductive Splits : Text → List Segment → Prop
  | nil : Splits [] []
  | cons {segment : Segment} {after : Text} {segments : List Segment}
      (stands : segment.Stands after) (rest : Splits after segments) :
      Splits (segment.bytes ++ after) (segment :: segments)

/-! ## The split that reading finds -/

section Cutting

variable {first : UInt8} {rest : Text}

theorem isWordByte_of_isLetter (letter : Text.isLetter first = true) :
    isWordByte first = true := by
  simp [isWordByte, letter]

theorem stands_cutNumeral (isDigit : Text.isDigit first = true) :
    (lexeme .number (cutNumeral (first :: rest)).1).Stands (cutNumeral (first :: rest)).2 := by
  have nonempty : (first :: rest).takeWhile Text.isDigit ≠ [] := by
    rw [List.takeWhile_cons_of_pos isDigit]
    exact List.cons_ne_nil _ _
  have ends : ∀ byte ∈ ((first :: rest).dropWhile Text.isDigit).head?, Text.isDigit byte = false :=
    Text.stops_dropWhile
  have digits : ∀ text : Text, ∀ byte ∈ text.takeWhile Text.isDigit, Text.isDigit byte = true :=
    fun _ _ => List.mem_takeWhile_imp
  unfold cutNumeral
  split
  · next dot digit after shape =>
      split
      · next isFraction =>
          obtain ⟨isPoint, isDigit⟩ := Bool.and_eq_true_iff.mp isFraction
          rw [eq_of_beq isPoint]
          refine .decimal nonempty (digits _) ?_ (digits _) Text.stops_dropWhile
          rw [List.takeWhile_cons_of_pos isDigit]
          exact List.cons_ne_nil _ _
      · next noFraction =>
          rw [shape] at ends
          refine .integer nonempty (digits _) ends fun follower after same => ?_
          cases same
          simpa using noFraction
  · next noFraction =>
      exact .integer nonempty (digits _) ends fun follower after same =>
        absurd same (noFraction _ _ _)

theorem stands_cutString (rest : Text) : (cutString rest).1.Stands (cutString rest).2 := by
  unfold cutString
  split
  · next open_ =>
      refine .unclosed fun member => ?_
      have same := List.dropWhile_eq_nil_iff.mp open_ quote member
      simp at same
  · next closing after shape =>
      have ends : ∀ byte ∈ (rest.dropWhile (· != quote)).head?, (byte != quote) = false :=
        Text.stops_dropWhile
      rw [shape] at ends
      have isQuote : closing = quote := by simpa using ends closing rfl
      rw [isQuote]
      refine .string fun member => ?_
      have different := List.mem_takeWhile_imp member
      simp at different

theorem stands_word (letter : Text.isLetter first = true) :
    (lexeme (wordKind (first :: rest.takeWhile isWordByte))
      (first :: rest.takeWhile isWordByte)).Stands (rest.dropWhile isWordByte) := by
  unfold wordKind
  split
  · next keyword found =>
      rw [← Keyword.spelling_of_ofText? found]
      exact .keyword Text.stops_dropWhile
  · next none =>
      exact .identifier letter (fun _ => List.mem_takeWhile_imp) Text.stops_dropWhile
        (Keyword.ofText?_eq_none_iff.mp none)

/-- A byte alone is a symbol, unless no symbol starts with it. -/
theorem stands_ofByte (notBlank : isBlank first = false) (notQuote : first ≠ quote)
    (notDigit : Text.isDigit first = false) (notLetter : Text.isLetter first = false)
    (single : ∀ second ∈ rest.head?, Symbol.ofText? [first, second] = none)
    (noComment : first = slash → rest.head? ≠ some slash) : (ofByte first).Stands rest := by
  unfold ofByte
  split
  · next symbol found =>
      have spelled := Symbol.spelling_of_ofText? found
      rw [← spelled]
      refine .symbol (fun extendable next => extendable ?_) fun isSlash => ?_
      · have pair := single _ next
        rwa [Symbol.ofText?_pair spelled, if_pos rfl] at pair
      · subst isSlash
        cases spelled
        exact noComment rfl
  · next none =>
      exact .stray notBlank notQuote notDigit notLetter (Symbol.head?_spelling_of_ofText? none)

theorem stands_cutSymbol (notBlank : isBlank first = false) (notQuote : first ≠ quote)
    (notDigit : Text.isDigit first = false) (notLetter : Text.isLetter first = false)
    (noComment : first = slash → rest.head? ≠ some slash) :
    (cutSymbol first rest).1.Stands (cutSymbol first rest).2 := by
  cases rest with
  | nil =>
      rw [cutSymbol_nil]
      exact stands_ofByte notBlank notQuote notDigit notLetter (by simp) noComment
  | cons second after =>
      rw [cutSymbol_cons]
      split
      · next symbol found =>
          have spelled := Symbol.spelling_of_ofText? found
          rcases symbol.spelling_cases with ⟨byte, short⟩ | ⟨_, _, _, complete⟩
          · rw [short] at spelled
            cases spelled
          · rw [← spelled]
            refine .symbol (fun extendable => ?_) fun isSlash => ?_
            · exact absurd complete extendable
            · subst isSlash
              cases spelled
      · next none =>
          refine stands_ofByte notBlank notQuote notDigit notLetter ?_ noComment
          intro byte member
          cases member
          exact none

/-- What reading cuts off stands before what it leaves. -/
theorem stands_cut (first : UInt8) (rest : Text) : (cut first rest).1.Stands (cut first rest).2 := by
  unfold cut
  split
  · next isBlank =>
      refine .blank (List.cons_ne_nil _ _) (fun byte member => ?_) Text.stops_dropWhile
      rcases List.mem_cons.mp member with rfl | later
      · exact isBlank
      · exact List.mem_takeWhile_imp later
  · next notBlank =>
      split
      · next opens =>
          obtain ⟨isSlash, follows⟩ := Bool.and_eq_true_iff.mp opens
          obtain ⟨more, rfl⟩ := List.head?_eq_some_iff.mp (eq_of_beq follows)
          rw [eq_of_beq isSlash, List.takeWhile_cons_of_pos (by decide),
            List.dropWhile_cons_of_pos (by decide)]
          refine .comment (fun member => ?_) fun byte member => ?_
          · have different := List.mem_takeWhile_imp member
            simp at different
          · simpa using Text.stops_dropWhile byte member
      · next noComment =>
          split
          · exact stands_cutString rest
          · next notQuote =>
              split
              · next isDigit => exact stands_cutNumeral isDigit
              · next notDigit =>
                  split
                  · next isLetter => exact stands_word isLetter
                  · next notLetter =>
                      refine stands_cutSymbol (Bool.eq_false_iff.mpr notBlank) (by simpa using notQuote)
                        (Bool.eq_false_iff.mpr notDigit) (Bool.eq_false_iff.mpr notLetter) ?_
                      intro isSlash follows
                      exact noComment (by simp [isSlash, follows])

end Cutting

theorem splits_ofText (text : Text) : Splits text (ofText text) := by
  fun_induction ofText text with
  | case1 => exact .nil
  | case2 first rest ih =>
      have whole := Splits.cons (stands_cut first rest) ih
      rwa [bytes_cut] at whole

/-! ## There is no other split -/

/-- What is cut off from a text that starts with a certain segment. -/
def CutsTo (text : Text) (segment : Segment) (after : Text) : Prop :=
  ∃ first rest, text = first :: rest ∧ cut first rest = (segment, after)

section Uniqueness

variable {first : UInt8} {bytes content digits whole fraction others body after : Text}

theorem cutsTo_blank (nonempty : bytes ≠ []) (blanks : ∀ byte ∈ bytes, isBlank byte = true)
    (ends : ∀ byte ∈ after.head?, isBlank byte = false) :
    CutsTo (bytes ++ after) (.blank bytes) after := by
  obtain ⟨first, others, rfl⟩ := List.exists_cons_of_ne_nil nonempty
  obtain ⟨isBlank, each⟩ := List.forall_mem_cons.mp blanks
  refine ⟨first, others ++ after, rfl, ?_⟩
  simp only [cut, isBlank, if_true, Text.takeWhile_append_of_stops each ends,
    Text.dropWhile_append_of_stops each ends]

theorem cutsTo_comment (oneLine : Text.newline ∉ body)
    (ends : ∀ byte ∈ after.head?, byte = Text.newline) :
    CutsTo (slash :: slash :: body ++ after) (.comment (slash :: slash :: body)) after := by
  refine ⟨slash, slash :: body ++ after, rfl, ?_⟩
  have each : ∀ byte ∈ slash :: body, (byte != Text.newline) = true := by
    intro byte member
    rcases List.mem_cons.mp member with rfl | later
    · decide
    · exact bne_iff_ne.mpr fun same => oneLine (same ▸ later)
  have stops : ∀ byte ∈ after.head?, (byte != Text.newline) = false := by
    intro byte member
    simp [ends byte member]
  have opens : isBlank slash = false := by decide
  rw [cut, opens, Text.takeWhile_append_of_stops each stops,
    Text.dropWhile_append_of_stops each stops]
  simp

theorem cutsTo_string (closed : quote ∉ content) :
    CutsTo (quote :: content ++ [quote] ++ after)
      (.lexeme .string (quote :: content ++ [quote])) after := by
  refine ⟨quote, content ++ quote :: after, by simp, ?_⟩
  have each : ∀ byte ∈ content, (byte != quote) = true := fun byte member =>
    bne_iff_ne.mpr fun same => closed (same ▸ member)
  have stops : ∀ byte ∈ (quote :: after).head?, (byte != quote) = false := by simp
  have opens : isBlank quote = false ∧ (quote == slash) = false := by decide
  simp [cut, opens, cutString, Text.takeWhile_append_of_stops each stops,
    Text.dropWhile_append_of_stops each stops]

theorem cutsTo_unclosed (unclosed : quote ∉ content) :
    CutsTo (quote :: content) (.unclosed (quote :: content)) [] := by
  refine ⟨quote, content, rfl, ?_⟩
  have each : content.dropWhile (· != quote) = [] :=
    List.dropWhile_eq_nil_iff.mpr fun byte member =>
      bne_iff_ne.mpr fun same => unclosed (same ▸ member)
  have opens : isBlank quote = false ∧ (quote == slash) = false := by decide
  simp [cut, opens, cutString, each]

theorem of_isDigit (isDigit : Text.isDigit first = true) :
    isBlank first = false ∧ (first == slash) = false ∧ (first == quote) = false := by
  revert first
  decide +kernel

theorem of_isLetter (isLetter : Text.isLetter first = true) :
    isBlank first = false ∧ (first == slash) = false ∧ (first == quote) = false ∧
      Text.isDigit first = false := by
  revert first
  decide +kernel

/-- Digits start no segment but a numeral. -/
theorem cut_of_isDigit {rest : Text} (isDigit : Text.isDigit first = true) :
    cut first rest =
      (.lexeme .number (cutNumeral (first :: rest)).1, (cutNumeral (first :: rest)).2) := by
  obtain ⟨notBlank, notSlash, notQuote⟩ := of_isDigit isDigit
  simp [cut, notBlank, notSlash, notQuote, isDigit]

theorem cutNumeral_integer (each : ∀ byte ∈ digits, Text.isDigit byte = true)
    (ends : ∀ byte ∈ after.head?, Text.isDigit byte = false)
    (noFraction : ∀ digit rest, after = point :: digit :: rest → Text.isDigit digit = false) :
    cutNumeral (digits ++ after) = (digits, after) := by
  unfold cutNumeral
  rw [Text.takeWhile_append_of_stops each ends, Text.dropWhile_append_of_stops each ends]
  split
  · next dot digit rest =>
      by_cases isPoint : dot = point
      · simp [isPoint, noFraction digit rest (by rw [isPoint])]
      · simp [isPoint]
  · rfl

theorem cutNumeral_decimal (each : ∀ byte ∈ whole, Text.isDigit byte = true)
    (some : fraction ≠ []) (others : ∀ byte ∈ fraction, Text.isDigit byte = true)
    (ends : ∀ byte ∈ after.head?, Text.isDigit byte = false) :
    cutNumeral (whole ++ point :: fraction ++ after) = (whole ++ point :: fraction, after) := by
  have stops : ∀ byte ∈ (point :: fraction ++ after).head?, Text.isDigit byte = false := by
    intro byte member
    cases member
    decide
  obtain ⟨digit, more, rfl⟩ := List.exists_cons_of_ne_nil some
  have isDigit := others digit List.mem_cons_self
  rw [List.append_assoc, cutNumeral, Text.takeWhile_append_of_stops each stops,
    Text.dropWhile_append_of_stops each stops]
  simp only [List.cons_append, beq_self_eq_true, isDigit, Bool.and_self, if_true]
  rw [← List.cons_append, Text.takeWhile_append_of_stops others ends,
    Text.dropWhile_append_of_stops others ends]

theorem cutsTo_number {numeral : Text} (nonempty : numeral ≠ [])
    (isDigit : ∀ byte ∈ numeral.head?, Text.isDigit byte = true)
    (cuts : cutNumeral (numeral ++ after) = (numeral, after)) :
    CutsTo (numeral ++ after) (.lexeme .number numeral) after := by
  obtain ⟨first, rest, rfl⟩ := List.exists_cons_of_ne_nil nonempty
  refine ⟨first, rest ++ after, rfl, ?_⟩
  rw [cut_of_isDigit (isDigit first rfl), ← List.cons_append, cuts]

/-- Letters start no segment but a word. -/
theorem cut_word (letter : Text.isLetter first = true)
    (each : ∀ byte ∈ others, isWordByte byte = true)
    (ends : ∀ byte ∈ after.head?, isWordByte byte = false) :
    cut first (others ++ after) = (.lexeme (wordKind (first :: others)) (first :: others), after) := by
  obtain ⟨notBlank, notSlash, notQuote, notDigit⟩ := of_isLetter letter
  simp [cut, notBlank, notSlash, notQuote, notDigit, letter, Text.takeWhile_append_of_stops each ends,
    Text.dropWhile_append_of_stops each ends]

theorem cutsTo_keyword {keyword : Keyword}
    (ends : ∀ byte ∈ after.head?, isWordByte byte = false) :
    CutsTo (keyword.spelling ++ after) (.lexeme (.keyword keyword) keyword.spelling) after := by
  obtain ⟨nonempty, letters⟩ := keyword.isLetter_spelling
  obtain ⟨first, others, spelled⟩ := List.exists_cons_of_ne_nil nonempty
  rw [spelled] at letters ⊢
  obtain ⟨letter, each⟩ := List.forall_mem_cons.mp letters
  refine ⟨first, others ++ after, rfl, ?_⟩
  have isKeyword : wordKind (first :: others) = .keyword keyword := by
    rw [wordKind, ← spelled, keyword.ofText?_spelling]
  rw [cut_word letter (fun byte member => isWordByte_of_isLetter (each byte member)) ends, isKeyword]

theorem cutsTo_identifier (letter : Text.isLetter first = true)
    (each : ∀ byte ∈ others, isWordByte byte = true)
    (ends : ∀ byte ∈ after.head?, isWordByte byte = false)
    (free : ∀ keyword : Keyword, keyword.spelling ≠ first :: others) :
    CutsTo (first :: others ++ after) (.lexeme .identifier (first :: others)) after := by
  refine ⟨first, others ++ after, rfl, ?_⟩
  have isName : wordKind (first :: others) = .identifier := by
    rw [wordKind, Keyword.ofText?_eq_none_iff.mpr free]
  rw [cut_word letter each ends, isName]

/-- Bytes that start no other segment may start a symbol. -/
theorem cut_eq_cutSymbol {rest : Text} (notBlank : isBlank first = false) (notQuote : first ≠ quote)
    (notDigit : Text.isDigit first = false) (notLetter : Text.isLetter first = false)
    (noComment : first = slash → rest.head? ≠ some slash) :
    cut first rest = cutSymbol first rest := by
  have noSlashes : (first == slash && rest.head? == some slash) = false := by
    rw [Bool.and_eq_false_iff]
    by_cases isSlash : first = slash
    · exact .inr (beq_eq_false_iff_ne.mpr (noComment isSlash))
    · exact .inl (beq_eq_false_iff_ne.mpr isSlash)
  simp [cut, notBlank, noSlashes, notQuote, notDigit, notLetter]

theorem cutsTo_symbol {symbol : Symbol}
    (ends : symbol.withEqual? ≠ none → after.head? ≠ some equalSign)
    (noComment : symbol = .slash → after.head? ≠ some slash) :
    CutsTo (symbol.spelling ++ after) (.lexeme (.symbol symbol) symbol.spelling) after := by
  have found := symbol.ofText?_spelling
  rcases symbol.spelling_cases with ⟨first, spelled⟩ | ⟨first, second, spelled, _⟩
  · have starts : symbol.spelling.head? = some first := by rw [spelled]; rfl
    rw [spelled] at found ⊢
    obtain ⟨notBlank, notQuote, notDigit, notLetter, onlySlash⟩ := symbol.head_spelling starts
    have single : ofByte first = .lexeme (.symbol symbol) [first] := by simp [ofByte, found]
    refine ⟨first, after, rfl, ?_⟩
    rw [cut_eq_cutSymbol notBlank notQuote notDigit notLetter fun isSlash =>
      noComment (onlySlash isSlash)]
    cases after with
    | nil => rw [cutSymbol_nil, single]
    | cons second after =>
        have none : Symbol.ofText? [first, second] = none := by
          rw [Symbol.ofText?_pair spelled]
          split
          · next isEqual =>
              by_contra extendable
              exact ends extendable (congrArg some isEqual)
          · rfl
        rw [cutSymbol_cons, none, single]
  · have starts : symbol.spelling.head? = some first := by rw [spelled]; rfl
    rw [spelled] at found ⊢
    obtain ⟨notBlank, notQuote, notDigit, notLetter, onlySlash⟩ := symbol.head_spelling starts
    have notSlash : first ≠ slash := by
      intro isSlash
      rw [onlySlash isSlash] at spelled
      cases spelled
    refine ⟨first, second :: after, rfl, ?_⟩
    rw [cut_eq_cutSymbol notBlank notQuote notDigit notLetter fun isSlash => absurd isSlash notSlash,
      cutSymbol_cons, found]

theorem cutsTo_stray {byte : UInt8} (notBlank : isBlank byte = false) (notQuote : byte ≠ quote)
    (notDigit : Text.isDigit byte = false) (notLetter : Text.isLetter byte = false)
    (notSymbol : ∀ symbol : Symbol, symbol.spelling.head? ≠ some byte) :
    CutsTo (byte :: after) (.stray byte) after := by
  have none : ∀ others : Text, Symbol.ofText? (byte :: others) = none := by
    intro others
    cases found : Symbol.ofText? (byte :: others) with
    | none => rfl
    | some symbol =>
        exact absurd (congrArg List.head? (Symbol.spelling_of_ofText? found)) (notSymbol symbol)
  refine ⟨byte, after, rfl, ?_⟩
  rw [cut_eq_cutSymbol notBlank notQuote notDigit notLetter fun isSlash =>
    absurd (congrArg some isSlash.symm) (notSymbol .slash)]
  cases after with
  | nil => simp [cutSymbol_nil, ofByte, none]
  | cons second after => simp [cutSymbol_cons, ofByte, none]

end Uniqueness

/-- A segment that stands before the rest of a text is the one that reading cuts off. -/
theorem Stands.cutsTo {segment : Segment} {after : Text} (stands : segment.Stands after) :
    CutsTo (segment.bytes ++ after) segment after := by
  cases stands with
  | blank nonempty blanks ends => exact cutsTo_blank nonempty blanks ends
  | comment oneLine ends => exact cutsTo_comment oneLine ends
  | symbol ends noComment => exact cutsTo_symbol ends noComment
  | string closed => exact cutsTo_string closed
  | integer nonempty each ends noFraction =>
      refine cutsTo_number nonempty (fun byte member => ?_) (cutNumeral_integer each ends noFraction)
      exact each byte (List.mem_of_mem_head? member)
  | decimal nonempty each some others ends =>
      refine cutsTo_number (List.append_ne_nil_of_left_ne_nil nonempty _) (fun byte member => ?_)
        (cutNumeral_decimal each some others ends)
      rw [bytes, List.head?_append_of_ne_nil _ nonempty] at member
      exact each byte (List.mem_of_mem_head? member)
  | keyword ends => exact cutsTo_keyword ends
  | identifier letter each ends free => exact cutsTo_identifier letter each ends free
  | stray notBlank notQuote notDigit notLetter notSymbol =>
      exact cutsTo_stray notBlank notQuote notDigit notLetter notSymbol
  | unclosed unclosed =>
      rw [List.append_nil]
      exact cutsTo_unclosed unclosed

/-- The segments that reading finds are the only ones into which a text splits. -/
theorem splits_iff {text : Text} {segments : List Segment} :
    Splits text segments ↔ segments = ofText text := by
  constructor
  · intro splits
    induction splits with
    | nil => rw [ofText]
    | @cons segment after segments stands rest ih =>
        obtain ⟨first, others, shape, cuts⟩ := stands.cutsTo
        rw [shape, ofText, cuts, ih]
  · rintro rfl
    exact splits_ofText text

theorem Splits.flatMap_bytes {text : Text} {segments : List Segment}
    (splits : Splits text segments) : segments.flatMap bytes = text := by
  induction splits with
  | nil => rfl
  | cons stands rest ih => rw [List.flatMap_cons, ih]

theorem Splits.stands_of_mem {text : Text} {segments : List Segment} {segment : Segment}
    (splits : Splits text segments) (member : segment ∈ segments) :
    ∃ after, segment.Stands after := by
  induction splits with
  | nil => cases member
  | cons stands rest ih =>
      rcases List.mem_cons.mp member with rfl | later
      · exact ⟨_, stands⟩
      · exact ih later

end Segment

end Loxley
