import Loxley.Proofs.Tokenizing

/-!
# Reading joined lines and printed words

A source can be read in pieces. Reading the lines of a text one after the other gives what reading
the whole text does, as long as no string is left open. The words of a source can also be printed
with spaces between them and read again: nothing but their lines can change.
-/

set_option autoImplicit false

namespace Loxley

/-! ## Joining lines -/

/-- Two texts joined by a newline read as the words of the first before those of the second, whose
lines are counted on. The diagnostics are joined in the same way. -/
theorem Scan.joined_lines_read_in_turn {first second : Text}
    (complete : (Scan.ofSource first).overflow = none)
    (completeSecond : (Scan.ofSource second).overflow = none)
    (closed : ∀ diagnostic ∈ (Scan.ofSource first).diagnostics,
      diagnostic.problem.message ≠ ("Unterminated string." : Text)) :
    ∃ words finish, (Scan.ofSource first).tokens = words ++ [finish] ∧
      finish.kind = .endOfFile ∧ (∀ word ∈ words, word.kind ≠ .endOfFile) ∧
      Scan.ofSource (first ++ Text.newline :: second) =
        { tokens := words ++ (Scan.ofSource second).tokens.map (Token.down (1 + first.newlines))
          diagnostics := (Scan.ofSource first).diagnostics ++
            (Scan.ofSource second).diagnostics.map (Diagnostic.down (1 + first.newlines))
          overflow := none } := by
  obtain ⟨words, finish, tokens, isEnd, inner⟩ :=
    terminated (fun _ _ => Segment.kind_ne_endOfFile) complete
  have noneOpen : ∀ bytes, .unclosed bytes ∉ Segment.ofText first := by
    intro bytes member
    obtain ⟨finish, reported⟩ := exists_unterminated complete member
    exact closed _ reported rfl
  have joined := ofSegments_join 1 complete noneOpen second
  rw [Nat.add_assoc, Nat.add_comm first.newlines, ofSegments_add] at joined
  refine ⟨words, finish, tokens, isEnd, inner, joined.trans ?_⟩
  rw [append, tokens, List.dropLast_concat]
  simp only [down, ofSource] at completeSecond ⊢
  rw [completeSecond]

/-- A line with a comment before it, a loose point, a zero byte and a slash at its end. -/
def rough : Text := "a // \"\n1.\x00/"

/-- A line that starts with a slash and ends inside a string. -/
def hanging : Text := "/ 2.5 \"b\nc"

theorem Scan.rough_hanging_read_in_turn :
    (Scan.ofSource rough).overflow = none ∧ (Scan.ofSource hanging).overflow = none ∧
    (Scan.ofSource rough).diagnostics = [.onLine 2 .unexpectedCharacter] ∧
    ∃ words finish, (Scan.ofSource rough).tokens = words ++ [finish] ∧
      (Scan.ofSource (rough ++ Text.newline :: hanging)).tokens =
        words ++ (Scan.ofSource hanging).tokens.map (Token.down 2) ∧
      (Scan.ofSource (rough ++ Text.newline :: hanging)).diagnostics =
        [.onLine 2 .unexpectedCharacter, .onLine 4 .unterminatedString] := by
  have complete : (Scan.ofSource rough).overflow = none := by decide +kernel
  have completeSecond : (Scan.ofSource hanging).overflow = none := by decide +kernel
  have reports : (Scan.ofSource rough).diagnostics = [.onLine 2 .unexpectedCharacter] := by
    decide +kernel
  have closed : ∀ diagnostic ∈ (Scan.ofSource rough).diagnostics,
      diagnostic.problem.message ≠ ("Unterminated string." : Text) := by
    rw [reports]
    decide
  obtain ⟨words, finish, tokens, _, _, joined⟩ :=
    Scan.joined_lines_read_in_turn complete completeSecond closed
  refine ⟨complete, completeSecond, reports, words, finish, tokens, ?_, ?_⟩
  · rw [joined]
    rfl
  · have second : (Scan.ofSource hanging).diagnostics = [.onLine 2 .unterminatedString] := by
      decide +kernel
    rw [joined, reports, second]
    rfl

/-! ## Words as they are spelled -/

/-- A token that is no end marker and has a lexeme and a literal of its kind. -/
inductive Token.Spelled : Token → Prop
  | symbol {symbol : Symbol} {line : Int} :
      Spelled { kind := .symbol symbol, lexeme := symbol.spelling, line }
  | keyword {keyword : Keyword} {line : Int} :
      Spelled { kind := .keyword keyword, lexeme := keyword.spelling, line }
  | identifier {first : UInt8} {others : Text} {line : Int} (letter : Text.isLetter first = true)
      (each : ∀ byte ∈ others, Segment.isWordByte byte = true)
      (free : ∀ keyword : Keyword, keyword.spelling ≠ first :: others) :
      Spelled { kind := .identifier, lexeme := first :: others, line }
  | string {content : Text} {line : Int} (closed : Segment.quote ∉ content) :
      Spelled { kind := .string, lexeme := Segment.quote :: content ++ [Segment.quote],
                literal := .string content, line }
  | integer {digits : Text} {value : Float} {line : Int} (nonempty : digits ≠ [])
      (each : ∀ byte ∈ digits, Text.isDigit byte = true)
      (inRange : (Decimal.ofNumeral digits).toFloat? = some value) :
      Spelled { kind := .number, lexeme := digits, literal := .number value, line }
  | decimal {whole fraction : Text} {value : Float} {line : Int} (nonempty : whole ≠ [])
      (each : ∀ byte ∈ whole, Text.isDigit byte = true) (someMore : fraction ≠ [])
      (others : ∀ byte ∈ fraction, Text.isDigit byte = true)
      (inRange : (Decimal.ofNumeral (whole ++ Segment.point :: fraction)).toFloat? = some value) :
      Spelled { kind := .number, lexeme := whole ++ Segment.point :: fraction,
                literal := .number value, line }

theorem Segment.not_isWordByte_of_isBlank {byte : UInt8} (blank : isBlank byte = true) :
    isWordByte byte = false := by
  have notLetter : Text.isLetter byte = false := by
    by_contra letter
    simp [(of_isLetter (eq_true_of_ne_false letter)).1] at blank
  have notDigit : Text.isDigit byte = false := by
    by_contra digit
    simp [(of_isDigit (eq_true_of_ne_false digit)).1] at blank
  rw [isWordByte, notLetter, notDigit, Bool.or_self]

namespace Token.Spelled

variable {token : Token}

theorem literal? (spelled : token.Spelled) :
    Segment.literal? token.kind token.lexeme = some token.literal := by
  cases spelled with
  | symbol | keyword | identifier => rfl
  | string closed => simp [Segment.literal?]
  | integer nonempty each inRange => simp [Segment.literal?, inRange]
  | decimal nonempty each someMore others inRange => simp [Segment.literal?, inRange]

theorem stands (spelled : token.Spelled) {after : Text}
    (ends : ∀ byte ∈ after.head?, Segment.isBlank byte = true) :
    (Segment.lexeme token.kind token.lexeme).Stands after := by
  have notWord : ∀ byte ∈ after.head?, Segment.isWordByte byte = false := fun byte member =>
    Segment.not_isWordByte_of_isBlank (ends byte member)
  have notDigit : ∀ byte ∈ after.head?, Text.isDigit byte = false := fun byte member =>
    (Bool.or_eq_false_iff.mp (notWord byte member)).2
  -- Neither an equal sign nor a second slash follows a symbol.
  have notBlank : ∀ byte, Segment.isBlank byte = false → after.head? ≠ some byte := by
    intro byte notBlank starts
    rw [ends byte starts] at notBlank
    cases notBlank
  cases spelled with
  | symbol => exact .symbol (fun _ => notBlank _ (by decide)) fun _ => notBlank _ (by decide)
  | keyword => exact .keyword notWord
  | identifier letter each free => exact .identifier letter each notWord free
  | string closed => exact .string closed
  | integer nonempty each inRange =>
      refine .integer nonempty each notDigit fun digit rest shape => ?_
      rw [shape] at ends
      exact absurd (ends _ rfl) (by decide)
  | decimal nonempty each someMore others inRange => exact .decimal nonempty each someMore others notDigit

end Token.Spelled

theorem Segment.Stands.spelled {kind : TokenKind} {bytes after : Text} {literal : Literal}
    (stands : (Segment.lexeme kind bytes).Stands after)
    (value : Segment.literal? kind bytes = some literal) (line : Int) :
    Token.Spelled { kind, lexeme := bytes, literal, line } := by
  cases stands with
  | symbol ends noComment =>
      cases value
      exact .symbol
  | keyword ends =>
      cases value
      exact .keyword
  | identifier letter each ends free =>
      cases value
      exact .identifier letter each free
  | string closed =>
      have content : literal = .string _ := (Option.some.inj value).symm
      simp only [List.cons_append, List.drop_succ_cons, List.drop_zero, List.dropLast_concat]
        at content
      rw [content]
      exact .string closed
  | integer nonempty each ends noFraction =>
      obtain ⟨number, inRange, rfl⟩ := Option.map_eq_some_iff.mp value
      exact .integer nonempty each inRange
  | decimal nonempty each someMore others ends =>
      obtain ⟨number, inRange, rfl⟩ := Option.map_eq_some_iff.mp value
      exact .decimal nonempty each someMore others inRange

/-- Whatever is read from a text, but for the end marker, is a word. -/
theorem Segment.Splits.spelled {text : Text} {segments : List Segment}
    (splits : Segment.Splits text segments) (line : Nat) :
    ∀ token ∈ (Scan.ofSegments line segments).tokens, token.kind ≠ .endOfFile → token.Spelled := by
  induction splits generalizing line with
  | nil =>
      intro token member notEnd
      rw [List.mem_singleton.mp member] at notEnd
      exact absurd rfl notEnd
  | @cons segment after segments stands rest ih =>
      cases segment with
      | blank bytes | comment bytes | stray byte | unclosed bytes => exact ih _
      | lexeme kind bytes =>
          intro token member notEnd
          simp only [Scan.ofSegments] at member
          cases value : Segment.literal? kind bytes with
          | none => simp [value] at member
          | some literal =>
              simp only [value, Scan.withToken] at member
              rcases List.mem_cons.mp member with rfl | later
              · exact stands.spelled value _
              · exact ih _ token later notEnd

/-! ## Printing words and reading them again -/

/-- The same word, perhaps on another line. -/
structure Token.SameWord (token other : Token) : Prop where
  kind : token.kind = other.kind
  lexeme : token.lexeme = other.lexeme
  literal : token.literal = other.literal

def Token.printed (words : List Token) : Text :=
  Text.join [32] (words.map (·.lexeme))

/-- Reading words that were printed finds nothing but these words and the end. -/
def Scan.Rereads (words : List Token) : Prop :=
  ∃ reread, Scan.ofSource (Token.printed words) =
      { tokens := reread ++
          [{ kind := .endOfFile, lexeme := [], line := 1 + (Token.printed words).newlines }]
        diagnostics := []
        overflow := none } ∧
    List.Forall₂ Token.SameWord words reread

namespace Scan

variable {word : Token} {words : List Token} {after : Text}

theorem ofSegments_word (spelled : word.Spelled)
    (ends : ∀ byte ∈ after.head?, Segment.isBlank byte = true) (line : Nat) :
    ofSegments line (Segment.ofText (word.lexeme ++ after)) =
      (ofSegments (line + word.lexeme.newlines) (Segment.ofText after)).withToken
        { word with line := (line + word.lexeme.newlines : Nat) } := by
  obtain ⟨first, rest, shape, cuts⟩ := (spelled.stands ends).cutsTo
  rw [Segment.bytes] at shape
  rw [shape, Segment.ofText, cuts]
  simp only [ofSegments, Segment.bytes, spelled.literal?]

/-- What follows the first of some printed words reads as the others do. -/
theorem exists_printed_cons (word : Token) (rest : List Token) :
    ∃ after, Token.printed (word :: rest) = word.lexeme ++ after ∧
      (∀ byte ∈ after.head?, Segment.isBlank byte = true) ∧
      after.newlines = (Token.printed rest).newlines ∧
      ∀ line, ofSegments line (Segment.ofText after) =
        ofSegments line (Segment.ofText (Token.printed rest)) := by
  cases rest with
  | nil => exact ⟨[], (List.append_nil _).symm, by simp, rfl, fun _ => rfl⟩
  | cons next others =>
      refine ⟨32 :: Token.printed (next :: others), List.append_assoc .., ?_,
        List.count_cons_of_ne (by decide), fun line => ofSegments_space line _⟩
      intro byte member
      cases member
      decide

theorem ofSegments_printed (spelled : ∀ word ∈ words, word.Spelled) (line : Nat) :
    ∃ reread, ofSegments line (Segment.ofText (Token.printed words)) =
        { tokens := reread ++
            [{ kind := .endOfFile, lexeme := [], line := line + (Token.printed words).newlines }]
          diagnostics := []
          overflow := none } ∧
      List.Forall₂ Token.SameWord words reread := by
  induction words generalizing line with
  | nil => exact ⟨[], by simp [Token.printed, Text.join, Segment.ofText, ofSegments, Text.newlines],
      .nil⟩
  | cons word rest ih =>
      obtain ⟨here, later⟩ := List.forall_mem_cons.mp spelled
      obtain ⟨reread, read, same⟩ := ih later (line + word.lexeme.newlines)
      -- The space in between is read with the other words, and counts no line.
      obtain ⟨after, printed, ends, lines, reads⟩ := exists_printed_cons word rest
      refine ⟨{ word with line := (line + word.lexeme.newlines : Nat) } :: reread, ?_,
        .cons ⟨rfl, rfl, rfl⟩ same⟩
      rw [printed, ofSegments_word here ends, reads, read, withToken, newlines_append, lines]
      simp only [List.cons_append, Int.natCast_add, Int.add_assoc]

theorem rereads (spelled : ∀ word ∈ words, word.Spelled) : Rereads words :=
  ofSegments_printed spelled 1

/-- Words that are printed with spaces between them read as the same words, and nothing else is ever
read from a source. So reading, printing and reading again changes nothing but lines. -/
theorem words_survive_printing :
    (∀ words : List Token, (∀ word ∈ words, word.Spelled) → Rereads words) ∧
    (∀ source : Text, ∀ token ∈ (ofSource source).tokens,
      token.kind ≠ .endOfFile → token.Spelled) ∧
    (∀ source : Text, (ofSource source).overflow = none →
      ∃ words finish, (ofSource source).tokens = words ++ [finish] ∧ finish.kind = .endOfFile ∧
        (∀ word ∈ words, word.kind ≠ .endOfFile) ∧ Rereads words) := by
  have spelled : ∀ source : Text, ∀ token ∈ (ofSource source).tokens,
      token.kind ≠ .endOfFile → token.Spelled := fun source =>
    (Segment.splits_ofText source).spelled 1
  refine ⟨fun words => rereads, spelled, fun source complete => ?_⟩
  obtain ⟨words, finish, tokens, isEnd, inner⟩ :=
    terminated (fun _ _ => Segment.kind_ne_endOfFile) complete
  refine ⟨words, finish, tokens, isEnd, inner, rereads fun word member => ?_⟩
  exact spelled source word (tokens ▸ List.mem_append_left _ member) (inner word member)

/-- A source whose words stand as close to each other as they can, with slashes of all sorts. -/
def crowded : Text := "or orchid<==1.5.2/\"//\n\x00\"/ //\n/!="

theorem crowded_survives_printing :
    (ofSource crowded).overflow = none ∧
    Token.printed (ofSource crowded).tokens.dropLast =
      "or orchid <= = 1.5 . 2 / \"//\n\x00\" / / !=" ∧
    (∀ word ∈ (ofSource crowded).tokens.dropLast, word.Spelled) ∧
    Rereads (ofSource crowded).tokens.dropLast := by
  obtain ⟨reads, spelled, _⟩ := words_survive_printing
  have inner : ∀ word ∈ (ofSource crowded).tokens.dropLast, word.kind ≠ .endOfFile := by
    decide +kernel
  have each : ∀ word ∈ (ofSource crowded).tokens.dropLast, word.Spelled := fun word member =>
    spelled crowded word (List.mem_of_mem_dropLast member) (inner word member)
  exact ⟨by decide +kernel, by decide +kernel, each, reads _ each⟩

end Scan

end Loxley
