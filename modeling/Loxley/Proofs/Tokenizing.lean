import Loxley.Proofs.Scanning
import Mathlib.Data.List.Forall2

/-!
# Tokens and their lines

The tokens of a text are its lexemes, in order, and its diagnostics are its stray bytes and the string
that is left open. Each carries the line on which it ends: one more than the newlines of the text up
to there.
-/

set_option autoImplicit false

namespace Loxley

namespace Segment

/-- Whether a segment is the text of a token. -/
def isLexeme : Segment → Bool
  | lexeme _ _ => true
  | _ => false

/-- Whether a segment belongs to no token and is reported. -/
def isFaulty : Segment → Bool
  | stray _ | unclosed _ => true
  | _ => false

/-- Whether a segment is a string without a closing quote. -/
def isUnclosed : Segment → Bool
  | unclosed _ => true
  | _ => false

/-- The report of a segment that belongs to no token. -/
def complaint : Segment → Text
  | unclosed _ => "Unterminated string."
  | _ => "Unexpected character."

/-- Segments with the positions at which they start. -/
def placed (start : Nat) : List Segment → List (Nat × Segment)
  | [] => []
  | segment :: rest => (start, segment) :: placed (start + segment.bytes.length) rest

theorem map_snd_placed (start : Nat) (segments : List Segment) :
    (placed start segments).map Prod.snd = segments := by
  induction segments generalizing start with
  | nil => rfl
  | cons segment rest ih => rw [placed, List.map_cons, ih]

theorem map_snd_filter_placed (keep : Segment → Bool) (start : Nat) (segments : List Segment) :
    ((placed start segments).filter fun place => keep place.2).map Prod.snd =
      segments.filter keep := by
  conv_rhs => rw [← map_snd_placed start segments]
  exact List.filter_map.symm

/-- At most the last segment is an open string. -/
theorem Splits.count_unclosed {text : Text} {segments : List Segment}
    (splits : Splits text segments) :
    ((segments.filter isFaulty).map complaint).count ("Unterminated string." : Text) =
      if segments.getLast?.any isUnclosed then 1 else 0 := by
  induction splits with
  | nil => rfl
  | @cons segment after segments stands rest ih =>
      have last : segment.isUnclosed = false →
          (segment :: segments).getLast?.any isUnclosed = segments.getLast?.any isUnclosed := by
        intro closed
        rw [List.getLast?_cons]
        cases segments.getLast? with
        | none => exact closed
        | some other => rfl
      cases segment with
      | blank | comment | lexeme =>
          rw [last rfl]
          exact ih
      | stray byte =>
          have different : ("Unexpected character." : Text) ≠ "Unterminated string." := by decide
          rw [last rfl]
          exact (List.count_cons_of_ne different).trans ih
      | unclosed bytes =>
          cases stands
          rw [splits_iff.mp rest, ofText]
          rfl

/-- A string has quotes around it and none within. -/
theorem Splits.exists_content {text bytes : Text} {segments : List Segment}
    (splits : Splits text segments) (member : .lexeme .string bytes ∈ segments) :
    ∃ content, quote ∉ content ∧ bytes = quote :: content ++ [quote] := by
  obtain ⟨after, stands⟩ := splits.stands_of_mem member
  cases stands with
  | string closed => exact ⟨_, closed, rfl⟩

end Segment

/-- A token with the segment it was read from, which starts at a position of the source. -/
structure Token.ReadAt (source : Text) (token : Token) (place : Nat × Segment) : Prop where
  segment : place.2 = .lexeme token.kind token.lexeme
  lexeme : (source.drop place.1).take token.lexeme.length = token.lexeme
  literal : Segment.literal? token.kind token.lexeme = some token.literal
  /-- The token is on the line where its lexeme ends. -/
  line : token.line = 1 + Text.newlines (source.take (place.1 + token.lexeme.length))

/-- A diagnostic with the segment that caused it, which starts at a position of the source. -/
structure Diagnostic.CausedAt (source : Text) (diagnostic : Diagnostic) (place : Nat × Segment) :
    Prop where
  bytes : (source.drop place.1).take place.2.bytes.length = place.2.bytes
  message : diagnostic.problem.message = place.2.complaint
  stray : ∀ byte, place.2 = .stray byte →
    diagnostic.line = 1 + Text.newlines (source.take place.1)
  unclosed : ∀ bytes, place.2 = .unclosed bytes → diagnostic.line = 1 + source.newlines

theorem map_eq_map_of_forall₂ {α β γ : Type} {related : α → β → Prop} {first : α → γ}
    {second : β → γ} {left : List α} {right : List β} (all : List.Forall₂ related left right)
    (same : ∀ a b, related a b → first a = second b) : left.map first = right.map second := by
  induction all with
  | nil => rfl
  | cons here rest ih => rw [List.map_cons, List.map_cons, same _ _ here, ih]

section Lines

variable {before bytes after : Text}

theorem newlines_append (first second : Text) :
    Text.newlines (first ++ second) = first.newlines + second.newlines :=
  List.count_append

theorem drop_take_middle : ((before ++ (bytes ++ after)).drop before.length).take bytes.length =
    bytes := by
  rw [List.drop_left, List.take_left]

theorem line_append : ((1 + before.newlines + bytes.newlines : Nat) : Int) =
    1 + Text.newlines (before ++ bytes) := by
  rw [newlines_append, Nat.add_assoc, Int.natCast_add, Int.natCast_one]

theorem line_through : ((1 + before.newlines + bytes.newlines : Nat) : Int) =
    1 + Text.newlines ((before ++ (bytes ++ after)).take (before.length + bytes.length)) := by
  rw [← List.length_append, ← List.append_assoc, List.take_left, line_append]

end Lines

/-- What is scanned behind some text, with the whole text to count lines and positions in. -/
theorem Segment.Splits.scanned {before text : Text} {segments : List Segment}
    (splits : Segment.Splits text segments)
    (complete : (Scan.ofSegments (1 + before.newlines) segments).overflow = none) :
    ∃ words, (Scan.ofSegments (1 + before.newlines) segments).tokens =
        words ++ [{ kind := .endOfFile, lexeme := [], line := 1 + (before ++ text).newlines }] ∧
      List.Forall₂ (Token.ReadAt (before ++ text)) words
        ((Segment.placed before.length segments).filter fun place => place.2.isLexeme) ∧
      List.Forall₂ (Diagnostic.CausedAt (before ++ text))
        (Scan.ofSegments (1 + before.newlines) segments).diagnostics
        ((Segment.placed before.length segments).filter fun place => place.2.isFaulty) := by
  induction splits generalizing before with
  | nil => exact ⟨[], by simp [Scan.ofSegments], .nil, .nil⟩
  | @cons segment after segments stands splits ih =>
      have line : 1 + before.newlines + segment.bytes.newlines =
          1 + Text.newlines (before ++ segment.bytes) := by
        rw [newlines_append, Nat.add_assoc]
      have later := @ih (before ++ segment.bytes)
      rw [← line, List.length_append, List.append_assoc] at later
      cases segment with
      | blank bytes | comment bytes => exact later complete
      | stray byte =>
          obtain ⟨words, tokens, read, caused⟩ := later complete
          refine ⟨words, tokens, read, .cons ⟨?_, rfl, ?_, ?_⟩ caused⟩
          · exact drop_take_middle
          · intro other same
            rw [List.take_left]
            exact Int.natCast_add 1 _
          · intro bytes same
            cases same
      | unclosed bytes =>
          obtain ⟨words, tokens, read, caused⟩ := later complete
          refine ⟨words, tokens, read, .cons ⟨?_, rfl, ?_, ?_⟩ caused⟩
          · exact drop_take_middle
          · intro byte same
            cases same
          · intro other same
            -- Nothing is left behind an open string.
            cases stands
            rw [List.append_nil]
            exact line_append
      | lexeme kind bytes =>
          simp only [Scan.ofSegments] at complete ⊢
          cases value : Segment.literal? kind bytes with
          | none => simp [value] at complete
          | some literal =>
              simp only [value, Scan.withToken] at complete ⊢
              obtain ⟨words, tokens, read, caused⟩ := later complete
              refine ⟨_ :: words, by rw [tokens]; rfl, .cons ⟨rfl, ?_, value, ?_⟩ read, caused⟩
              · exact drop_take_middle
              · exact line_through

theorem Scan.scanned {source : Text} (complete : (Scan.ofSource source).overflow = none) :
    ∃ words, (Scan.ofSource source).tokens =
        words ++ [{ kind := .endOfFile, lexeme := [], line := 1 + source.newlines }] ∧
      List.Forall₂ (Token.ReadAt source) words
        ((Segment.placed 0 (Segment.ofText source)).filter fun place => place.2.isLexeme) ∧
      List.Forall₂ (Diagnostic.CausedAt source) (Scan.ofSource source).diagnostics
        ((Segment.placed 0 (Segment.ofText source)).filter fun place => place.2.isFaulty) :=
  @Segment.Splits.scanned [] source _ (Segment.splits_ofText source) complete

/-- Reading splits a text into the longest segments, which no other way of cutting gives. The tokens
are the lexemes among them, and the diagnostics are reports of the rest but for blanks and comments. A
position that moves over the text finds the same and stays inside of it. -/
theorem Scan.tokens_are_longest_lexemes {source : Text}
    (complete : (Scan.ofSource source).overflow = none) :
    (∀ rounds, source.length < rounds →
      Scanner.scan? rounds source = some (Scan.ofSource source)) ∧
    ∃ segments, (∀ other, Segment.Splits source other ↔ other = segments) ∧
      segments.flatMap Segment.bytes = source ∧
      (∃ words finish, (Scan.ofSource source).tokens = words ++ [finish] ∧
        finish.kind = .endOfFile ∧ (∀ word ∈ words, word.kind ≠ .endOfFile) ∧
        words.map (fun word => Segment.lexeme word.kind word.lexeme) =
          segments.filter Segment.isLexeme ∧
        ∀ word ∈ words, word.kind = .string → ∃ content, word.literal = .string content ∧
          word.lexeme = Segment.quote :: content ++ [Segment.quote]) ∧
      (Scan.ofSource source).diagnostics.map (fun diagnostic => diagnostic.problem.message) =
        (segments.filter Segment.isFaulty).map Segment.complaint ∧
      ((Scan.ofSource source).diagnostics.map fun diagnostic => diagnostic.problem.message).count
        ("Unterminated string." : Text) =
          if segments.getLast?.any Segment.isUnclosed then 1 else 0 := by
  obtain ⟨words, tokens, read, caused⟩ := scanned complete
  have splits := Segment.splits_ofText source
  have lexemes : words.map (fun word => Segment.lexeme word.kind word.lexeme) =
      (Segment.ofText source).filter Segment.isLexeme := by
    rw [← Segment.map_snd_filter_placed Segment.isLexeme 0]
    exact map_eq_map_of_forall₂ read fun _ _ at_ => at_.segment.symm
  have reports : (Scan.ofSource source).diagnostics.map (fun diagnostic =>
      diagnostic.problem.message) =
        ((Segment.ofText source).filter Segment.isFaulty).map Segment.complaint := by
    rw [← Segment.map_snd_filter_placed Segment.isFaulty 0, List.map_map]
    exact map_eq_map_of_forall₂ caused fun _ _ at_ => at_.message
  have inside : ∀ word ∈ words, .lexeme word.kind word.lexeme ∈ Segment.ofText source := by
    intro word member
    have shown : .lexeme word.kind word.lexeme ∈
        (Segment.ofText source).filter Segment.isLexeme := by
      rw [← lexemes]
      exact List.mem_map_of_mem member
    exact List.mem_of_mem_filter shown
  have literals : ∀ word ∈ words, Segment.literal? word.kind word.lexeme = some word.literal :=
    ((List.forall₂_and_left _ _).mp (read.imp fun _ _ at_ => ⟨at_.literal, at_⟩)).1
  refine ⟨fun rounds enough => Scanner.scan?_eq enough, Segment.ofText source,
    fun other => Segment.splits_iff, splits.flatMap_bytes,
    ⟨words, _, tokens, rfl, fun word member => ?_, lexemes, fun word member isString => ?_⟩,
    reports, ?_⟩
  · exact Segment.kind_ne_endOfFile (inside word member)
  · have shown := inside word member
    have value := literals word member
    rw [isString] at shown value
    obtain ⟨content, _, lexeme⟩ := splits.exists_content shown
    rw [lexeme] at value
    refine ⟨content, ?_, lexeme⟩
    simpa [Segment.literal?] using value.symm
  · rw [reports, splits.count_unclosed]

/-- A source with a string over two lines, a comment, a numeral with a loose point, stray bytes, one
of them zero, and an open string. -/
def ragged : Text := "var a1=\"x\ny\"; // z\n1.5.<==@\x00/ \"open\n"

theorem Scan.ragged_tokens :
    (Scan.ofSource ragged).overflow = none ∧ ragged.length < 60 ∧
    Scanner.scan? 60 ragged = some (Scan.ofSource ragged) ∧
    ∃ segments, (∀ other, Segment.Splits ragged other ↔ other = segments) ∧
      segments.filter Segment.isLexeme =
        [.lexeme (.keyword .varWord) "var", .lexeme .identifier "a1", .lexeme (.symbol .equal) "=",
          .lexeme .string "\"x\ny\"", .lexeme (.symbol .semicolon) ";", .lexeme .number "1.5",
          .lexeme (.symbol .dot) ".", .lexeme (.symbol .lessEqual) "<=",
          .lexeme (.symbol .equal) "=", .lexeme (.symbol .slash) "/"] ∧
      ((Scan.ofSource ragged).diagnostics.map fun diagnostic => diagnostic.problem.message) =
        (segments.filter Segment.isFaulty).map Segment.complaint := by
  have complete : (Scan.ofSource ragged).overflow = none := by decide +kernel
  have short : ragged.length < 60 := by decide +kernel
  obtain ⟨reads, segments, unique, _, _, reports, _⟩ := Scan.tokens_are_longest_lexemes complete
  refine ⟨complete, short, reads 60 short, segments, unique, ?_, reports⟩
  rw [← (unique (Segment.ofText ragged)).mp (Segment.splits_ofText ragged)]
  decide +kernel

/-- Every token is on the line where its lexeme ends, and the end marker on the last line. A stray
byte is reported on its line, and an open string on the last line. -/
theorem Scan.lines_count_newlines {source : Text}
    (complete : (Scan.ofSource source).overflow = none) :
    ∃ segments words, Segment.Splits source segments ∧
      (Scan.ofSource source).tokens =
        words ++ [{ kind := .endOfFile, lexeme := [], line := 1 + source.newlines }] ∧
      List.Forall₂ (Token.ReadAt source) words
        ((Segment.placed 0 segments).filter fun place => place.2.isLexeme) ∧
      List.Forall₂ (Diagnostic.CausedAt source) (Scan.ofSource source).diagnostics
        ((Segment.placed 0 segments).filter fun place => place.2.isFaulty) := by
  obtain ⟨words, tokens, read, caused⟩ := scanned complete
  exact ⟨Segment.ofText source, words, Segment.splits_ofText source, tokens, read, caused⟩

theorem Scan.ragged_lines :
    (Scan.ofSource ragged).overflow = none ∧
    (Scan.ofSource ragged).tokens.map (·.line) = [1, 1, 1, 2, 2, 3, 3, 3, 3, 3, 4] ∧
    (Scan.ofSource ragged).diagnostics.map (·.line) = [3, 3, 4] ∧
    ∃ segments words, Segment.Splits ragged segments ∧
      (Scan.ofSource ragged).tokens =
        words ++ [{ kind := .endOfFile, lexeme := [], line := 1 + ragged.newlines }] ∧
      List.Forall₂ (Token.ReadAt ragged) words
        ((Segment.placed 0 segments).filter fun place => place.2.isLexeme) ∧
      List.Forall₂ (Diagnostic.CausedAt ragged) (Scan.ofSource ragged).diagnostics
        ((Segment.placed 0 segments).filter fun place => place.2.isFaulty) := by
  have complete : (Scan.ofSource ragged).overflow = none := by decide +kernel
  exact ⟨complete, by decide +kernel, by decide +kernel, Scan.lines_count_newlines complete⟩

end Loxley
