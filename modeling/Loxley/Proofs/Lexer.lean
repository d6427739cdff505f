import Loxley.Token.Lexer
import Mathlib.Data.List.TakeWhile

/-!
# Reading lines one after the other

A newline ends every lexeme and every comment, so a text can be cut into segments line by line. The
tokens of two texts joined by a newline are those of the first followed by those of the second, with
the lines of the second counted on. Only an open string reaches across.
-/

set_option autoImplicit false

namespace Loxley

/-- The same token a number of lines further down. -/
def Token.down (lines : Nat) (token : Token) : Token :=
  { token with line := token.line + lines }

/-- The same diagnostic a number of lines further down. -/
def Diagnostic.down (lines : Nat) (diagnostic : Diagnostic) : Diagnostic :=
  { diagnostic with line := diagnostic.line + lines }

section Splitting

variable (keep : UInt8 → Bool)

theorem Text.takeWhile_append_stop {stop : UInt8} (stops : keep stop = false) (text more : Text) :
    (text ++ stop :: more).takeWhile keep = text.takeWhile keep := by
  induction text with
  | nil => simp [stops]
  | cons byte rest ih =>
      simp only [List.cons_append, List.takeWhile_cons, ih]

theorem Text.dropWhile_append_stop {stop : UInt8} (stops : keep stop = false) (text more : Text) :
    (text ++ stop :: more).dropWhile keep = text.dropWhile keep ++ stop :: more := by
  induction text with
  | nil => simp [stops]
  | cons byte rest ih =>
      simp only [List.cons_append, List.dropWhile_cons, ih]
      split <;> rfl

variable {keep}

theorem Text.dropWhile_append_of_ne_nil {text : Text} (stopped : text.dropWhile keep ≠ [])
    (more : Text) : (text ++ more).dropWhile keep = text.dropWhile keep ++ more := by
  simp [List.dropWhile_append, stopped]

theorem Text.takeWhile_append_of_ne_nil {text : Text} (stopped : text.dropWhile keep ≠ [])
    (more : Text) : (text ++ more).takeWhile keep = text.takeWhile keep := by
  rw [List.takeWhile_append, if_neg]
  intro same
  have split := congrArg List.length (List.takeWhile_append_dropWhile (p := keep) (l := text))
  rw [List.length_append, same] at split
  exact stopped (List.eq_nil_of_length_eq_zero (Nat.left_eq_add.mp split.symm))

theorem Text.takeWhile_append_of_stops {text rest : Text}
    (each : ∀ byte ∈ text, keep byte = true) (stops : ∀ byte ∈ rest.head?, keep byte = false) :
    (text ++ rest).takeWhile keep = text := by
  rw [List.takeWhile_append_of_pos each]
  cases rest with
  | nil => simp
  | cons byte more => simp [stops byte rfl]

theorem Text.dropWhile_append_of_stops {text rest : Text}
    (each : ∀ byte ∈ text, keep byte = true) (stops : ∀ byte ∈ rest.head?, keep byte = false) :
    (text ++ rest).dropWhile keep = rest := by
  rw [List.dropWhile_append_of_pos each]
  cases rest with
  | nil => rfl
  | cons byte more => simp [stops byte rfl]

theorem Text.stops_dropWhile {text : Text} :
    ∀ byte ∈ (text.dropWhile keep).head?, keep byte = false := by
  intro byte member
  have stops := List.head?_dropWhile_not keep text
  rwa [Option.mem_def.mp member] at stops

end Splitting

namespace Symbol

theorem newline_not_mem_spelling (symbol : Symbol) : Text.newline ∉ symbol.spelling := by
  cases symbol <;> decide

/-- No symbol reaches across the end of a line. -/
theorem ofText?_newline (first : UInt8) : Symbol.ofText? [first, Text.newline] = none := by
  rw [Symbol.ofText?, List.find?_eq_none]
  intro symbol _ same
  apply symbol.newline_not_mem_spelling
  rw [eq_of_beq same]
  simp

end Symbol

namespace Segment

variable {first : UInt8} {rest : Text}

theorem cutNumeral_append (text : Text) :
    (cutNumeral text).1 ++ (cutNumeral text).2 = text := by
  unfold cutNumeral
  split
  · next dot digit after shape =>
      split
      · simp only [List.append_assoc, List.cons_append, List.takeWhile_append_dropWhile]
        rw [← shape, List.takeWhile_append_dropWhile]
      · simp only [← shape, List.takeWhile_append_dropWhile]
  · exact List.takeWhile_append_dropWhile

theorem bytes_cutString (rest : Text) :
    (cutString rest).1.bytes ++ (cutString rest).2 = quote :: rest := by
  unfold cutString
  split
  · simp [bytes]
  · next closing after shape =>
      simp only [bytes, List.cons_append, List.append_assoc, List.nil_append, ← shape,
        List.takeWhile_append_dropWhile]

/-- The segment of a byte that starts no longer one. -/
def ofByte (byte : UInt8) : Segment :=
  match Symbol.ofText? [byte] with
  | some symbol => lexeme (.symbol symbol) [byte]
  | none => stray byte

theorem bytes_ofByte (byte : UInt8) : (ofByte byte).bytes = [byte] := by
  unfold ofByte
  split <;> rfl

theorem cutSymbol_nil (first : UInt8) : cutSymbol first [] = (ofByte first, []) := by
  unfold cutSymbol ofByte
  cases Symbol.ofText? [first] <;> rfl

theorem cutSymbol_cons (first second : UInt8) (after : Text) :
    cutSymbol first (second :: after) =
      match Symbol.ofText? [first, second] with
      | some symbol => (lexeme (.symbol symbol) [first, second], after)
      | none => (ofByte first, second :: after) := by
  unfold cutSymbol ofByte
  cases Symbol.ofText? [first] <;> rfl

theorem bytes_cutSymbol (first : UInt8) (rest : Text) :
    (cutSymbol first rest).1.bytes ++ (cutSymbol first rest).2 = first :: rest := by
  cases rest with
  | nil => simp [cutSymbol_nil, bytes_ofByte]
  | cons second after =>
      rw [cutSymbol_cons]
      split
      · rfl
      · simp [bytes_ofByte]

/-- Cutting off a segment loses nothing. -/
theorem bytes_cut (first : UInt8) (rest : Text) :
    (cut first rest).1.bytes ++ (cut first rest).2 = first :: rest := by
  unfold cut
  split
  · simp [bytes]
  · split
    · simp [bytes]
    · split
      · next isQuote =>
          rw [eq_of_beq isQuote]
          exact bytes_cutString rest
      · split
        · exact cutNumeral_append (first :: rest)
        · split
          · simp [bytes]
          · exact bytes_cutSymbol first rest

theorem newlines_cut (first : UInt8) (rest : Text) :
    Text.newlines (first :: rest) =
      (cut first rest).1.bytes.newlines + Text.newlines (cut first rest).2 := by
  rw [← bytes_cut first rest]
  exact List.count_append

/-! ## Joining texts -/

theorem cutNumeral_append_stop {stop : UInt8} (stops : Text.isDigit stop = false)
    (notPoint : stop ≠ point) (text more : Text) :
    cutNumeral (text ++ stop :: more) =
      ((cutNumeral text).1, (cutNumeral text).2 ++ stop :: more) := by
  have taken := Text.takeWhile_append_stop _ stops text more
  have dropped := Text.dropWhile_append_stop _ stops text more
  unfold cutNumeral
  rw [taken, dropped]
  match text.dropWhile Text.isDigit with
  | [] =>
      cases more with
      | nil => rfl
      | cons byte rest => simp [notPoint]
  | [dot] => simp [stops]
  | dot :: digit :: after =>
      simp only [List.cons_append]
      split
      · rw [← List.cons_append, Text.takeWhile_append_stop _ stops,
          Text.dropWhile_append_stop _ stops]
      · rfl

theorem cutString_append_newline {rest : Text} (closed : rest.dropWhile (· != quote) ≠ [])
    (more : Text) :
    cutString (rest ++ Text.newline :: more) =
      ((cutString rest).1, (cutString rest).2 ++ Text.newline :: more) := by
  obtain ⟨closing, after, shape⟩ := List.exists_cons_of_ne_nil closed
  simp only [cutString, Text.dropWhile_append_of_ne_nil closed,
    Text.takeWhile_append_of_ne_nil closed, shape, List.cons_append]

theorem cutSymbol_append_newline (first : UInt8) (rest more : Text) :
    cutSymbol first (rest ++ Text.newline :: more) =
      ((cutSymbol first rest).1, (cutSymbol first rest).2 ++ Text.newline :: more) := by
  cases rest with
  | nil => rw [List.nil_append, cutSymbol_cons, Symbol.ofText?_newline, cutSymbol_nil]; rfl
  | cons second after =>
      rw [List.cons_append, cutSymbol_cons, cutSymbol_cons]
      split <;> rfl

theorem head?_append_newline_eq_slash (rest more : Text) :
    ((rest ++ Text.newline :: more).head? == some slash) = (rest.head? == some slash) := by
  cases rest <;> rfl

/-- A newline after a text ends its last segment, unless that is blank or an open string. -/
theorem cut_append_newline (first : UInt8) {rest : Text}
    (notBlank : ¬ (isBlank first = true ∧ rest.dropWhile isBlank = []))
    (notOpen : ∀ bytes, (cut first rest).1 ≠ .unclosed bytes) (more : Text) :
    cut first (rest ++ Text.newline :: more) =
      ((cut first rest).1, (cut first rest).2 ++ Text.newline :: more) := by
  have wordStops : isWordByte Text.newline = false := by decide
  unfold cut at notOpen ⊢
  rw [head?_append_newline_eq_slash]
  split
  · next blankFirst =>
      have stopped : rest.dropWhile isBlank ≠ [] := fun none => notBlank ⟨blankFirst, none⟩
      rw [Text.takeWhile_append_of_ne_nil stopped, Text.dropWhile_append_of_ne_nil stopped]
  · next notBlankFirst =>
      rw [if_neg notBlankFirst] at notOpen
      split
      · rw [Text.takeWhile_append_stop (· != Text.newline) rfl,
          Text.dropWhile_append_stop (· != Text.newline) rfl]
      · next noComment =>
          rw [if_neg noComment] at notOpen
          split
          · next isQuote =>
              rw [if_pos isQuote] at notOpen
              refine cutString_append_newline (fun none => ?_) more
              exact notOpen (quote :: rest) (by simp [cutString, none])
          · split
            · rw [← List.cons_append, cutNumeral_append_stop (by decide) (by decide)]
            · split
              · rw [Text.takeWhile_append_stop _ wordStops,
                  Text.dropWhile_append_stop _ wordStops]
              · exact cutSymbol_append_newline first rest more

/-! ## Kinds of lexemes -/

theorem kind_cutString {kind : TokenKind} {bytes : Text}
    (same : (cutString rest).1 = .lexeme kind bytes) : kind = .string := by
  unfold cutString at same
  split at same <;> cases same
  rfl

theorem kind_cutSymbol {kind : TokenKind} {bytes : Text}
    (same : (cutSymbol first rest).1 = .lexeme kind bytes) : ∃ symbol, kind = .symbol symbol := by
  have single : ofByte first = .lexeme kind bytes → ∃ symbol, kind = .symbol symbol := by
    intro same
    unfold ofByte at same
    split at same <;> cases same
    exact ⟨_, rfl⟩
  cases rest with
  | nil => exact single (by rwa [cutSymbol_nil] at same)
  | cons second after =>
      rw [cutSymbol_cons] at same
      split at same
      · cases same
        exact ⟨_, rfl⟩
      · exact single same

theorem wordKind_ne_endOfFile (word : Text) : wordKind word ≠ .endOfFile := by
  unfold wordKind
  split <;> simp

theorem kind_cut_ne_endOfFile {kind : TokenKind} {bytes : Text}
    (same : (cut first rest).1 = .lexeme kind bytes) : kind ≠ .endOfFile := by
  unfold cut at same
  split at same
  · cases same
  · split at same
    · cases same
    · split at same
      · simp [kind_cutString same]
      · split at same
        · cases same
          simp
        · split at same
          · cases same
            exact wordKind_ne_endOfFile _
          · obtain ⟨symbol, rfl⟩ := kind_cutSymbol same
            simp

theorem kind_ne_endOfFile {text : Text} {kind : TokenKind} {bytes : Text}
    (member : .lexeme kind bytes ∈ ofText text) : kind ≠ .endOfFile := by
  fun_induction ofText text with
  | case1 => cases member
  | case2 first rest ih =>
      rcases List.mem_cons.mp member with here | later
      · exact kind_cut_ne_endOfFile here.symm
      · exact ih later

end Segment

namespace Scan

/-- The same scan a number of lines further down. -/
def down (lines : Nat) (scan : Scan) : Scan :=
  { scan with
    tokens := scan.tokens.map (Token.down lines)
    diagnostics := scan.diagnostics.map (Diagnostic.down lines) }

/-- One scan after another, without the end marker of the first. -/
def append (first second : Scan) : Scan where
  tokens := first.tokens.dropLast ++ second.tokens
  diagnostics := first.diagnostics ++ second.diagnostics
  overflow := second.overflow

/-- Lines are counted on from wherever a text starts. -/
theorem ofSegments_add (line lines : Nat) (segments : List Segment) :
    ofSegments (line + lines) segments = (ofSegments line segments).down lines := by
  induction segments generalizing line with
  | nil => simp [ofSegments, down, Token.down]
  | cons segment rest ih =>
      have counted := ih (line + segment.bytes.newlines)
      rw [Nat.add_right_comm] at counted
      cases segment with
      | blank bytes | comment bytes => exact counted
      | stray byte | unclosed bytes =>
          simp only [ofSegments, counted]
          simp [withDiagnostic, down, Diagnostic.down, Diagnostic.onLine, Int.add_right_comm]
      | lexeme kind bytes =>
          simp only [ofSegments, counted]
          cases Segment.literal? kind bytes with
          | none => simp [down]
          | some literal => simp [withToken, down, Token.down, Int.add_right_comm]

/-- Tokens that end with an end marker and have no other. -/
def Terminated (tokens : List Token) : Prop :=
  ∃ words finish, tokens = words ++ [finish] ∧ finish.kind = .endOfFile ∧
    ∀ word ∈ words, word.kind ≠ .endOfFile

/-- Unless a numeral stops it, reading ends with the only end marker. -/
theorem terminated {line : Nat} {segments : List Segment}
    (lexemes : ∀ kind bytes, .lexeme kind bytes ∈ segments → kind ≠ .endOfFile)
    (complete : (ofSegments line segments).overflow = none) :
    Terminated (ofSegments line segments).tokens := by
  induction segments generalizing line with
  | nil => exact ⟨[], _, rfl, rfl, by simp⟩
  | cons segment rest ih =>
      have tail := fun kind bytes member => lexemes kind bytes (List.mem_cons_of_mem _ member)
      cases segment with
      | blank bytes | comment bytes | stray byte | unclosed bytes => exact ih tail complete
      | lexeme kind bytes =>
          simp only [ofSegments] at complete ⊢
          cases value : Segment.literal? kind bytes with
          | none => simp [value] at complete
          | some literal =>
              simp only [value, withToken] at complete ⊢
              obtain ⟨words, finish, shape, isEnd, others⟩ := ih tail complete
              refine ⟨_ :: words, finish, by rw [shape]; rfl, isEnd, ?_⟩
              simpa using ⟨lexemes kind bytes List.mem_cons_self, others⟩

theorem withToken_append {first : Scan} (nonempty : first.tokens ≠ []) (token : Token)
    (second : Scan) :
    (first.withToken token).append second = (first.append second).withToken token := by
  simp [append, withToken, List.dropLast_cons_of_ne_nil nonempty]

theorem withDiagnostic_append (first second : Scan) (diagnostic : Diagnostic) :
    (first.withDiagnostic diagnostic).append second =
      (first.append second).withDiagnostic diagnostic := rfl

/-- Blanks before a text do nothing but count lines. -/
theorem ofSegments_skip_blanks (line : Nat) (text : Text) :
    ofSegments line (Segment.ofText text) =
      ofSegments (line + Text.newlines (text.takeWhile Segment.isBlank))
        (Segment.ofText (text.dropWhile Segment.isBlank)) := by
  cases text with
  | nil => rfl
  | cons byte rest =>
      by_cases blank : Segment.isBlank byte = true
      · rw [Segment.ofText, List.takeWhile_cons_of_pos blank, List.dropWhile_cons_of_pos blank]
        simp [Segment.cut, blank, ofSegments, Segment.bytes]
      · rw [List.takeWhile_cons_of_neg blank, List.dropWhile_cons_of_neg blank]
        rfl

theorem ofSegments_newline (line : Nat) (text : Text) :
    ofSegments line (Segment.ofText (Text.newline :: text)) =
      ofSegments (line + 1) (Segment.ofText text) := by
  rw [ofSegments_skip_blanks, ofSegments_skip_blanks (line + 1)]
  simp [Segment.isBlank, Text.newline, Text.newlines, Nat.add_assoc, Nat.add_comm]

theorem ofSegments_space (line : Nat) (text : Text) :
    ofSegments line (Segment.ofText (32 :: text)) = ofSegments line (Segment.ofText text) := by
  rw [ofSegments_skip_blanks, ofSegments_skip_blanks line text]
  simp [Segment.isBlank, Text.newlines, Text.newline]

theorem ofSegments_cons_append {line : Nat} {segment : Segment} {rest longer : List Segment}
    {second : Scan} (complete : (ofSegments line (segment :: rest)).overflow = none)
    (lexemes : ∀ kind bytes, .lexeme kind bytes ∈ rest → kind ≠ .endOfFile)
    (joined : (ofSegments (line + segment.bytes.newlines) rest).overflow = none →
      ofSegments (line + segment.bytes.newlines) longer =
        (ofSegments (line + segment.bytes.newlines) rest).append second) :
    ofSegments line (segment :: longer) = (ofSegments line (segment :: rest)).append second := by
  cases segment with
  | blank bytes | comment bytes => exact joined complete
  | stray byte | unclosed bytes =>
      simp only [ofSegments, joined complete, withDiagnostic_append]
  | lexeme kind bytes =>
      simp only [ofSegments] at complete ⊢
      cases value : Segment.literal? kind bytes with
      | none => simp [value] at complete
      | some literal =>
          simp only [value, withToken] at complete
          obtain ⟨words, finish, shape, _⟩ := terminated lexemes complete
          rw [joined complete, withToken_append (by rw [shape]; simp)]

/-- Reading two texts joined by a newline is reading one after the other. -/
theorem ofSegments_join (line : Nat) {text : Text}
    (complete : (ofSegments line (Segment.ofText text)).overflow = none)
    (closed : ∀ bytes, .unclosed bytes ∉ Segment.ofText text) (more : Text) :
    ofSegments line (Segment.ofText (text ++ Text.newline :: more)) =
      (ofSegments line (Segment.ofText text)).append
        (ofSegments (line + text.newlines + 1) (Segment.ofText more)) := by
  fun_induction Segment.ofText text generalizing line with
  | case1 =>
      rw [List.nil_append, ofSegments_newline]
      rfl
  | case2 first rest ih =>
      by_cases blank : Segment.isBlank first = true ∧ rest.dropWhile Segment.isBlank = []
      · -- The blanks at the end of the first text and the newline become one segment.
        have allBlank : ∀ byte ∈ first :: rest ++ [Text.newline], Segment.isBlank byte = true := by
          intro byte member
          rcases List.mem_append.mp member with inFirst | last
          · rcases List.mem_cons.mp inFirst with rfl | inRest
            · exact blank.1
            · exact List.dropWhile_eq_nil_iff.mp blank.2 byte inRest
          · rw [List.mem_singleton.mp last]
            rfl
        have cut : Segment.cut first rest = (.blank (first :: rest), []) := by
          have inFirst := fun byte member => allBlank byte (List.mem_append_left _ member)
          have taken := List.takeWhile_eq_self_iff.mpr inFirst
          rw [List.takeWhile_cons_of_pos blank.1] at taken
          simp only [Segment.cut, blank.1, if_true, blank.2, taken]
        have counted : Text.newlines (first :: rest ++ [Text.newline] ++
            more.takeWhile Segment.isBlank) =
              Text.newlines (first :: rest) + 1 + Text.newlines (more.takeWhile Segment.isBlank) := by
          simp only [Text.newlines, List.count_append, List.count_singleton_self]
        rw [cut, List.append_cons, ofSegments_skip_blanks,
          List.takeWhile_append_of_pos allBlank, List.dropWhile_append_of_pos allBlank, counted,
          ofSegments_skip_blanks _ more, ← Nat.add_assoc, ← Nat.add_assoc, Segment.ofText]
        rfl
      · have cut := Segment.cut_append_newline first blank
          (fun bytes same => closed bytes (same ▸ List.mem_cons_self)) more
        rw [List.cons_append, Segment.ofText, cut]
        refine ofSegments_cons_append complete (fun _ _ => Segment.kind_ne_endOfFile)
          fun tailComplete => ?_
        rw [ih _ tailComplete fun bytes member => closed bytes (List.mem_cons_of_mem _ member),
          Segment.newlines_cut, Nat.add_assoc line]

/-- A string that is left open is reported. -/
theorem exists_unterminated {line : Nat} {segments : List Segment} {bytes : Text}
    (complete : (ofSegments line segments).overflow = none) (member : .unclosed bytes ∈ segments) :
    ∃ finish, .onLine finish .unterminatedString ∈ (ofSegments line segments).diagnostics := by
  induction segments generalizing line with
  | nil => cases member
  | cons segment rest ih =>
      cases segment with
      | blank text | comment text => exact ih complete (List.mem_of_ne_of_mem (by simp) member)
      | stray byte =>
          obtain ⟨finish, reported⟩ := ih complete (List.mem_of_ne_of_mem (by simp) member)
          exact ⟨finish, List.mem_cons_of_mem _ reported⟩
      | unclosed text => exact ⟨_, List.mem_cons_self⟩
      | lexeme kind text =>
          have inRest := List.mem_of_ne_of_mem (by simp) member
          simp only [ofSegments] at complete ⊢
          cases value : Segment.literal? kind text with
          | none => simp [value] at complete
          | some literal =>
              simp only [value, withToken] at complete ⊢
              exact ih complete inRest

theorem closed_of_diagnostics_eq_nil {line : Nat} {segments : List Segment}
    (complete : (ofSegments line segments).overflow = none)
    (clean : (ofSegments line segments).diagnostics = []) (bytes : Text) :
    .unclosed bytes ∉ segments := by
  intro member
  obtain ⟨finish, reported⟩ := exists_unterminated complete member
  rw [clean] at reported
  cases reported

end Scan

end Loxley
