import Loxley.Proofs.Segmentation

/-!
# Reading at positions

Tokens can be read with a position that moves over a text with a zero byte behind it. Every look at
the text is partial here: there is nothing at a position outside of it. Such a scanner reads what the
segments of the text say, so that none of its looks goes wrong, and each of its loops ends.
-/

set_option autoImplicit false

namespace Loxley

/-- Whether a segment leaves no trace in the scan. -/
def Segment.isSkipped : Segment → Bool
  | .blank _ | .comment _ => true
  | _ => false

namespace Scanner

/-- The byte behind the text. It is not read as a part of it. -/
def terminator : UInt8 := 0

/-- How far reading has come. -/
structure State where
  position : Nat
  line : Nat

/-- What reading a token can give. -/
inductive Found where
  | token (token : Token)
  | problem (diagnostic : Diagnostic)
  /-- Reading stops at a numeral that is too large. -/
  | overflow (numeral : Text)

section Reading

variable (input : Text)

/-- Whether at most the terminator is left. -/
def atEnd (position : Nat) : Bool :=
  input.length ≤ position + 1

/-- The bytes from one position up to another. -/
def slice? (start stop : Nat) : Option Text :=
  if start ≤ stop ∧ stop ≤ input.length then some ((input.drop start).take (stop - start)) else none

/-- The next position at which a condition on positions and their bytes fails. -/
def skipWhile (keep : Nat → UInt8 → Bool) (position : Nat) : Option Nat :=
  if inside : position < input.length then
    if keep position input[position] then skipWhile keep (position + 1) else some position
  else none
termination_by input.length - position

/-- The end of a comment. -/
def skipComment (position : Nat) : Option Nat :=
  skipWhile input (fun position byte => byte != Text.newline && !atEnd input position) position

/-- Skips blanks and comments in a number of rounds, which may be too few. -/
def skipBlanks : Nat → State → Option State
  | 0, _ => none
  | rounds + 1, state => do
    let byte ← input[state.position]?
    if byte == Text.newline then
      skipBlanks rounds { position := state.position + 1, line := state.line + 1 }
    else if Segment.isBlank byte then
      skipBlanks rounds { state with position := state.position + 1 }
    else if byte == Segment.slash then
      let next ← input[state.position + 1]?
      if next == Segment.slash then
        let stop ← skipComment input state.position
        skipBlanks rounds { state with position := stop }
      else some state
    else some state

/-- The closing quote of a string, or else the terminator. -/
def skipString (state : State) : Option State :=
  if inside : state.position < input.length then
    if input[state.position] != Segment.quote && !atEnd input state.position then
      skipString
        { position := state.position + 1
          line := if input[state.position] == Text.newline then state.line + 1 else state.line }
    else some state
  else none
termination_by input.length - state.position

/-- The token that ends at a state. -/
def tokenFrom (start : Nat) (kind : TokenKind) (literal : Literal) (state : State) :
    Option (Found × State) := do
  let lexeme ← slice? input start state.position
  some (.token { kind, lexeme, literal, line := state.line }, state)

/-- Reads on after the opening quote of a string. -/
def readString (start : Nat) (state : State) : Option (Found × State) := do
  let stop ← skipString input state
  if atEnd input stop.position then
    some (.problem (.onLine stop.line .unterminatedString), stop)
  else
    let content ← slice? input (start + 1) stop.position
    tokenFrom input start .string (.string content) { stop with position := stop.position + 1 }

/-- The end of a numeral. -/
def skipNumeral (position : Nat) : Option Nat := do
  let whole ← skipWhile input (fun _ byte => Text.isDigit byte) position
  let dot ← input[whole]?
  if dot == Segment.point then
    let digit ← input[whole + 1]?
    if Text.isDigit digit then skipWhile input (fun _ byte => Text.isDigit byte) (whole + 1)
    else some whole
  else some whole

/-- Reads on after the first digit of a number. -/
def readNumber (start : Nat) (state : State) : Option (Found × State) := do
  let stop ← skipNumeral input state.position
  let numeral ← slice? input start stop
  match Segment.literal? .number numeral with
  | none => some (.overflow numeral, { state with position := stop })
  | some literal => tokenFrom input start .number literal { state with position := stop }

/-- Reads on after the first letter of a word. -/
def readWord (start : Nat) (state : State) : Option (Found × State) := do
  let stop ← skipWhile input (fun _ byte => Segment.isWordByte byte) state.position
  let word ← slice? input start stop
  tokenFrom input start (Segment.wordKind word) .nil { state with position := stop }

/-- Reads on after the first byte of a symbol, which may be all of it. -/
def readSymbol (start : Nat) (symbol : Symbol) (state : State) : Option (Found × State) :=
  match symbol.withEqual? with
  | none => tokenFrom input start (.symbol symbol) .nil state
  | some double => do
    let next ← input[state.position]?
    if next == Segment.equalSign then
      tokenFrom input start (.symbol double) .nil { state with position := state.position + 1 }
    else tokenFrom input start (.symbol symbol) .nil state

/-- Reads one token, or a byte that starts none. -/
def readToken (state : State) : Option (Found × State) := do
  let first ← input[state.position]?
  let next := { state with position := state.position + 1 }
  match Symbol.ofText? [first] with
  | some symbol => readSymbol input state.position symbol next
  | none =>
    if first == Segment.quote then readString input state.position next
    else if Text.isDigit first then readNumber input state.position next
    else if Text.isLetter first then readWord input state.position next
    else some (.problem (.onLine state.line .unexpectedCharacter), next)

/-- Reads tokens in a number of rounds, which may be too few. -/
def readAll : Nat → State → Option Scan
  | 0, _ => none
  | rounds + 1, state => do
    let state ← skipBlanks input (rounds + 1) state
    if atEnd input state.position then
      some { tokens := [{ kind := .endOfFile, lexeme := [], line := state.line }], diagnostics := [] }
    else
      match ← readToken input state with
      | (.token token, next) => (readAll rounds next).map (Scan.withToken token)
      | (.problem diagnostic, next) => (readAll rounds next).map (Scan.withDiagnostic diagnostic)
      | (.overflow numeral, _) => some { tokens := [], diagnostics := [], overflow := some numeral }

end Reading

/-- Reads a text from its first position on its first line. -/
def scan? (rounds : Nat) (source : Text) : Option Scan :=
  readAll (source ++ [terminator]) rounds { position := 0, line := 1 }

/-- The state behind some more bytes. -/
def State.past (state : State) (bytes : Text) : State where
  position := state.position + bytes.length
  line := state.line + bytes.newlines

theorem past_append (state : State) (first second : Text) :
    state.past (first ++ second) = (state.past first).past second := by
  simp [State.past, Text.newlines, Nat.add_assoc]

theorem past_cons (state : State) (byte : UInt8) (rest : Text) :
    state.past (byte :: rest) = (state.past [byte]).past rest :=
  past_append state [byte] rest

/-! ## What is left at a position -/

/-- The text from a position on, with the terminator behind it. -/
def Left (input : Text) (position : Nat) (text : Text) : Prop :=
  input.drop position = text ++ [terminator]

namespace Left

variable {input text taken after : Text} {position : Nat} {byte : UInt8}

theorem start (source : Text) : Left (source ++ [terminator]) 0 source := rfl

theorem skip (left : Left input position (taken ++ after)) :
    Left input (position + taken.length) after := by
  rw [Left, ← List.drop_drop, left, List.append_assoc, List.drop_left]

theorem next (left : Left input position (byte :: after)) : Left input (position + 1) after := by
  have whole : Left input position ([byte] ++ after) := left
  exact whole.skip

theorem length_eq (left : Left input position text) :
    input.length = position + text.length + 1 := by
  have lengths := congrArg List.length left
  simp only [List.length_drop, List.length_append, List.length_singleton] at lengths
  omega

/-- There is a byte at every such position: the terminator at the last one. -/
theorem getElem?_eq (left : Left input position text) :
    input[position]? = some (text.headD terminator) := by
  have first : (input.drop position)[0]? = some (text.headD terminator) := by
    rw [left]
    cases text <;> rfl
  rwa [List.getElem?_drop, Nat.add_zero] at first

theorem getElem_eq (left : Left input position text) (inside : position < input.length) :
    input[position] = text.headD terminator := by
  have found := left.getElem?_eq
  rw [List.getElem?_eq_getElem inside] at found
  exact Option.some.inj found

theorem position_lt (left : Left input position text) : position < input.length := by
  have length := left.length_eq
  omega

theorem atEnd_eq (left : Left input position text) : atEnd input position = text.isEmpty := by
  have length := left.length_eq
  cases text with
  | nil =>
      simp only [List.length_nil] at length
      simp only [atEnd, List.isEmpty_nil, decide_eq_true_eq]
      omega
  | cons byte rest =>
      simp only [List.length_cons] at length
      simp only [atEnd, List.isEmpty_cons, decide_eq_false_iff_not]
      omega

theorem slice?_eq (left : Left input position (taken ++ after)) :
    slice? input position (position + taken.length) = some taken := by
  have length := left.length_eq
  rw [List.length_append] at length
  rw [slice?, if_pos (by omega), left, Nat.add_sub_cancel_left, List.append_assoc, List.take_left]

end Left

/-! ## Loops -/

section Loops

variable {input text taken after : Text} {position line rounds : Nat}

/-- A loop takes the bytes that it keeps if it stops at the one behind them. -/
theorem skipWhile_eq {keep : Nat → UInt8 → Bool} {accept : UInt8 → Bool}
    (inside : ∀ position byte, atEnd input position = false → keep position byte = accept byte)
    (final : ∀ position, atEnd input position = true → keep position terminator = false)
    (each : ∀ byte ∈ taken, accept byte = true)
    (ends : ∀ byte ∈ after.head?, accept byte = false)
    (left : Left input position (taken ++ after)) :
    skipWhile input keep position = some (position + taken.length) := by
  induction taken generalizing position with
  | nil =>
      have stops : keep position (after.headD terminator) = false := by
        cases after with
        | nil => exact final position left.atEnd_eq
        | cons byte rest => exact (inside position byte left.atEnd_eq).trans (ends byte rfl)
      rw [skipWhile, dif_pos left.position_lt, left.getElem_eq left.position_lt]
      exact if_neg (Bool.eq_false_iff.mp stops)
  | cons byte taken ih =>
      obtain ⟨accepted, others⟩ := List.forall_mem_cons.mp each
      have keeps : keep position byte = true := (inside position byte left.atEnd_eq).trans accepted
      have next := ih others left.next
      rw [skipWhile, dif_pos left.position_lt, left.getElem_eq left.position_lt]
      rw [Nat.add_assoc, Nat.add_comm 1] at next
      exact (if_pos keeps).trans next

/-- Loops over digits or words need no look at the end: the terminator is neither. -/
theorem skipWhile_of_byte {accept : UInt8 → Bool} (final : accept terminator = false)
    (each : ∀ byte ∈ taken, accept byte = true)
    (ends : ∀ byte ∈ after.head?, accept byte = false)
    (left : Left input position (taken ++ after)) :
    skipWhile input (fun _ byte => accept byte) position = some (position + taken.length) :=
  skipWhile_eq (fun _ _ _ => rfl) (fun _ _ => final) each ends left

theorem skipComment_eq (oneLine : Text.newline ∉ taken)
    (ends : ∀ byte ∈ after.head?, byte = Text.newline)
    (left : Left input position (taken ++ after)) :
    skipComment input position = some (position + taken.length) := by
  have inside : ∀ position byte, atEnd input position = false →
      (byte != Text.newline && !atEnd input position) = (byte != Text.newline) := by
    intro position byte notEnd
    simp [notEnd]
  have final : ∀ position, atEnd input position = true →
      (terminator != Text.newline && !atEnd input position) = false := by
    intro position isEnd
    simp [isEnd]
  refine skipWhile_eq inside final (fun byte member => ?_) (fun byte member => ?_) left
  · exact bne_iff_ne.mpr fun same => oneLine (same ▸ member)
  · simp [ends byte member]

theorem skipString_eq {state : State} (closed : Segment.quote ∉ taken)
    (ends : ∀ byte ∈ after.head?, byte = Segment.quote)
    (left : Left input state.position (taken ++ after)) :
    skipString input state = some (state.past taken) := by
  induction taken generalizing state with
  | nil =>
      have stops : (after.headD terminator != Segment.quote && !atEnd input state.position) =
          false := by
        rw [left.atEnd_eq]
        cases after with
        | nil => rfl
        | cons byte rest => simp [ends byte rfl]
      rw [skipString, dif_pos left.position_lt, left.getElem_eq left.position_lt]
      exact if_neg (Bool.eq_false_iff.mp stops)
  | cons byte taken ih =>
      have keeps : (byte != Segment.quote && !atEnd input state.position) = true := by
        rw [left.atEnd_eq]
        simpa using (List.ne_of_not_mem_cons closed).symm
      have later := @ih (state.past [byte]) (List.not_mem_of_not_mem_cons closed) left.next
      rw [skipString, dif_pos left.position_lt, left.getElem_eq left.position_lt, past_cons, ← later]
      refine (if_pos keeps).trans (congrArg (skipString input) ?_)
      cases isNewline : byte == Text.newline with
      | true => simp [State.past, Text.newlines, eq_of_beq isNewline]
      | false => simp [State.past, Text.newlines, beq_eq_false_iff_ne.mp isNewline]

/-- Each blank takes one round. -/
theorem skipBlanks_blank {state : State} (blanks : ∀ byte ∈ taken, Segment.isBlank byte = true)
    (left : Left input state.position (taken ++ after)) :
    skipBlanks input (rounds + taken.length) state = skipBlanks input rounds (state.past taken) := by
  induction taken generalizing state with
  | nil => rfl
  | cons byte taken ih =>
      obtain ⟨isBlank, others⟩ := List.forall_mem_cons.mp blanks
      have here : input[state.position]? = some byte := left.getElem?_eq
      have later := @ih (state.past [byte]) others left.next
      rw [List.length_cons, ← Nat.add_assoc, skipBlanks, here, past_cons, ← later]
      cases isNewline : byte == Text.newline with
      | true => simp [State.past, Text.newlines, eq_of_beq isNewline]
      | false =>
          simp [State.past, Text.newlines, beq_eq_false_iff_ne.mp isNewline, isBlank]

/-- A comment takes one round. -/
theorem skipBlanks_comment {state : State} {body : Text} (oneLine : Text.newline ∉ body)
    (ends : ∀ byte ∈ after.head?, byte = Text.newline)
    (left : Left input state.position (Segment.slash :: Segment.slash :: body ++ after)) :
    skipBlanks input (rounds + 1) state =
      skipBlanks input rounds (state.past (Segment.slash :: Segment.slash :: body)) := by
  have here : input[state.position]? = some Segment.slash := left.getElem?_eq
  have there : input[state.position + 1]? = some Segment.slash := left.next.getElem?_eq
  have opens : Text.newline ∉ Segment.slash :: Segment.slash :: body := by
    simpa using ⟨by decide, oneLine⟩
  have stops := skipComment_eq opens ends left
  have isSlash : Segment.slash ≠ Text.newline ∧ Segment.isBlank Segment.slash = false := by decide
  have counted : Text.newlines (Segment.slash :: Segment.slash :: body) = 0 :=
    List.count_eq_zero.mpr opens
  simp [skipBlanks, here, there, isSlash, stops, State.past, counted]

/-- Nothing is skipped before a byte that is neither blank nor the start of a comment. -/
theorem skipBlanks_stop {state : State} (left : Left input state.position text)
    (notBlank : ∀ byte ∈ text.head?, Segment.isBlank byte = false)
    (noComment : ∀ rest, text ≠ Segment.slash :: Segment.slash :: rest) :
    skipBlanks input (rounds + 1) state = some state := by
  have here := left.getElem?_eq
  cases text with
  | nil =>
      have isEnd : terminator ≠ Text.newline ∧ Segment.isBlank terminator = false ∧
          terminator ≠ Segment.slash := by decide
      simp [skipBlanks, here, isEnd]
  | cons byte rest =>
      have notBlank := notBlank byte rfl
      have notNewline : (byte == Text.newline) = false := by
        refine beq_eq_false_iff_ne.mpr fun same => ?_
        rw [same] at notBlank
        cases notBlank
      have there := left.next.getElem?_eq
      simp only [skipBlanks, here, there, Option.bind_eq_bind, Option.bind_some, List.headD_cons,
        notNewline, notBlank, Bool.false_eq_true, if_false]
      split
      · next isSlash =>
          have noSlash : (rest.headD terminator == Segment.slash) = false := by
            refine beq_eq_false_iff_ne.mpr fun same => ?_
            cases rest with
            | nil => cases same
            | cons second more => exact noComment more (by rw [eq_of_beq isSlash, ← same]; rfl)
          simp only [noSlash, Bool.false_eq_true, if_false]
      · rfl

end Loops

/-! ## Tokens -/

/-- The scan with what was found before it. -/
def Found.before (found : Found) (scan : Scan) : Scan :=
  match found with
  | .token word => scan.withToken word
  | .problem diagnostic => scan.withDiagnostic diagnostic
  | .overflow numeral => { tokens := [], diagnostics := [], overflow := some numeral }

/-- A reader comes past a segment and finds what it adds to the scan of those behind it. -/
def Reads (reader : Option (Found × State)) (state : State) (segment : Segment) : Prop :=
  ∃ found, reader = some (found, state.past segment.bytes) ∧
    ∀ rest, Scan.ofSegments state.line (segment :: rest) =
      found.before (Scan.ofSegments (state.past segment.bytes).line rest)

section Tokens

variable {input after : Text} {state : State}

theorem reads_tokenFrom {kind : TokenKind} {lexeme : Text} {literal : Literal}
    (value : Segment.literal? kind lexeme = some literal)
    (left : Left input state.position (lexeme ++ after)) :
    Reads (tokenFrom input state.position kind literal (state.past lexeme)) state
      (.lexeme kind lexeme) := by
  refine ⟨.token { kind, lexeme, literal, line := (state.past lexeme).line }, ?_, fun rest => ?_⟩
  · have sliced : slice? input state.position (state.past lexeme).position = some lexeme :=
      left.slice?_eq
    rw [tokenFrom, sliced]
    rfl
  · simp only [Scan.ofSegments, value]
    rfl

/-- Bytes without a newline only move the position. -/
theorem past_of_newline_not_mem {bytes : Text} (oneLine : Text.newline ∉ bytes) :
    state.past bytes = { state with position := state.position + bytes.length } := by
  rw [State.past, Text.newlines, List.count_eq_zero.mpr oneLine]
  rfl

theorem past_byte {byte : UInt8} (other : byte ≠ Text.newline) :
    state.past [byte] = { state with position := state.position + 1 } :=
  past_of_newline_not_mem (by simpa using other.symm)

theorem newline_not_mem {keep : UInt8 → Bool} {bytes : Text} (excluded : keep Text.newline = false)
    (each : ∀ byte ∈ bytes, keep byte = true) : Text.newline ∉ bytes := by
  intro member
  rw [each _ member] at excluded
  cases excluded

theorem reads_string {content : Text} (closed : Segment.quote ∉ content)
    (left : Left input state.position (Segment.quote :: content ++ [Segment.quote] ++ after)) :
    Reads (readString input state.position (state.past [Segment.quote])) state
      (.lexeme .string (Segment.quote :: content ++ [Segment.quote])) := by
  have inside : Left input (state.position + 1) (content ++ ([Segment.quote] ++ after)) := by
    rw [← List.append_assoc]
    exact left.next
  have value : Segment.literal? .string (Segment.quote :: content ++ [Segment.quote]) =
      some (.string content) := by simp [Segment.literal?]
  have skipped : skipString input (state.past [Segment.quote]) =
      some ((state.past [Segment.quote]).past content) := skipString_eq closed (by simp) inside
  have notEnd : atEnd input ((state.past [Segment.quote]).past content).position = false :=
    inside.skip.atEnd_eq
  have sliced : slice? input (state.position + 1)
      ((state.past [Segment.quote]).past content).position = some content := inside.slice?_eq
  have closing : ((state.past [Segment.quote]).past content).past [Segment.quote] =
      state.past (Segment.quote :: content ++ [Segment.quote]) := by
    rw [past_append, past_cons state Segment.quote content]
  simp only [readString, skipped, notEnd, sliced, Option.bind_eq_bind, Option.bind_some,
    Bool.false_eq_true, if_false]
  rw [← past_byte (by decide : Segment.quote ≠ Text.newline), closing]
  exact reads_tokenFrom value left

theorem reads_unclosed {content : Text} (unclosed : Segment.quote ∉ content)
    (left : Left input state.position (Segment.quote :: content)) :
    Reads (readString input state.position (state.past [Segment.quote])) state
      (.unclosed (Segment.quote :: content)) := by
  have inside : Left input (state.position + 1) (content ++ []) := by
    rw [List.append_nil]
    exact left.next
  have skipped : skipString input (state.past [Segment.quote]) =
      some ((state.past [Segment.quote]).past content) := skipString_eq unclosed (by simp) inside
  have isEnd : atEnd input ((state.past [Segment.quote]).past content).position = true :=
    inside.skip.atEnd_eq
  refine ⟨.problem (.onLine (state.past (Segment.quote :: content)).line .unterminatedString), ?_,
    fun rest => rfl⟩
  simp only [readString, skipped, isEnd, Option.bind_eq_bind, Option.bind_some, if_true]
  rw [← past_cons]
  rfl

theorem reads_number {first : UInt8} {rest : Text}
    (left : Left input state.position (first :: rest ++ after))
    (skipped : skipNumeral input (state.position + 1) = some (state.position + 1 + rest.length))
    (oneLine : Text.newline ∉ first :: rest) :
    Reads (readNumber input state.position (state.past [first])) state
      (.lexeme .number (first :: rest)) := by
  have stopped : state.position + 1 + rest.length = state.position + (first :: rest).length := by
    rw [List.length_cons, Nat.add_assoc, Nat.add_comm 1]
  rw [past_byte (List.ne_of_not_mem_cons oneLine).symm]
  simp only [readNumber, skipped, stopped, left.slice?_eq, Option.bind_eq_bind, Option.bind_some]
  cases value : Segment.literal? .number (first :: rest) with
  | none =>
      refine ⟨.overflow (first :: rest), ?_, fun segments => ?_⟩
      · rw [Segment.bytes, past_of_newline_not_mem oneLine]
      · simp only [Scan.ofSegments, value]
        rfl
  | some literal =>
      have reads := reads_tokenFrom value left
      rwa [past_of_newline_not_mem oneLine] at reads

theorem skipNumeral_integer {digits : Text} {position : Nat}
    (each : ∀ byte ∈ digits, Text.isDigit byte = true)
    (ends : ∀ byte ∈ after.head?, Text.isDigit byte = false)
    (noFraction : ∀ digit rest, after = Segment.point :: digit :: rest → Text.isDigit digit = false)
    (left : Left input position (digits ++ after)) :
    skipNumeral input position = some (position + digits.length) := by
  have whole := skipWhile_of_byte (by decide) each ends left
  have here := left.skip.getElem?_eq
  simp only [skipNumeral, whole, here, Option.bind_eq_bind, Option.bind_some]
  split
  · next isPoint =>
      cases after with
      | nil => cases isPoint
      | cons dot rest =>
          have there := left.skip.next.getElem?_eq
          have noDigit : Text.isDigit (rest.headD terminator) = false := by
            cases rest with
            | nil => rfl
            | cons digit rest =>
                have isPoint : dot = Segment.point := eq_of_beq isPoint
                exact noFraction digit rest (by rw [isPoint])
          simp only [there, Option.bind_some, noDigit, Bool.false_eq_true, if_false]
  · rfl

theorem skipNumeral_decimal {whole fraction : Text} {position : Nat}
    (each : ∀ byte ∈ whole, Text.isDigit byte = true) (nonempty : fraction ≠ [])
    (others : ∀ byte ∈ fraction, Text.isDigit byte = true)
    (ends : ∀ byte ∈ after.head?, Text.isDigit byte = false)
    (left : Left input position (whole ++ Segment.point :: fraction ++ after)) :
    skipNumeral input position =
      some (position + (whole ++ Segment.point :: fraction).length) := by
  rw [List.append_assoc] at left
  have atPoint := left.skip
  have stops : ∀ byte ∈ (Segment.point :: fraction ++ after).head?, Text.isDigit byte = false := by
    intro byte member
    cases member
    decide
  have wholeDigits := skipWhile_of_byte (by decide) each stops left
  have fractionDigits := skipWhile_of_byte (by decide) others ends atPoint.next
  have here : input[position + whole.length]? = some Segment.point := atPoint.getElem?_eq
  obtain ⟨digit, rest, rfl⟩ := List.exists_cons_of_ne_nil nonempty
  have there : input[position + whole.length + 1]? = some digit := atPoint.next.getElem?_eq
  simp only [skipNumeral, wholeDigits, here, there, Option.bind_eq_bind, Option.bind_some,
    beq_self_eq_true, if_true, others digit List.mem_cons_self, fractionDigits]
  simp [Nat.add_assoc, Nat.add_comm, Nat.add_left_comm]

theorem reads_word {first : UInt8} {others : Text} (letter : Segment.isWordByte first = true)
    (each : ∀ byte ∈ others, Segment.isWordByte byte = true)
    (ends : ∀ byte ∈ after.head?, Segment.isWordByte byte = false)
    (valued : Segment.literal? (Segment.wordKind (first :: others)) (first :: others) = some .nil)
    (left : Left input state.position (first :: others ++ after)) :
    Reads (readWord input state.position (state.past [first])) state
      (.lexeme (Segment.wordKind (first :: others)) (first :: others)) := by
  have whole : ∀ byte ∈ first :: others, Segment.isWordByte byte = true :=
    List.forall_mem_cons.mpr ⟨letter, each⟩
  have oneLine : Text.newline ∉ first :: others := newline_not_mem (by decide) whole
  have stops : skipWhile input (fun _ byte => Segment.isWordByte byte) (state.position + 1) =
      some (state.position + (first :: others).length) := by
    rw [skipWhile_of_byte (by decide) each ends left.next, List.length_cons, Nat.add_assoc,
      Nat.add_comm 1]
  rw [past_byte (List.ne_of_not_mem_cons oneLine).symm]
  simp only [readWord, stops, left.slice?_eq, Option.bind_eq_bind, Option.bind_some]
  have reads := reads_tokenFrom valued left
  rwa [past_of_newline_not_mem oneLine] at reads

theorem reads_single {symbol : Symbol} {first : UInt8}
    (ends : symbol.withEqual? ≠ none → after.head? ≠ some Segment.equalSign)
    (left : Left input state.position ([first] ++ after)) :
    Reads (readSymbol input state.position symbol (state.past [first])) state
      (.lexeme (.symbol symbol) [first]) := by
  have reads : Reads (tokenFrom input state.position (.symbol symbol) .nil (state.past [first])) state
      (.lexeme (.symbol symbol) [first]) := reads_tokenFrom rfl left
  unfold readSymbol
  cases extends_ : symbol.withEqual? with
  | none => exact reads
  | some double =>
      have there : input[(state.past [first]).position]? = some (after.headD terminator) :=
        left.next.getElem?_eq
      have noEqual : (after.headD terminator == Segment.equalSign) = false := by
        refine beq_eq_false_iff_ne.mpr fun same => ?_
        cases after with
        | nil => cases same
        | cons byte rest => exact ends (by simp [extends_]) (congrArg some same)
      simpa only [there, Option.bind_eq_bind, Option.bind_some, noEqual, Bool.false_eq_true, if_false]
        using reads

theorem reads_double {single double : Symbol} {first : UInt8}
    (extends_ : single.withEqual? = some double)
    (left : Left input state.position ([first, Segment.equalSign] ++ after)) :
    Reads (readSymbol input state.position single (state.past [first])) state
      (.lexeme (.symbol double) [first, Segment.equalSign]) := by
  have there : input[(state.past [first]).position]? = some Segment.equalSign :=
    left.next.getElem?_eq
  have reads : Reads (tokenFrom input state.position (.symbol double) .nil
      (state.past [first, Segment.equalSign])) state
        (.lexeme (.symbol double) [first, Segment.equalSign]) := reads_tokenFrom rfl left
  rw [past_cons, past_byte (by decide : Segment.equalSign ≠ Text.newline)] at reads
  simpa only [readSymbol, extends_, there, Option.bind_eq_bind, Option.bind_some, beq_self_eq_true,
    if_true] using reads

/-! Which reader a token is left to. -/

theorem readToken_of_symbol {symbol : Symbol} {first : UInt8} {rest : Text}
    (left : Left input state.position (first :: rest)) (spelled : symbol.spelling = [first]) :
    readToken input state = readSymbol input state.position symbol (state.past [first]) := by
  have here : input[state.position]? = some first := left.getElem?_eq
  have found : Symbol.ofText? [first] = some symbol := by rw [← spelled, symbol.ofText?_spelling]
  have notNewline : first ≠ Text.newline := by
    have oneLine := symbol.newline_not_mem_spelling
    rw [spelled] at oneLine
    exact (List.ne_of_not_mem_cons oneLine).symm
  rw [past_byte notNewline]
  simp only [readToken, here, found, Option.bind_eq_bind, Option.bind_some]

/-- Quotes, digits and letters start no symbols. -/
theorem ofText?_eq_none {first : UInt8}
    (starts : first = Segment.quote ∨ Text.isDigit first = true ∨ Text.isLetter first = true) :
    Symbol.ofText? [first] = none := by
  cases found : Symbol.ofText? [first] with
  | none => rfl
  | some symbol =>
      have starting := congrArg List.head? (Symbol.spelling_of_ofText? found)
      obtain ⟨_, notQuote, notDigit, notLetter, _⟩ := symbol.head_spelling starting
      rcases starts with isQuote | isDigit | isLetter
      · exact absurd isQuote notQuote
      · exact absurd isDigit (Bool.eq_false_iff.mp notDigit)
      · exact absurd isLetter (Bool.eq_false_iff.mp notLetter)

theorem readToken_of_other {first : UInt8} {rest : Text}
    (left : Left input state.position (first :: rest)) (other : Symbol.ofText? [first] = none)
    (notBlank : Segment.isBlank first = false) :
    readToken input state =
      if first == Segment.quote then readString input state.position (state.past [first])
      else if Text.isDigit first then readNumber input state.position (state.past [first])
      else if Text.isLetter first then readWord input state.position (state.past [first])
      else some (.problem (.onLine state.line .unexpectedCharacter), state.past [first]) := by
  have here : input[state.position]? = some first := left.getElem?_eq
  have notNewline : first ≠ Text.newline := by
    intro same
    rw [same] at notBlank
    cases notBlank
  rw [past_byte notNewline]
  simp only [readToken, here, other, Option.bind_eq_bind, Option.bind_some]

theorem readToken_of_quote {rest : Text}
    (left : Left input state.position (Segment.quote :: rest)) :
    readToken input state = readString input state.position (state.past [Segment.quote]) := by
  rw [readToken_of_other left (ofText?_eq_none (.inl rfl)) (by decide)]
  rfl

theorem readToken_of_digit {first : UInt8} {rest : Text} (isDigit : Text.isDigit first = true)
    (left : Left input state.position (first :: rest)) :
    readToken input state = readNumber input state.position (state.past [first]) := by
  obtain ⟨notBlank, _, notQuote⟩ := Segment.of_isDigit isDigit
  rw [readToken_of_other left (ofText?_eq_none (.inr (.inl isDigit))) notBlank]
  simp [notQuote, isDigit]

theorem readToken_of_letter {first : UInt8} {rest : Text} (isLetter : Text.isLetter first = true)
    (left : Left input state.position (first :: rest)) :
    readToken input state = readWord input state.position (state.past [first]) := by
  obtain ⟨notBlank, _, notQuote, notDigit⟩ := Segment.of_isLetter isLetter
  rw [readToken_of_other left (ofText?_eq_none (.inr (.inr isLetter))) notBlank]
  simp [notQuote, notDigit, isLetter]

theorem reads_stray {byte : UInt8} (notBlank : Segment.isBlank byte = false)
    (notQuote : byte ≠ Segment.quote) (notDigit : Text.isDigit byte = false)
    (notLetter : Text.isLetter byte = false)
    (notSymbol : ∀ symbol : Symbol, symbol.spelling.head? ≠ some byte)
    (left : Left input state.position (byte :: after)) :
    Reads (readToken input state) state (.stray byte) := by
  have other : Symbol.ofText? [byte] = none := by
    cases found : Symbol.ofText? [byte] with
    | none => rfl
    | some symbol =>
        exact absurd (congrArg List.head? (Symbol.spelling_of_ofText? found)) (notSymbol symbol)
  refine ⟨.problem (.onLine state.line .unexpectedCharacter), ?_, fun rest => rfl⟩
  rw [readToken_of_other left other notBlank]
  simp [notQuote, notDigit, notLetter, Segment.bytes]

/-- A token is read as the segment that stands there. -/
theorem reads_of_stands {segment : Segment} (stands : segment.Stands after)
    (visible : segment.isSkipped = false)
    (left : Left input state.position (segment.bytes ++ after)) :
    Reads (readToken input state) state segment := by
  cases stands with
  | blank | comment => cases visible
  | @symbol symbol after ends noComment =>
      rcases symbol.spelling_cases with ⟨first, spelled⟩ | ⟨first, second, spelled, _⟩
      · simp only [Segment.bytes, spelled] at left ⊢
        rw [readToken_of_symbol left spelled]
        exact reads_single ends left
      · obtain ⟨single, extends_⟩ := Symbol.exists_withEqual? spelled
        obtain ⟨first, singleSpelled, doubleSpelled⟩ := Symbol.spelling_of_withEqual? extends_
        simp only [Segment.bytes, doubleSpelled] at left ⊢
        rw [readToken_of_symbol left singleSpelled]
        exact reads_double extends_ left
  | string closed =>
      rw [readToken_of_quote left]
      exact reads_string closed left
  | unclosed unclosed =>
      rw [List.append_nil] at left
      rw [readToken_of_quote left]
      exact reads_unclosed unclosed left
  | integer nonempty each ends noFraction =>
      obtain ⟨first, digits, rfl⟩ := List.exists_cons_of_ne_nil nonempty
      obtain ⟨isDigit, others⟩ := List.forall_mem_cons.mp each
      have oneLine : Text.newline ∉ first :: digits := newline_not_mem (by decide) each
      rw [readToken_of_digit isDigit left]
      exact reads_number left (skipNumeral_integer others ends noFraction left.next) oneLine
  | @decimal whole fraction after nonempty each some others ends =>
      obtain ⟨first, digits, rfl⟩ := List.exists_cons_of_ne_nil nonempty
      obtain ⟨isDigit, more⟩ := List.forall_mem_cons.mp each
      have oneLine : Text.newline ∉ first :: digits ++ Segment.point :: fraction := by
        refine List.not_mem_append (newline_not_mem (by decide) each) ?_
        exact List.not_mem_cons_of_ne_of_not_mem (by decide) (newline_not_mem (by decide) others)
      rw [readToken_of_digit isDigit left]
      exact reads_number left (skipNumeral_decimal more some others ends left.next) oneLine
  | @keyword keyword after ends =>
      obtain ⟨nonempty, letters⟩ := keyword.isLetter_spelling
      obtain ⟨first, others, spelled⟩ := List.exists_cons_of_ne_nil nonempty
      have isKeyword : Segment.wordKind (first :: others) = .keyword keyword := by
        rw [Segment.wordKind, ← spelled, keyword.ofText?_spelling]
      simp only [Segment.bytes] at left
      rw [spelled] at left letters ⊢
      obtain ⟨letter, each⟩ := List.forall_mem_cons.mp letters
      rw [readToken_of_letter letter left]
      have reads := reads_word (Segment.isWordByte_of_isLetter letter)
        (fun byte member => Segment.isWordByte_of_isLetter (each byte member)) ends
        (by rw [isKeyword]; rfl) left
      rwa [isKeyword] at reads
  | @identifier first others after letter each ends free =>
      have isName : Segment.wordKind (first :: others) = .identifier := by
        rw [Segment.wordKind, Keyword.ofText?_eq_none_iff.mpr free]
      rw [readToken_of_letter letter left]
      have reads := reads_word (Segment.isWordByte_of_isLetter letter) each ends
        (by rw [isName]; rfl) left
      rwa [isName] at reads
  | stray notBlank notQuote notDigit notLetter notSymbol =>
      exact reads_stray notBlank notQuote notDigit notLetter notSymbol left

end Tokens

/-! ## Whole texts -/

section Runs

variable {input text : Text} {segments : List Segment} {state : State}

theorem isSkipped_cut {first : UInt8} {rest : Text}
    (visible : (Segment.cut first rest).1.isSkipped = false) :
    Segment.isBlank first = false ∧ (first = Segment.slash → rest.head? ≠ some Segment.slash) := by
  unfold Segment.cut at visible
  split at visible
  · cases visible
  · next notBlank =>
      refine ⟨Bool.eq_false_iff.mpr notBlank, fun isSlash follows => ?_⟩
      simp [isSlash, follows, Segment.isSkipped] at visible

/-- Blanks and comments are skipped, in no more rounds than they have bytes. -/
theorem skipBlanks_of_isSkipped {segment : Segment} {after : Text} (stands : segment.Stands after)
    (isSkipped : segment.isSkipped = true)
    (left : Left input state.position (segment.bytes ++ after)) :
    ∃ used ≤ segment.bytes.length, ∀ rounds, skipBlanks input (rounds + used) state =
      skipBlanks input rounds (state.past segment.bytes) := by
  cases stands with
  | @blank bytes after nonempty blanks ends =>
      exact ⟨bytes.length, Nat.le_refl _, fun rounds => skipBlanks_blank blanks left⟩
  | comment oneLine ends =>
      exact ⟨1, Nat.succ_le_succ (Nat.zero_le _), fun rounds => skipBlanks_comment oneLine ends left⟩
  | symbol | string | integer | decimal | keyword | identifier | stray | unclosed => cases isSkipped

/-- Skipping comes to the first segment that is more than blanks or a comment. -/
theorem skipBlanks_eq (splits : Segment.Splits text segments)
    (left : Left input state.position text) {rounds : Nat} (enough : text.length < rounds) :
    ∃ skipped rest others, skipBlanks input rounds state = some (state.past skipped) ∧
      text = skipped ++ rest ∧ Segment.Splits rest others ∧
      (∀ segment ∈ others.head?, segment.isSkipped = false) ∧
      Scan.ofSegments state.line segments = Scan.ofSegments (state.past skipped).line others := by
  induction splits generalizing state rounds with
  | nil =>
      obtain ⟨rounds, rfl⟩ := Nat.exists_eq_succ_of_ne_zero (Nat.ne_zero_of_lt enough)
      have stops : skipBlanks input (rounds + 1) state = some state :=
        skipBlanks_stop left (by simp) (by simp)
      exact ⟨[], [], [], stops, rfl, .nil, by simp, rfl⟩
  | @cons segment after segments stands splits ih =>
      cases isSkipped : segment.isSkipped with
      | false =>
          obtain ⟨rounds, rfl⟩ := Nat.exists_eq_succ_of_ne_zero (Nat.ne_zero_of_lt enough)
          obtain ⟨first, rest, shape, cuts⟩ := stands.cutsTo
          have visible : (Segment.cut first rest).1.isSkipped = false := by rw [cuts, isSkipped]
          obtain ⟨notBlank, noComment⟩ := isSkipped_cut visible
          have stops : skipBlanks input (rounds + 1) state = some state := by
            rw [shape] at left
            refine skipBlanks_stop left (by simpa using notBlank) fun more same => ?_
            cases same
            exact noComment rfl rfl
          exact ⟨[], _, segment :: segments, stops, rfl, .cons stands splits, by simpa, rfl⟩
      | true =>
          obtain ⟨used, few, skips⟩ := skipBlanks_of_isSkipped stands isSkipped left
          rw [List.length_append] at enough
          obtain ⟨rounds, rfl⟩ := Nat.exists_eq_add_of_le' (by omega : used ≤ rounds)
          obtain ⟨skipped, rest, others, comes, shape, restSplits, visible, same⟩ :=
            @ih (state.past segment.bytes) left.skip rounds (by omega)
          refine ⟨segment.bytes ++ skipped, rest, others, ?_, ?_, restSplits, visible, ?_⟩
          · rw [skips, comes, past_append]
          · rw [shape, List.append_assoc]
          · rw [past_append, ← same]
            cases segment with
            | blank | comment => rfl
            | lexeme | stray | unclosed => cases isSkipped

theorem length_pos_of_stands {segment : Segment} {after : Text} (stands : segment.Stands after) :
    after.length < (segment.bytes ++ after).length := by
  obtain ⟨first, rest, shape, cuts⟩ := stands.cutsTo
  have shorter := Segment.length_cut_le first rest
  rw [cuts] at shorter
  rw [shape]
  exact Nat.lt_succ_of_le shorter

/-- Reading at positions gives the scan of the segments. -/
theorem readAll_eq (splits : Segment.Splits text segments)
    (left : Left input state.position text) {rounds : Nat} (enough : text.length < rounds) :
    readAll input rounds state = some (Scan.ofSegments state.line segments) := by
  induction rounds generalizing text segments state with
  | zero => cases enough
  | succ rounds ih =>
      obtain ⟨skipped, rest, others, comes, rfl, restSplits, visible, same⟩ :=
        skipBlanks_eq splits left enough
      have there : Left input (state.past skipped).position rest := left.skip
      have atEnd := there.atEnd_eq
      rw [readAll, comes, same]
      cases restSplits with
      | nil => simp [atEnd, Scan.ofSegments]
      | @cons segment after segments stands afterSplits =>
          have shorter := length_pos_of_stands stands
          obtain ⟨found, reads, adds⟩ := reads_of_stands stands (visible segment rfl) there
          have notEnd : (segment.bytes ++ after).isEmpty = false := by
            rw [List.isEmpty_eq_false_iff]
            exact List.ne_nil_of_length_pos (Nat.zero_lt_of_lt shorter)
          rw [List.length_append] at enough
          have later := @ih after segments ((state.past skipped).past segment.bytes) afterSplits
            there.skip (by omega)
          rw [adds]
          cases found with
          | token | problem | overflow => simp [atEnd, notEnd, reads, later, Found.before]

/-- Reading at positions is reading segments: no look at the text fails, and the loops end. -/
theorem scan?_eq {rounds : Nat} {source : Text} (enough : source.length < rounds) :
    scan? rounds source = some (Scan.ofSource source) :=
  readAll_eq (Segment.splits_ofText source) (Left.start source) enough

end Runs

end Scanner

end Loxley
