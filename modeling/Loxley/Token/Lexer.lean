import Loxley.Diagnostic

/-!
# Reading tokens

Source text is first cut into segments: blanks, comments, lexemes, and the bytes that belong to
nothing. Concatenating the segments gives the source back. Tokens and diagnostics are then read off
the segments while counting lines.
-/

set_option autoImplicit false

namespace Loxley

/-- A piece of source text, cut off at the longest match. -/
inductive Segment where
  /-- Spaces, tabs, carriage returns and newlines. -/
  | blank (bytes : Text)
  /-- Two slashes and the rest of the line, without its newline. -/
  | comment (bytes : Text)
  /-- The text of one token. -/
  | lexeme (kind : TokenKind) (bytes : Text)
  /-- A byte that starts no token. -/
  | stray (byte : UInt8)
  /-- A string that runs to the end of the source without a closing quote. -/
  | unclosed (bytes : Text)
deriving DecidableEq

namespace Segment

def bytes : Segment → Text
  | blank bytes => bytes
  | comment bytes => bytes
  | lexeme _ bytes => bytes
  | stray byte => [byte]
  | unclosed bytes => bytes

/-- Whitespace between tokens. -/
def isBlank (byte : UInt8) : Bool :=
  byte == 32 || byte == 9 || byte == 13 || byte == 10

/-- A byte that continues a word. -/
def isWordByte (byte : UInt8) : Bool :=
  Text.isLetter byte || Text.isDigit byte

/-- The double quote, which opens and closes strings. -/
def quote : UInt8 := 34

/-- The slash, two of which open a comment. -/
def slash : UInt8 := 47

/-- The point between the whole and the fractional digits of a number. -/
def point : UInt8 := 46

/-- The kind of a word: keywords are reserved. -/
def wordKind (word : Text) : TokenKind :=
  match Keyword.ofText? word with
  | some keyword => .keyword keyword
  | none => .identifier

/-- Splits off a numeral: all leading digits, and a point with more digits if a digit follows it. -/
def cutNumeral (text : Text) : Text × Text :=
  let whole := text.takeWhile Text.isDigit
  match text.dropWhile Text.isDigit with
  | dot :: digit :: after =>
    if dot == point && Text.isDigit digit then
      (whole ++ dot :: (digit :: after).takeWhile Text.isDigit,
        (digit :: after).dropWhile Text.isDigit)
    else (whole, dot :: digit :: after)
  | after => (whole, after)

/-- Splits off a string after its opening quote, up to the next quote or else to the end. -/
def cutString (rest : Text) : Segment × Text :=
  match rest.dropWhile (· != quote) with
  | [] => (unclosed (quote :: rest), [])
  | closing :: after =>
    (lexeme .string (quote :: rest.takeWhile (· != quote) ++ [closing]), after)

/-- Splits off a symbol, of two bytes if there is one, or else the first byte alone. -/
def cutSymbol (first : UInt8) (rest : Text) : Segment × Text :=
  let single :=
    match Symbol.ofText? [first] with
    | some symbol => (lexeme (.symbol symbol) [first], rest)
    | none => (stray first, rest)
  match rest with
  | [] => single
  | second :: after =>
    match Symbol.ofText? [first, second] with
    | some symbol => (lexeme (.symbol symbol) [first, second], after)
    | none => single

/-- Splits the first segment off a nonempty text. -/
def cut (first : UInt8) (rest : Text) : Segment × Text :=
  if isBlank first then
    (blank (first :: rest.takeWhile isBlank), rest.dropWhile isBlank)
  else if first == slash && rest.head? == some slash then
    (comment (first :: rest.takeWhile (· != Text.newline)), rest.dropWhile (· != Text.newline))
  else if first == quote then cutString rest
  else if Text.isDigit first then
    let numeral := cutNumeral (first :: rest)
    (lexeme .number numeral.1, numeral.2)
  else if Text.isLetter first then
    let word := first :: rest.takeWhile isWordByte
    (lexeme (wordKind word) word, rest.dropWhile isWordByte)
  else cutSymbol first rest

theorem length_cutNumeral_lt {first : UInt8} {rest : Text} (isDigit : Text.isDigit first = true) :
    (cutNumeral (first :: rest)).2.length ≤ rest.length := by
  have dropped : ((first :: rest).dropWhile Text.isDigit).length ≤ rest.length := by
    rw [List.dropWhile_cons_of_pos isDigit]
    exact (List.dropWhile_suffix Text.isDigit).length_le
  unfold cutNumeral
  split
  · rename_i dot digit after shape
    split
    · have shorter : ((digit :: after).dropWhile Text.isDigit).length ≤ (digit :: after).length :=
        (List.dropWhile_suffix Text.isDigit).length_le
      rw [shape] at dropped
      simp only [List.length_cons] at dropped shorter ⊢
      omega
    · rw [shape] at dropped
      exact dropped
  · exact dropped

theorem length_cutString_le (rest : Text) : (cutString rest).2.length ≤ rest.length := by
  unfold cutString
  split
  · exact Nat.zero_le _
  · rename_i closing after shape
    have shorter : (rest.dropWhile (· != quote)).length ≤ rest.length :=
      (List.dropWhile_suffix (· != quote)).length_le
    rw [shape] at shorter
    exact Nat.le_of_succ_le shorter

theorem length_cutSymbol_le (first : UInt8) (rest : Text) :
    (cutSymbol first rest).2.length ≤ rest.length := by
  have single : (match Symbol.ofText? [first] with
      | some symbol => (lexeme (.symbol symbol) [first], rest)
      | none => (stray first, rest)).2 = rest := by
    split <;> rfl
  unfold cutSymbol
  dsimp only
  split
  · exact Nat.le_of_eq (congrArg List.length single)
  · split
    · exact Nat.le_succ _
    · exact Nat.le_of_eq (congrArg List.length single)

/-- A segment takes at least the first byte. -/
theorem length_cut_le (first : UInt8) (rest : Text) : (cut first rest).2.length ≤ rest.length := by
  unfold cut
  split
  · exact (List.dropWhile_suffix _).length_le
  · split
    · exact (List.dropWhile_suffix _).length_le
    · split
      · exact length_cutString_le rest
      · split
        · rename_i isDigit
          exact length_cutNumeral_lt isDigit
        · split
          · exact (List.dropWhile_suffix _).length_le
          · exact length_cutSymbol_le first rest

/-- The segments of a source text, in order. -/
def ofText : Text → List Segment
  | [] => []
  | first :: rest => (cut first rest).1 :: ofText (cut first rest).2
termination_by text => text.length
decreasing_by
  exact Nat.lt_succ_of_le (length_cut_le first rest)

/-- The value of a lexeme, or nothing for a numeral that is too large for a number. -/
def literal? (kind : TokenKind) (bytes : Text) : Option Literal :=
  match kind with
  | .number => (Decimal.ofNumeral bytes).toFloat?.map .number
  | .string => some (.string (bytes.drop 1).dropLast)
  | _ => some .nil

end Segment

/-- The outcome of reading a source text. -/
structure Scan where
  /-- The tokens read, the last of which marks the end unless a numeral overflowed. -/
  tokens : List Token
  diagnostics : List Diagnostic
  /-- The numeral that stopped the reading because it is too large. -/
  overflow : Option Text := none
deriving DecidableEq

namespace Scan

/-- The scan with one more token before it. -/
def withToken (token : Token) (scan : Scan) : Scan :=
  { scan with tokens := token :: scan.tokens }

/-- The scan with one more diagnostic before it. -/
def withDiagnostic (diagnostic : Diagnostic) (scan : Scan) : Scan :=
  { scan with diagnostics := diagnostic :: scan.diagnostics }

/-- Reads the tokens and diagnostics off segments that start on a given line. -/
def ofSegments (line : Nat) : List Segment → Scan
  | [] => { tokens := [{ kind := .endOfFile, lexeme := [], line := line }], diagnostics := [] }
  | segment :: rest =>
    let finish := line + segment.bytes.newlines
    match segment with
    | .blank _ => ofSegments finish rest
    | .comment _ => ofSegments finish rest
    | .stray _ =>
      (ofSegments finish rest).withDiagnostic (.onLine line .unexpectedCharacter)
    | .unclosed _ =>
      (ofSegments finish rest).withDiagnostic (.onLine finish .unterminatedString)
    | .lexeme kind bytes =>
      match Segment.literal? kind bytes with
      | none => { tokens := [], diagnostics := [], overflow := some bytes }
      | some literal =>
        (ofSegments finish rest).withToken { kind, lexeme := bytes, literal, line := finish }

def ofSource (source : Text) : Scan :=
  ofSegments 1 (Segment.ofText source)

/-- Reads a text in which a final zero byte is a terminator and not part of the source. -/
def ofTerminated (text : Text) : Scan :=
  ofSource (if text.getLast? = some 0 then text.dropLast else text)

end Scan

end Loxley
