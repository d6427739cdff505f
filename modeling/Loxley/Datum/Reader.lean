import Loxley.Datum

/-!
# Reading symbolic data

The text of data is cut into pieces from left to right, and a stack of open lists turns the pieces
into data. Bytes are classified as Latin-1 characters, and a zero byte ends the text. The first fault
from the left is the one that is reported.
-/

set_option autoImplicit false

namespace Loxley.Datum

/-- Why a text is no sequence of data. -/
inductive ReadError where
  | unexpectedCharacter (byte : UInt8)
  | invalidEscape (byte : UInt8)
  | unterminatedString
  /-- A closing parenthesis without an opening one, with its offset in bytes. -/
  | unexpectedClose (offset : Nat)
  /-- An opening parenthesis without a closing one. -/
  | unclosedList
  /-- A text that should hold one datum holds another number of them. -/
  | notOne (count : Nat)
deriving DecidableEq

namespace ReadError

/-- A Latin-1 character in UTF-8. -/
def character (byte : UInt8) : Text :=
  if byte < 128 then [byte] else [192 + byte / 64, 128 + byte % 64]

def message : ReadError → Text
  | unexpectedCharacter byte =>
    ("unexpected character '" : Text) ++ character byte ++ ("'" : Text)
  | invalidEscape byte => ("invalid escape sequence: \\" : Text) ++ character byte
  | unterminatedString => "unterminated string"
  | unexpectedClose offset =>
    ("offset " : Text) ++ Text.ofNat offset ++ (": unexpected token: ')'" : Text)
  | unclosedList => "expected ')' but got EOF"
  | notOne count => ("expected one datum but got " : Text) ++ Text.ofNat count

end ReadError

/-- White space among the Latin-1 characters. -/
def isSpace (byte : UInt8) : Bool :=
  (9 ≤ byte && byte ≤ 13) || byte == 32 || byte == 133 || byte == 160

/-- A letter among the Latin-1 characters. -/
def isLetter (byte : UInt8) : Bool :=
  (97 ≤ byte && byte ≤ 122) || (65 ≤ byte && byte ≤ 90) || byte == 170 || byte == 181 ||
    byte == 186 || (192 ≤ byte && byte ≤ 214) || (216 ≤ byte && byte ≤ 246) || 248 ≤ byte

/-- The operator characters that symbols may contain. -/
def operatorBytes : Text := "-_+*/<>=!?"

def isSymbolByte (byte : UInt8) : Bool :=
  isLetter byte || Text.isDigit byte || operatorBytes.contains byte

def isSign (byte : UInt8) : Bool :=
  byte == 43 || byte == 45

/-- A byte that a comment goes on with. -/
def continuesComment (byte : UInt8) : Bool :=
  byte != 10 && byte != 13 && byte != 0

/-- The byte that an escaped character stands for. -/
def unescape? (byte : UInt8) : Option UInt8 :=
  if byte == 34 then some 34
  else if byte == 92 then some 92
  else if byte == 110 then some 10
  else none

/-- The contents of a string after its opening quote, and the text after its closing one. -/
def readString : Text → Except ReadError (Text × Text)
  | [] => .error .unterminatedString
  | byte :: rest =>
    if byte == 34 then .ok ([], rest)
    else if byte == 0 then .error .unterminatedString
    else if byte == 92 then
      match rest with
      | [] => .error (.invalidEscape 0)
      | escaped :: after =>
        match unescape? escaped with
        | none => .error (.invalidEscape escaped)
        | some decoded =>
          match readString after with
          | .error problem => .error problem
          | .ok (text, final) => .ok (decoded :: text, final)
    else
      match readString rest with
      | .error problem => .error problem
      | .ok (text, final) => .ok (byte :: text, final)

/-- Splits off a number: all leading digits, and a point with more digits if a digit follows it. -/
def cutDigits (text : Text) : Text × Text :=
  let whole := text.takeWhile Text.isDigit
  match text.dropWhile Text.isDigit with
  | point :: digit :: after =>
    if point == 46 && Text.isDigit digit then
      (whole ++ point :: (digit :: after).takeWhile Text.isDigit,
        (digit :: after).dropWhile Text.isDigit)
    else (whole, point :: digit :: after)
  | after => (whole, after)

/-- The words of which the text of data consists. -/
inductive Lexeme where
  | opening
  | closing
  | atom (datum : Datum)
deriving BEq

/-- The first word of a text, or nothing for a blank or a comment, and the text after it. -/
structure Cut where
  lexeme : Option Lexeme
  rest : Text

/-- Splits the first word, blank or comment off a text that does not start with a zero byte. -/
def cut (first : UInt8) (rest : Text) : Except ReadError Cut :=
  if isSpace first then .ok { lexeme := none, rest }
  else if first == 59 then .ok { lexeme := none, rest := rest.dropWhile continuesComment }
  else if first == 40 then .ok { lexeme := some .opening, rest }
  else if first == 41 then .ok { lexeme := some .closing, rest }
  else if first == 34 then
    match readString rest with
    | .error problem => .error problem
    | .ok (text, after) => .ok { lexeme := some (.atom (.string text)), rest := after }
  else if first == 46 then
    match rest with
    | 46 :: 46 :: after => .ok { lexeme := some (.atom .ellipsis), rest := after }
    | _ => .error (.unexpectedCharacter 46)
  else if Text.isDigit first then
    let digits := cutDigits (first :: rest)
    .ok { lexeme := some (.atom (.number digits.1)), rest := digits.2 }
  else if isSign first && rest.head?.any Text.isDigit then
    let digits := cutDigits rest
    .ok { lexeme := some (.atom (.number (first :: digits.1))), rest := digits.2 }
  else if isSymbolByte first then
    .ok { lexeme := some (.atom (.symbol (first :: rest.takeWhile isSymbolByte)))
          rest := rest.dropWhile isSymbolByte }
  else .error (.unexpectedCharacter first)

theorem length_readString_lt {text decoded final : Text}
    (read : readString text = .ok (decoded, final)) : final.length < text.length := by
  fun_induction readString text generalizing decoded final <;>
    grind [List.length_cons]

theorem length_cutDigits_le (text : Text) : (cutDigits text).2.length ≤ text.length := by
  have dropped : (text.dropWhile Text.isDigit).length ≤ text.length :=
    (List.dropWhile_suffix Text.isDigit).length_le
  unfold cutDigits
  split
  · rename_i point digit after shape
    have shorter : ((digit :: after).dropWhile Text.isDigit).length ≤ (digit :: after).length :=
      (List.dropWhile_suffix Text.isDigit).length_le
    rw [shape] at dropped
    split <;> grind
  · exact dropped

theorem length_cutDigits_cons_le {first : UInt8} {rest : Text}
    (isDigit : Text.isDigit first = true) :
    (cutDigits (first :: rest)).2.length ≤ rest.length := by
  have dropped : (rest.dropWhile Text.isDigit).length ≤ rest.length :=
    (List.dropWhile_suffix Text.isDigit).length_le
  rw [← List.dropWhile_cons_of_pos isDigit] at dropped
  unfold cutDigits
  split
  · rename_i point digit after shape
    have shorter : ((digit :: after).dropWhile Text.isDigit).length ≤ (digit :: after).length :=
      (List.dropWhile_suffix Text.isDigit).length_le
    rw [shape] at dropped
    split <;> grind
  · exact dropped

/-- Cutting takes at least the first byte. -/
theorem length_cut_le {first : UInt8} {rest : Text} {result : Cut}
    (taken : cut first rest = .ok result) : result.rest.length ≤ rest.length := by
  have comment : (rest.dropWhile continuesComment).length ≤ rest.length :=
    (List.dropWhile_suffix continuesComment).length_le
  have symbol : (rest.dropWhile isSymbolByte).length ≤ rest.length :=
    (List.dropWhile_suffix isSymbolByte).length_le
  have signed := length_cutDigits_le rest
  have unsigned := @length_cutDigits_cons_le first rest
  have string := @length_readString_lt rest
  revert taken
  fun_cases cut first rest <;> grind [List.length_cons]

/-- The words of a text with their offsets, up to the first fault among them. -/
structure Lexing where
  lexemes : List (Nat × Lexeme)
  problem : Option ReadError

/-- The words of a text that starts at an offset. A zero byte ends the text. -/
def lex (offset : Nat) : Text → Lexing
  | [] => { lexemes := [], problem := none }
  | first :: rest =>
    if first == 0 then { lexemes := [], problem := none }
    else
      match _taken : cut first rest with
      | .error problem => { lexemes := [], problem := some problem }
      | .ok result =>
        let others := lex (offset + (rest.length + 1 - result.rest.length)) result.rest
        match result.lexeme with
        | none => others
        | some lexeme => { others with lexemes := (offset, lexeme) :: others.lexemes }
termination_by text => text.length
decreasing_by
  exact Nat.lt_succ_of_le (length_cut_le _taken)

/-- Adds a datum to the innermost open list. -/
def addTo (datum : Datum) : List (List Datum) → List (List Datum)
  | [] => [[datum]]
  | items :: outer => (datum :: items) :: outer

/--
Builds data from words. The stack holds the items read so far, latest first, of the innermost open
list, then of the list around it, and so on down to the data outside any list. A fault among the words
counts before a list that is left open.
-/
def build (problem : Option ReadError) :
    List (List Datum) → List (Nat × Lexeme) → Except ReadError (List Datum)
  | stack, [] =>
    match problem, stack with
    | some fault, _ => .error fault
    | none, [items] => .ok items.reverse
    | none, _ => .error .unclosedList
  | stack, (_, .opening) :: rest => build problem ([] :: stack) rest
  | stack, (_, .atom datum) :: rest => build problem (addTo datum stack) rest
  | items :: outer :: others, (_, .closing) :: rest =>
    build problem (addTo (.list items.reverse) (outer :: others)) rest
  | _, (offset, .closing) :: _ => .error (.unexpectedClose offset)

def readAll (text : Text) : Except ReadError (List Datum) :=
  let lexing := lex 0 text
  build lexing.problem [[]] lexing.lexemes

/-- Reads a text that holds exactly one datum. -/
def read (text : Text) : Except ReadError Datum :=
  match readAll text with
  | .error problem => .error problem
  | .ok [datum] => .ok datum
  | .ok data => .error (.notOne data.length)

end Loxley.Datum
