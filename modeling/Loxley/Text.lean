/-!
# Byte text

Source code, names, string values, file contents and messages are all plain byte strings. Nothing
here assumes that they are valid UTF-8, so every length and every cut is measured in bytes.
-/

set_option autoImplicit false

namespace Loxley

/-- A byte string. -/
abbrev Text := List UInt8

namespace Text

/-- The UTF-8 bytes of a character string. -/
def ofString (string : String) : Text :=
  string.toUTF8.data.toList

instance : Coe String Text where
  coe := ofString

def newline : UInt8 := 10

/-- One of the ten ASCII digits. -/
def isDigit (byte : UInt8) : Bool :=
  48 ≤ byte && byte ≤ 57

/-- An ASCII letter of either case, or the underscore. -/
def isLetter (byte : UInt8) : Bool :=
  (97 ≤ byte && byte ≤ 122) || (65 ≤ byte && byte ≤ 90) || byte == 95

/-- The decimal numeral of a natural number, without leading zeros. -/
def ofNat (number : Nat) : Text :=
  if number < 10 then [48 + number.toUInt8]
  else ofNat (number / 10) ++ [48 + (number % 10).toUInt8]

/-- The decimal numeral of an integer, with a sign only when it is negative. -/
def ofInt : Int → Text
  | .ofNat number => ofNat number
  | .negSucc number => 45 :: ofNat (number + 1)

/-- The number that a run of digits denotes in base ten. -/
def value (digits : Text) : Nat :=
  digits.foldl (fun total digit => 10 * total + (digit.toNat - 48)) 0

/-- The texts one after the other, with a separator between neighbours. -/
def join (separator : Text) : List Text → Text
  | [] => []
  | [last] => last
  | first :: second :: rest => first ++ separator ++ join separator (second :: rest)

/-- How many bytes of the text are newlines. -/
def newlines (text : Text) : Nat :=
  text.count newline

/-- The pieces between the occurrences of a separating byte, the empty ones included. -/
def splitOn (separator : UInt8) : Text → List Text
  | [] => [[]]
  | byte :: rest =>
    if byte == separator then [] :: splitOn separator rest
    else match splitOn separator rest with
      | [] => [[byte]]
      | first :: others => (byte :: first) :: others

/-- The text without the longest run of bytes at its end that satisfy a predicate. -/
def trimRight (drop : UInt8 → Bool) (text : Text) : Text :=
  (text.reverse.dropWhile drop).reverse

/-- The text without its leading and trailing bytes that satisfy a predicate. -/
def trim (drop : UInt8 → Bool) (text : Text) : Text :=
  trimRight drop (text.dropWhile drop)

/-- The text without the given beginning, when it has it. -/
def strip? (beginning text : Text) : Option Text :=
  if beginning.isPrefixOf text then some (text.drop beginning.length) else none

/-- Byte-wise lexicographic order, in which a proper beginning comes first. -/
def le : Text → Text → Bool
  | [], _ => true
  | _ :: _, [] => false
  | left :: lefts, right :: rights =>
    left < right || (left == right && le lefts rights)

end Text

end Loxley
