import Loxley.Text

/-!
# Characters in byte text

Byte text read as UTF-8, for the few places that look at whole characters. A byte that starts no valid
sequence counts as one replacement character.
-/

set_option autoImplicit false

namespace Loxley

/-- A character in a byte text. -/
structure Rune where
  /-- The code point. -/
  code : Nat
  /-- The bytes that stand for it in the text. -/
  bytes : Text
deriving DecidableEq

namespace Rune

def replacement : Nat := 0xFFFD

/-- The UTF-8 encoding of a code point. -/
def encode (code : Nat) : Text :=
  String.utf8EncodeChar (Char.ofNat code)

/-- A byte that continues a sequence. -/
def isContinuation (byte : UInt8) : Bool :=
  128 ≤ byte && byte ≤ 191

/-- The six bits of a byte that continues a sequence. -/
def payload (byte : UInt8) : Nat :=
  byte.toNat % 64

/-- The bytes that may come second in a sequence, given the first: no longer form than needed, no
surrogates, nothing above the last code point. -/
def isSecond (first second : UInt8) : Bool :=
  isContinuation second &&
    !(first == 0xE0 && second < 0xA0) && !(first == 0xED && 0xA0 ≤ second) &&
    !(first == 0xF0 && second < 0x90) && !(first == 0xF4 && 0x90 ≤ second)

/-- The first character of a nonempty text. -/
def first (lead : UInt8) (rest : Text) : Rune :=
  let invalid : Rune := { code := replacement, bytes := [lead] }
  if lead < 0x80 then { code := lead.toNat, bytes := [lead] }
  else if lead < 0xC2 || 0xF4 < lead then invalid
  else if lead < 0xE0 then
    match rest with
    | second :: _ =>
      if isContinuation second then
        { code := lead.toNat % 32 * 64 + payload second, bytes := [lead, second] }
      else invalid
    | _ => invalid
  else if lead < 0xF0 then
    match rest with
    | second :: third :: _ =>
      if isSecond lead second && isContinuation third then
        { code := lead.toNat % 16 * 4096 + payload second * 64 + payload third
          bytes := [lead, second, third] }
      else invalid
    | _ => invalid
  else
    match rest with
    | second :: third :: fourth :: _ =>
      if isSecond lead second && isContinuation third && isContinuation fourth then
        { code := lead.toNat % 8 * 262144 + payload second * 4096 + payload third * 64 +
            payload fourth
          bytes := [lead, second, third, fourth] }
      else invalid
    | _ => invalid

/-- The characters of a text after skipping some bytes. -/
def ofTextFrom : Nat → Text → List Rune
  | _, [] => []
  | skip + 1, _ :: rest => ofTextFrom skip rest
  | 0, lead :: rest =>
    let rune := first lead rest
    rune :: ofTextFrom (rune.bytes.length - 1) rest

def ofText (text : Text) : List Rune :=
  ofTextFrom 0 text

/-- The bytes of characters, one after the other. -/
def toText (runes : List Rune) : Text :=
  runes.flatMap (·.bytes)

/-- A character with the white space property. -/
def isSpace (rune : Rune) : Bool :=
  (9 ≤ rune.code && rune.code ≤ 13) || rune.code == 32 || rune.code == 0x85 ||
    rune.code == 0xA0 || rune.code == 0x1680 || (0x2000 ≤ rune.code && rune.code ≤ 0x200A) ||
    rune.code == 0x2028 || rune.code == 0x2029 || rune.code == 0x202F || rune.code == 0x205F ||
    rune.code == 0x3000

/--
The code point of a character in lower case, as far as it is an ASCII letter. Besides the capital
ASCII letters, those are the dotted capital I and the Kelvin sign.
-/
def lowerCode (rune : Rune) : Nat :=
  if 65 ≤ rune.code && rune.code ≤ 90 then rune.code + 32
  else if rune.code == 0x130 then 105
  else if rune.code == 0x212A then 107
  else rune.code

end Rune

namespace Text

/-- The text without white space at either end. -/
def trimSpace (text : Text) : Text :=
  let runes := (Rune.ofText text).dropWhile Rune.isSpace
  Rune.toText (runes.reverse.dropWhile Rune.isSpace).reverse

/-- The first word of a text, in lower case as far as ASCII letters are concerned. -/
def firstWordLower (text : Text) : Text :=
  let runes := (Rune.ofText text).dropWhile Rune.isSpace
  (runes.takeWhile (!·.isSpace)).flatMap fun rune => Rune.encode rune.lowerCode

end Text

end Loxley
