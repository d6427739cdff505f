import Loxley.Text

/-!
# Base 64

Bytes written in groups of four characters of six bits each, the last of which is filled up with equals
signs.
-/

set_option autoImplicit false

namespace Loxley.Base64

/-- The six bits of a character. -/
def bits? (byte : UInt8) : Option Nat :=
  if 65 ≤ byte && byte ≤ 90 then some (byte.toNat - 65)
  else if 97 ≤ byte && byte ≤ 122 then some (byte.toNat - 71)
  else if 48 ≤ byte && byte ≤ 57 then some (byte.toNat + 4)
  else if byte == 43 then some 62
  else if byte == 47 then some 63
  else none

/-- The leading bytes of the 24 bits that four characters make up. -/
def group (count first second third fourth : Nat) : Text :=
  let word := ((first * 64 + second) * 64 + third) * 64 + fourth
  ([(word / 65536).toUInt8, (word / 256 % 256).toUInt8, (word % 256).toUInt8] : Text).take count

/-- The bytes of groups; only the last one may be filled up. -/
def decodeGroups? : Text → Option Text
  | [] => some []
  | [first, second, 61, 61] =>
    match bits? first, bits? second with
    | some a, some b => some (group 1 a b 0 0)
    | _, _ => none
  | [first, second, third, 61] =>
    match bits? first, bits? second, bits? third with
    | some a, some b, some c => some (group 2 a b c 0)
    | _, _, _ => none
  | first :: second :: third :: fourth :: rest =>
    match bits? first, bits? second, bits? third, bits? fourth, decodeGroups? rest with
    | some a, some b, some c, some d, some bytes => some (group 3 a b c d ++ bytes)
    | _, _, _, _, _ => none
  | _ => none

/-- The bytes that a text stands for. Line ends in it do not count. -/
def decode? (text : Text) : Option Text :=
  decodeGroups? (text.filter fun byte => byte != 10 && byte != 13)

end Loxley.Base64
