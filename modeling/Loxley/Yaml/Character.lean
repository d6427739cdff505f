import Loxley.Yaml.Problem

/-!
# The characters of a YAML document

A document is read as UTF-8, or as UTF-16 if a mark at its start says so. Every line end is then one
character: a newline stands for the common ones, while the separators of lines and paragraphs stay.
-/

set_option autoImplicit false

namespace Loxley.Yaml

/-- The characters that a document may contain. -/
def isAllowed (code : Nat) : Bool :=
  code == 9 || code == 10 || code == 13 || (32 ≤ code && code ≤ 126) || code == 0x85 ||
    (0xA0 ≤ code && code ≤ 0xD7FF) || (0xE000 ≤ code && code ≤ 0xFFFD) ||
    (0x10000 ≤ code && code ≤ 0x10FFFF)

/-- A character that a document may contain. -/
def allowed (rune : Rune) : Except Error Rune :=
  if isAllowed rune.code then .ok rune else .error { problem := .controlCharacter }

/-! ## UTF-8 -/

/-- The number of bytes that a leading byte announces. -/
def announced (lead : UInt8) : Option Nat :=
  if lead < 0x80 then some 1
  else if 0xC0 ≤ lead && lead < 0xE0 then some 2
  else if 0xE0 ≤ lead && lead < 0xF0 then some 3
  else if 0xF0 ≤ lead && lead < 0xF8 then some 4
  else none

/-- The bits of a leading byte that count, given the number of bytes. -/
def leadBits (length : Nat) (lead : UInt8) : Nat :=
  match length with
  | 1 => lead.toNat
  | 2 => lead.toNat % 32
  | 3 => lead.toNat % 16
  | _ => lead.toNat % 8

/-- The least code point that needs a number of bytes. -/
def leastCode (length : Nat) : Nat :=
  match length with
  | 1 => 0
  | 2 => 0x80
  | 3 => 0x800
  | _ => 0x10000

/-- The first character of a text, which starts with a byte. -/
def firstCharacter (lead : UInt8) (rest : Text) : Except Error Rune :=
  match announced lead with
  | none => .error { problem := .invalidLead }
  | some length =>
    let trail := rest.take (length - 1)
    if trail.length < length - 1 then .error { problem := .incompleteSequence }
    else if !trail.all Rune.isContinuation then .error { problem := .invalidTrail }
    else
      let code := trail.foldl (fun total byte => total * 64 + Rune.payload byte)
        (leadBits length lead)
      if code < leastCode length then .error { problem := .invalidLength }
      else if (0xD800 ≤ code && code ≤ 0xDFFF) || 0x10FFFF < code then
        .error { problem := .invalidCharacter }
      else allowed { code, bytes := lead :: trail }

/-- The characters of a text after skipping some bytes. -/
def charactersFrom : Nat → Text → Except Error (List Rune)
  | _, [] => .ok []
  | skip + 1, _ :: rest => charactersFrom skip rest
  | 0, lead :: rest =>
    match firstCharacter lead rest with
    | .error problem => .error problem
    | .ok rune =>
      match charactersFrom (rune.bytes.length - 1) rest with
      | .error problem => .error problem
      | .ok runes => .ok (rune :: runes)

/-! ## UTF-16 -/

/-- The units of a text, with the byte that comes first in each. -/
def units (bigFirst : Bool) : Text → Except Error (List Nat)
  | [] => .ok []
  | [_] => .error { problem := .incompleteUnit }
  | first :: second :: rest =>
    match units bigFirst rest with
    | .error problem => .error problem
    | .ok others =>
      let unit :=
        if bigFirst then first.toNat * 256 + second.toNat else second.toNat * 256 + first.toNat
      .ok (unit :: others)

/-- The characters of units; two surrogates make up one character. -/
def ofUnits : List Nat → Except Error (List Rune)
  | [] => .ok []
  | unit :: rest =>
    if 0xDC00 ≤ unit && unit ≤ 0xDFFF then .error { problem := .unexpectedLowUnit }
    else if 0xD800 ≤ unit && unit ≤ 0xDBFF then
      match rest with
      | [] => .error { problem := .incompletePair }
      | low :: others =>
        if 0xDC00 ≤ low && low ≤ 0xDFFF then
          let code := 0x10000 + (unit - 0xD800) * 1024 + (low - 0xDC00)
          match ofUnits others with
          | .error problem => .error problem
          | .ok runes => .ok ({ code, bytes := Rune.encode code } :: runes)
        else .error { problem := .expectedLowUnit }
    else
      match allowed { code := unit, bytes := Rune.encode unit }, ofUnits rest with
      | .ok rune, .ok runes => .ok (rune :: runes)
      | .error problem, _ => .error problem
      | .ok _, .error problem => .error problem

/-! ## Line ends -/

/-- A newline as a character. -/
def lineFeed : Rune where
  code := 10
  bytes := [Text.newline]

/-- The characters with every common line end made a newline, possibly after a carriage return. -/
def unifyFrom (afterReturn : Bool) : List Rune → List Rune
  | [] => []
  | rune :: rest =>
    if rune.code == 10 && afterReturn then unifyFrom false rest
    else if rune.code == 13 then lineFeed :: unifyFrom true rest
    else (if rune.code == 0x85 then lineFeed else rune) :: unifyFrom false rest

/-- The characters with every common line end made a newline. -/
def unifyLines (runes : List Rune) : List Rune :=
  unifyFrom false runes

def characters (document : Text) : Except Error (List Rune) :=
  let decoded :=
    match document with
    | 0xFF :: 0xFE :: rest => (units false rest).bind ofUnits
    | 0xFE :: 0xFF :: rest => (units true rest).bind ofUnits
    | 0xEF :: 0xBB :: 0xBF :: rest => charactersFrom 0 rest
    | _ => charactersFrom 0 document
  decoded.map unifyLines

def isBreak (rune : Rune) : Bool :=
  rune.code == 10 || rune.code == 0x2028 || rune.code == 0x2029

/-- A space or a tab. -/
def isBlank (rune : Rune) : Bool :=
  rune.code == 32 || rune.code == 9

/-- Whether the characters end, or go on with a blank or a line end. -/
def startsBlank (runes : List Rune) : Bool :=
  runes.head?.all fun rune => isBlank rune || isBreak rune

/-- Whether the characters end, or go on with a line end. -/
def startsBreak (runes : List Rune) : Bool :=
  runes.head?.all isBreak

/-- Whether the characters go on with one of a given code. -/
def startsWith (code : Nat) (runes : List Rune) : Bool :=
  runes.head?.any (·.code == code)

/-- A letter, a digit, a hyphen or an underscore of ASCII. -/
def isWordCode (code : Nat) : Bool :=
  (48 ≤ code && code ≤ 57) || (65 ≤ code && code ≤ 90) || (97 ≤ code && code ≤ 122) ||
    code == 95 || code == 45

end Loxley.Yaml
