import Loxley.Yaml.Token.Scalar

/-!
# Anchors, tags and directives

The tokens that give nodes names and types, and the directives at the start of a document.
-/

set_option autoImplicit false

namespace Loxley.Yaml

/-- The ASCII letters, digits, hyphens and underscores at the start of some characters. -/
def wordOf (runes : List Rune) : List Rune :=
  runes.takeWhile fun rune => isWordCode rune.code

/-! ## Anchors and aliases -/

/-- The characters other than blanks and line ends that may follow the name of an anchor. -/
def isNameEnd (rune : Rune) : Bool :=
  rune.code == 63 || rune.code == 58 || rune.code == 44 || rune.code == 93 || rune.code == 125 ||
    rune.code == 37 || rune.code == 64 || rune.code == 96

/-- The name of an anchor or alias after its mark. -/
def Cursor.anchorName (cursor : Cursor) : Except Error (Text × Cursor) :=
  let name := wordOf (cursor.rest.drop 1)
  let after := cursor.skip (name.length + 1)
  if name.isEmpty || !(startsBlank after.rest || after.rest.head?.any isNameEnd) then
    .error (.inToken .noAnchorName cursor.line cursor.line)
  else .ok (Rune.toText name, after)

/-! ## Tags -/

/-- The characters that may stand in the address of a tag as they are, besides those of words. -/
def addressMarks : List Nat :=
  [59, 47, 63, 58, 64, 38, 61, 43, 36, 44, 46, 33, 126, 42, 39, 40, 41, 91, 93]

/-- A byte written as a percent sign and two hexadecimal digits. -/
def escapedByte? (runes : List Rune) : Option UInt8 :=
  if startsWith 37 runes then (hexNumber? 2 (runes.drop 1)).map (·.toUInt8) else none

/-- The bytes of a character of which each is escaped, with the number of characters they take. -/
def escapedCharacter (runes : List Rune) : Except Problem (Text × Nat) :=
  match escapedByte? runes with
  | none => .error .noEscapedByte
  | some lead =>
    match announced lead with
    | none => .error .badEscapedLead
    | some length =>
      let places := (List.range (length - 1)).map fun index => runes.drop (3 * (index + 1))
      match places.mapM escapedByte? with
      | none => .error .noEscapedByte
      | some trail =>
        if trail.all Rune.isContinuation then .ok (lead :: trail, 3 * length)
        else .error .badEscapedTrail

/-- The address at the start of some characters, after passing over some, and its length. -/
def addressFrom : Nat → List Rune → Except Problem (Text × Nat)
  | _, [] => .ok ([], 0)
  | skip + 1, _ :: rest =>
    match addressFrom skip rest with
    | .error problem => .error problem
    | .ok (bytes, length) => .ok (bytes, length + 1)
  | 0, rune :: rest =>
    if rune.code == 37 then
      match escapedCharacter (rune :: rest) with
      | .error problem => .error problem
      | .ok (character, taken) =>
        match addressFrom (taken - 1) rest with
        | .error problem => .error problem
        | .ok (bytes, length) => .ok (character ++ bytes, length + 1)
    else if isWordCode rune.code || addressMarks.contains rune.code then
      match addressFrom 0 rest with
      | .error problem => .error problem
      | .ok (bytes, length) => .ok (rune.bytes ++ bytes, length + 1)
    else .ok ([], 0)

def Cursor.address (cursor : Cursor) : Except Problem (Text × Cursor) :=
  match addressFrom 0 cursor.rest with
  | .error problem => .error problem
  | .ok (address, length) => .ok (address, cursor.skip length)

/-- The handle at the start of a tag: a mark and a word, and another mark if there is one. -/
def Cursor.handle (cursor : Cursor) : Text × Cursor :=
  let word := wordOf (cursor.rest.drop 1)
  let after := cursor.skip (word.length + 1)
  if startsWith 33 after.rest then (33 :: Rune.toText word ++ [33], after.skip 1)
  else (33 :: Rune.toText word, after)

/-- Whether a handle has a mark at both ends. -/
def isWholeHandle (handle : Text) : Bool :=
  1 < handle.length && handle.getLast? == some 33

/-- The handle and the suffix of a tag; one that is written in full has no handle. -/
def Cursor.tagParts (cursor : Cursor) : Except Problem ((Text × Text) × Cursor) :=
  if startsWith 60 (cursor.rest.drop 1) then
    match (cursor.skip 2).address with
    | .error problem => .error problem
    | .ok (address, after) =>
      if address.isEmpty then .error .noTagAddress
      else if !startsWith 62 after.rest then .error .noTagAngle
      else .ok (([], address), after.skip 1)
  else
    match cursor.handle with
    | (handle, afterHandle) =>
      match afterHandle.address with
      | .error problem => .error problem
      | .ok (address, after) =>
        if isWholeHandle handle then
          if address.isEmpty then .error .noTagAddress else .ok ((handle, address), after)
        else
          let suffix := handle.drop 1 ++ address
          if suffix.isEmpty then .ok (([], [33]), after) else .ok (([33], suffix), after)

def Cursor.tag (cursor : Cursor) : Except Error (TokenKind × Cursor) :=
  match cursor.tagParts with
  | .error problem => .error (.inToken problem cursor.line cursor.line)
  | .ok ((handle, suffix), after) =>
    if startsBlank after.rest then .ok (.tag handle suffix, after)
    else .error (.inToken .noTagEnd cursor.line cursor.line)

/-! ## Directives -/

/-- A number of at most two digits. -/
def Cursor.versionNumber (cursor : Cursor) : Except Problem (Nat × Cursor) :=
  let digits := cursor.rest.takeWhile fun rune => 48 ≤ rune.code && rune.code ≤ 57
  if digits.isEmpty then .error .noVersion
  else if 2 < digits.length then .error .longVersion
  else .ok (Text.value (Rune.toText digits), cursor.skip digits.length)

def Cursor.version (cursor : Cursor) : Except Problem (TokenKind × Cursor) :=
  match cursor.versionNumber with
  | .error problem => .error problem
  | .ok (major, after) =>
    if !startsWith 46 after.rest then .error .noVersionPoint
    else
      match (after.skip 1).versionNumber with
      | .error problem => .error problem
      | .ok (minor, after) => .ok (.version major minor, after)

/-- A handle and the address for which it stands. -/
def Cursor.tagHandle (cursor : Cursor) : Except Problem (TokenKind × Cursor) :=
  if !startsWith 33 cursor.rest then .error .noTagMark
  else
    match cursor.handle with
    | (handle, afterHandle) =>
      if !isWholeHandle handle && handle ≠ [33] then .error .noTagMark
      else if !afterHandle.rest.head?.any isBlank then .error .noTagBlank
      else
        match (afterHandle.skipWhile isBlank).address with
        | .error problem => .error problem
        | .ok (address, after) =>
          if address.isEmpty then .error .noTagAddress
          else if !startsBlank after.rest then .error .noTagLineEnd
          else .ok (.tagHandle handle address, after)

/-- A directive after its mark, up to what it says. -/
def Cursor.directiveBody (cursor : Cursor) : Except Problem (TokenKind × Cursor) :=
  let name := wordOf cursor.rest
  let after := cursor.skip name.length
  if name.isEmpty then .error .noDirectiveName
  else if !startsBlank after.rest then .error .badDirectiveName
  else if Rune.toText name = ("YAML" : Text) then (after.skipWhile isBlank).version
  else if Rune.toText name = ("TAG" : Text) then (after.skipWhile isBlank).tagHandle
  else .error .unknownDirective

/-- The directive that starts here; it takes its whole line. -/
def Cursor.directive (cursor : Cursor) : Except Error (TokenKind × Cursor) :=
  match (cursor.skip 1).directiveBody with
  | .error problem => .error (.inToken problem cursor.line cursor.line)
  | .ok (kind, after) =>
    let lineEnd := after.skipComment.skipWhile isBlank
    if startsBreak lineEnd.rest then .ok (kind, lineEnd.skipBreak)
    else .error (.inToken .noDirectiveEnd cursor.line cursor.line)

end Loxley.Yaml
