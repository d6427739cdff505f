import Loxley.Yaml.Character

/-!
# The tokens of a YAML document

Besides what is written, the tokens tell where block collections start and end, and which nodes are
keys.
-/

set_option autoImplicit false

namespace Loxley.Yaml

/-- The rest of a document with the place where it starts. -/
structure Cursor where
  rest : List Rune
  /-- The line, counted from zero. -/
  line : Nat := 0
  /-- The number of characters before the place on its line. -/
  column : Nat := 0

namespace Cursor

/-- Moves over characters of one line. -/
def skip (count : Nat) (cursor : Cursor) : Cursor :=
  { cursor with rest := cursor.rest.drop count, column := cursor.column + count }

/-- Moves over characters of one line that satisfy a predicate. -/
def skipWhile (test : Rune → Bool) (cursor : Cursor) : Cursor :=
  cursor.skip (cursor.rest.takeWhile test).length

def skipLine (cursor : Cursor) : Cursor :=
  cursor.skipWhile (!isBreak ·)

/-- Moves over a line end, if one stands here. -/
def skipBreak (cursor : Cursor) : Cursor :=
  match cursor.rest with
  | [] => cursor
  | rune :: rest => if isBreak rune then { rest, line := cursor.line + 1 } else cursor

/-- Moves over the blanks before a comment, and over the comment, if there is one on this line. -/
def skipComment (cursor : Cursor) : Cursor :=
  let next := cursor.skipWhile isBlank
  if startsWith 35 next.rest then next.skipLine else cursor

end Cursor

/-- Three equal characters of a given code, followed by a blank, a line end or nothing. -/
def startsMarker (code : Nat) (runes : List Rune) : Bool :=
  (runes.take 3).map (·.code) == [code, code, code] && startsBlank (runes.drop 3)

/-- Whether a marker between documents stands at a column. -/
def atMarker (column : Nat) (runes : List Rune) : Bool :=
  column == 0 && (startsMarker 45 runes || startsMarker 46 runes)

/-- What is written in a token. -/
inductive TokenKind where
  | version (major minor : Nat)
  | tagHandle (handle address : Text)
  | documentStart
  | documentEnd
  | sequenceStart
  | mappingStart
  /-- The end of a block collection. -/
  | blockEnd
  | flowSequenceStart
  | flowSequenceEnd
  | flowMappingStart
  | flowMappingEnd
  | item
  | comma
  | key
  | value
  | reference (name : Text)
  | anchor (name : Text)
  | tag (handle suffix : Text)
  /-- A scalar. One that is not `plain` is not looked at for other values than its text. -/
  | scalar (plain : Bool) (text : Text)
  | finish
deriving DecidableEq

/-- A token with the line on which it starts, counted from zero. -/
structure Token where
  kind : TokenKind
  line : Nat
deriving DecidableEq

end Loxley.Yaml
