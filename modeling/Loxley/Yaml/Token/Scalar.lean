import Loxley.Yaml.Token

/-!
# Scalars

Plain, quoted and block scalars. Line ends inside the first two are folded: a single one becomes a
space, and of several all but the first stay.
-/

set_option autoImplicit false

namespace Loxley.Yaml

/-! ## Folding -/

/-- The text of a plain or quoted scalar while it is read. All texts have their latest byte first. -/
structure Folding where
  text : Text := []
  /-- Blanks that count unless the line ends after them. -/
  blanks : Text := []
  /-- The first line end since the last character that counts, and the later ones. -/
  breaks : Option (Text × Text) := none

namespace Folding

/-- The text with its blanks or line ends settled. -/
def settled (folding : Folding) : Text :=
  match folding.breaks with
  | none => folding.blanks ++ folding.text
  | some (first, later) =>
    if first = [Text.newline] then
      if later.isEmpty then 32 :: folding.text else later ++ folding.text
    else later ++ first ++ folding.text

/-- Adds bytes that count. -/
def add (bytes : Text) (folding : Folding) : Folding :=
  { text := bytes.reverse ++ folding.settled }

/-- Adds a blank, which is left out at the start of a further line. -/
def addBlank (bytes : Text) (folding : Folding) : Folding :=
  match folding.breaks with
  | none => { folding with blanks := bytes.reverse ++ folding.blanks }
  | some _ => folding

def addBreak (bytes : Text) (folding : Folding) : Folding :=
  match folding.breaks with
  | none => { folding with blanks := [], breaks := some (bytes.reverse, []) }
  | some (first, later) => { folding with breaks := some (first, bytes.reverse ++ later) }

/-- Adds an escaped line end, which joins the lines. -/
def addJoin (folding : Folding) : Folding :=
  { text := folding.settled, breaks := some ([], []) }

end Folding

/-! ## Plain scalars -/

/-- A character that separates or encloses the items of flow collections. -/
def isFlowMark (rune : Rune) : Bool :=
  rune.code == 44 || rune.code == 91 || rune.code == 93 || rune.code == 123 || rune.code == 125

/-- Whether a plain scalar ends before a character, given what follows it. -/
def endsPlain (inFlow : Bool) (rune : Rune) (rest : List Rune) : Bool :=
  (rune.code == 58 && startsBlank rest) ||
    (inFlow && (isFlowMark rune ||
      (rune.code == 63 && (startsBreak rest || startsWith 32 rest))))

/-- What was read of a plain scalar. -/
structure Plain where
  text : Text
  /-- Whether the line ended after it. -/
  endsLine : Bool
  after : Cursor

/-- A plain scalar that ends here. -/
def Folding.closePlain (folding : Folding) (after : Cursor) : Plain where
  text := folding.text.reverse
  endsLine := folding.breaks.isSome
  after := after

/--
The rest of a plain scalar. After blanks it ends at a comment, at a marker, and in block context at a
line that is not indented enough.
-/
def plainFrom (inFlow : Bool) (indent : Int) (start : Nat) (folding : Folding) (afterBlank : Bool)
    (line column : Nat) : List Rune → Except Error Plain
  | [] => .ok (folding.closePlain { rest := [], line, column })
  | rune :: rest =>
    if isBreak rune then
      plainFrom inFlow indent start (folding.addBreak rune.bytes) true (line + 1) 0 rest
    else if isBlank rune then
      if folding.breaks.isSome && (column : Int) < indent && rune.code == 9 then
        .error (.inToken .tabInPlain start line)
      else
        plainFrom inFlow indent start (folding.addBlank rune.bytes) true line (column + 1) rest
    else if (afterBlank &&
          (rune.code == 35 || atMarker column (rune :: rest) ||
            (!inFlow && (column : Int) < indent))) ||
        endsPlain inFlow rune rest then
      .ok (folding.closePlain { rest := rune :: rest, line, column })
    else plainFrom inFlow indent start (folding.add rune.bytes) false line (column + 1) rest

/-- A plain scalar that starts here. -/
def Cursor.plain (inFlow : Bool) (indent : Int) (cursor : Cursor) : Except Error Plain :=
  plainFrom inFlow indent cursor.line {} false cursor.line cursor.column cursor.rest

/-! ## Quoted scalars -/

def hexDigit? (rune : Rune) : Option Nat :=
  if 48 ≤ rune.code && rune.code ≤ 57 then some (rune.code - 48)
  else if 97 ≤ rune.code && rune.code ≤ 102 then some (rune.code - 87)
  else if 65 ≤ rune.code && rune.code ≤ 70 then some (rune.code - 55)
  else none

/-- The number that a count of hexadecimal digits denotes at the start of some characters. -/
def hexNumber? (count : Nat) (runes : List Rune) : Option Nat :=
  if runes.length < count then none
  else (runes.take count).foldlM (fun total rune => (hexDigit? rune).map (16 * total + ·)) 0

/-- What an escape sequence is, by its letter. -/
inductive Escape where
  | known (code : Nat)
  /-- A code point in hexadecimal digits. -/
  | coded (digits : Nat)
  | unknown

/-- The letters that stand for fixed characters after a backslash, by their codes. -/
def escapes : List (Nat × Nat) :=
  [(48, 0), (97, 7), (98, 8), (116, 9), (9, 9), (110, 10), (118, 11), (102, 12), (114, 13),
    (101, 27), (32, 32), (34, 34), (39, 39), (47, 47), (92, 92), (78, 0x85), (95, 0xA0),
    (76, 0x2028), (80, 0x2029)]

/-- The meaning of the letter after a backslash. -/
def Escape.ofRune (rune : Rune) : Escape :=
  match escapes.lookup rune.code with
  | some code => .known code
  | none =>
    if rune.code == 120 then .coded 2
    else if rune.code == 117 then .coded 4
    else if rune.code == 85 then .coded 8
    else .unknown

/-- What stands after a backslash. -/
inductive Escaped where
  /-- A character, with the number of characters that stand for it after the backslash. -/
  | character (code length : Nat)
  /-- A line end, which joins the lines. -/
  | join

/-- The meaning of the characters after a backslash. -/
def escaped : List Rune → Except Problem Escaped
  | [] => .error .unknownEscape
  | rune :: rest =>
    if isBreak rune then .ok .join
    else
      match Escape.ofRune rune with
      | .known code => .ok (.character code 1)
      | .unknown => .error .unknownEscape
      | .coded digits =>
        match hexNumber? digits rest with
        | none => .error .noHexDigit
        | some code =>
          if (0xD800 ≤ code && code ≤ 0xDFFF) || 0x10FFFF < code then .error .badEscapedCharacter
          else .ok (.character code (digits + 1))

/-- The rest of a quoted scalar, after passing over some characters of the same line. -/
def quotedFrom (quote start : Nat) (folding : Folding) (line column skip : Nat) :
    List Rune → Except Error (Text × Cursor)
  | [] => .error (.inToken .endInQuotes start line)
  | rune :: rest =>
    match skip with
    | skip + 1 => quotedFrom quote start folding line (column + 1) skip rest
    | 0 =>
      if atMarker column (rune :: rest) then .error (.inToken .markerInQuotes start line)
      else if isBreak rune then
        quotedFrom quote start (folding.addBreak rune.bytes) (line + 1) 0 0 rest
      else if isBlank rune then
        quotedFrom quote start (folding.addBlank rune.bytes) line (column + 1) 0 rest
      else if rune.code == quote then
        if quote == 39 && startsWith 39 rest then
          quotedFrom quote start (folding.add rune.bytes) line (column + 1) 1 rest
        else .ok (folding.settled.reverse, { rest, line, column := column + 1 })
      else if quote == 34 && rune.code == 92 then
        match escaped rest with
        | .error problem => .error (.inToken problem start line)
        | .ok (.character code length) =>
          quotedFrom quote start (folding.add (Rune.encode code)) line (column + 1) length rest
        | .ok .join =>
          match rest with
          | [] => .error (.inToken .endInQuotes start line)
          | _ :: after => quotedFrom quote start folding.addJoin (line + 1) 0 0 after
      else quotedFrom quote start (folding.add rune.bytes) line (column + 1) 0 rest

/-- A scalar that starts here with a quote. -/
def Cursor.quoted (cursor : Cursor) : Except Error (Text × Cursor) :=
  match cursor.rest with
  | [] => .error (.inToken .endInQuotes cursor.line cursor.line)
  | quote :: rest =>
    quotedFrom quote.code cursor.line {} cursor.line (cursor.column + 1) 0 rest

/-! ## Block scalars -/

/-- What happens to the line ends at the end of a block scalar. -/
inductive Chomping where
  | strip
  | clip
  | keep
deriving DecidableEq

/-- The settings in the first line of a block scalar. -/
structure BlockHeader where
  chomping : Chomping := .clip
  /-- By how much the text is indented; zero if its first line tells. -/
  increment : Nat := 0

def Chomping.ofRune? (rune : Rune) : Option Chomping :=
  if rune.code == 43 then some .keep
  else if rune.code == 45 then some .strip
  else none

/-- An indentation indicator. -/
def increment? (rune : Rune) : Option Nat :=
  if 48 ≤ rune.code && rune.code ≤ 57 then some (rune.code - 48) else none

/-- The settings at the start of some characters, and how many characters they take. -/
def BlockHeader.read (runes : List Rune) : BlockHeader × Nat :=
  match runes.head?.bind Chomping.ofRune? with
  | some chomping =>
    match (runes.drop 1).head?.bind increment? with
    | some increment => ({ chomping, increment }, 2)
    | none => ({ chomping }, 1)
  | none =>
    match runes.head?.bind increment? with
    | none => ({}, 0)
    | some increment =>
      match (runes.drop 1).head?.bind Chomping.ofRune? with
      | some chomping => ({ chomping, increment }, 2)
      | none => ({ increment }, 1)

/-- The text of a block scalar while it is read. All texts have their latest byte first. -/
structure Block where
  folded : Bool
  /-- The column at which lines start; zero until it is known. -/
  indent : Nat
  /-- The least column at which lines may start if the first one tells. -/
  least : Nat
  /-- The greatest column that spaces have reached so far. -/
  reached : Nat := 0
  text : Text := []
  /-- The end of the last line that counts. -/
  lineEnd : Text := []
  /-- The ends of the empty lines since. -/
  empties : Text := []
  /-- Whether the last line that counts starts with a blank. -/
  wasBlank : Bool := false

namespace Block

/-- Whether the indentation of a line goes on at a column. -/
def inIndentation (block : Block) (column : Nat) : Bool :=
  block.indent == 0 || column < block.indent

/-- The scalar with its indentation settled. -/
def settle (block : Block) : Block :=
  if block.indent = 0 then { block with indent := max block.reached block.least } else block

/--
Starts a line that counts. In a folded scalar a single newline between two lines that do not start
with a blank becomes a space.
-/
def startLine (first : Rune) (block : Block) : Block :=
  let blank := isBlank first
  let text :=
    if block.folded && !block.wasBlank && !blank && block.lineEnd = [Text.newline] then
      if block.empties.isEmpty then 32 :: block.text else block.empties ++ block.text
    else block.empties ++ block.lineEnd ++ block.text
  { block with
    text := first.bytes.reverse ++ text, lineEnd := [], empties := [], wasBlank := blank }

/-- Adds a character to a line. -/
def add (rune : Rune) (block : Block) : Block :=
  { block with text := rune.bytes.reverse ++ block.text }

/-- The whole text with the line ends that stay at its end. -/
def close (chomping : Chomping) (block : Block) : Text :=
  match chomping with
  | .strip => block.text.reverse
  | .clip => (block.lineEnd ++ block.text).reverse
  | .keep => (block.empties ++ block.lineEnd ++ block.text).reverse

end Block

/-- The rest of a block scalar, inside a line or before one. -/
def blockFrom (start : Nat) (block : Block) (inLine : Bool) (line column : Nat) :
    List Rune → Except Error (Block × Cursor)
  | [] => .ok (block, { rest := [], line, column })
  | rune :: rest =>
    if inLine then
      if isBreak rune then
        blockFrom start { block with lineEnd := rune.bytes.reverse } false (line + 1) 0 rest
      else blockFrom start (block.add rune) true line (column + 1) rest
    else if rune.code == 32 && block.inIndentation column then
      blockFrom start { block with reached := max block.reached (column + 1) } false line
        (column + 1) rest
    else if rune.code == 9 && block.inIndentation column then
      .error (.inToken .tabInBlock start line)
    else if isBreak rune then
      blockFrom start { block with empties := rune.bytes.reverse ++ block.empties } false
        (line + 1) 0 rest
    else if column == block.settle.indent then
      blockFrom start (block.settle.startLine rune) true line (column + 1) rest
    else .ok (block, { rest := rune :: rest, line, column })

/-- A block scalar that starts here, in a collection with a given indentation. -/
def Cursor.block (indent : Int) (cursor : Cursor) : Except Error (Text × Cursor) :=
  let folded := startsWith 62 cursor.rest
  let fail (problem : Problem) := Except.error (Error.inToken problem cursor.line cursor.line)
  match BlockHeader.read (cursor.rest.drop 1) with
  | (header, length) =>
    if ((cursor.rest.drop 1).take length).any (·.code == 48) then fail .zeroIndentation
    else
      let blanks := (cursor.skip (length + 1)).skipWhile isBlank
      let lineEnd := if startsWith 35 blanks.rest then blanks.skipLine else blanks
      if !startsBreak lineEnd.rest then fail .noBlockLineEnd
      else
        let start := lineEnd.skipBreak
        let block : Block :=
          { folded
            indent := if header.increment = 0 then 0 else indent.toNat + header.increment
            least := max (indent + 1).toNat 1 }
        match blockFrom cursor.line block false start.line start.column start.rest with
        | .error problem => .error problem
        | .ok (block, after) => .ok (block.close header.chomping, after)

end Loxley.Yaml
