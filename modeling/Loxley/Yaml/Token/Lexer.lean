import Loxley.Yaml.Token.Tag

/-!
# Finding the tokens of a YAML document

A token may turn out to be a key only when a colon follows on the same line. Until then it is a
candidate, one for each level of flow collections, and the tokens for the key and for the start of its
mapping are put in before it.
-/

set_option autoImplicit false

namespace Loxley.Yaml

/-- A place at which a key may have started. -/
structure Candidate where
  /-- Whether nothing but a key can stand there. -/
  required : Bool
  /-- The number of tokens before it. -/
  position : Nat
  line : Nat
  column : Nat

/-- The state in which a document is cut into tokens. -/
structure Lexer where
  cursor : Cursor
  /-- The tokens so far, latest first. -/
  tokens : List Token := []
  /-- The column of the innermost block collection. -/
  indent : Int := -1
  /-- The columns of the block collections around it, innermost first. -/
  outer : List Int := []
  /-- Whether a key may start here. -/
  keyAllowed : Bool := true
  /-- The candidate of the innermost flow collection, or outside of all. -/
  candidate : Option Candidate := none
  /-- The candidates of the flow collections around it, innermost first. -/
  outerCandidates : List (Option Candidate) := []

namespace Lexer

def inFlow (lexer : Lexer) : Bool :=
  !lexer.outerCandidates.isEmpty

/-- A problem at the place of the lexer. -/
def fail {α : Type} (problem : Problem) (lexer : Lexer) : Except Error α :=
  .error (.inToken problem lexer.cursor.line lexer.cursor.line)

/-- Adds a token that starts on the line of the lexer. -/
def emit (kind : TokenKind) (lexer : Lexer) : Lexer :=
  { lexer with tokens := { kind, line := lexer.cursor.line } :: lexer.tokens }

/-- Puts a token in at a position. -/
def insert (position : Nat) (token : Token) (lexer : Lexer) : Lexer :=
  let count := lexer.tokens.length - position
  { lexer with tokens := lexer.tokens.take count ++ token :: lexer.tokens.drop count }

/-- Adds a token of some characters on one line. -/
def take (kind : TokenKind) (length : Nat) (lexer : Lexer) : Lexer :=
  let next := lexer.emit kind
  { next with cursor := next.cursor.skip length }

/-! ## Candidates -/

/-- The problem of a required candidate that is no key. -/
def missed {α : Type} (candidate : Candidate) (lexer : Lexer) : Except Error α :=
  .error (.inToken .noKeyColon candidate.line lexer.cursor.line)

def dropCandidate (lexer : Lexer) : Except Error Lexer :=
  match lexer.candidate with
  | none => .ok lexer
  | some candidate =>
    if candidate.required then lexer.missed candidate
    else .ok { lexer with candidate := none }

/-- Makes the next token a candidate, if a key may start here. -/
def saveCandidate (lexer : Lexer) : Except Error Lexer :=
  if lexer.keyAllowed then
    match lexer.dropCandidate with
    | .error problem => .error problem
    | .ok lexer =>
      .ok { lexer with
        candidate := some
          { required := !lexer.inFlow && lexer.indent == lexer.cursor.column
            position := lexer.tokens.length
            line := lexer.cursor.line
            column := lexer.cursor.column } }
  else .ok lexer

/-- The greatest number of characters from the start of a key to its colon. -/
def keyLimit : Nat := 1024

/-- The candidate, if it is near enough to be a key. -/
def liveCandidate (lexer : Lexer) : Except Error (Option Candidate) :=
  match lexer.candidate with
  | none => .ok none
  | some candidate =>
    if candidate.line < lexer.cursor.line ||
        candidate.column + keyLimit < lexer.cursor.column then
      if candidate.required then lexer.missed candidate else .ok none
    else .ok (some candidate)

/-! ## Indentation -/

/-- Opens a block collection at a column, if it is deeper than the innermost one. -/
def openBlock (column position : Nat) (token : Token) (lexer : Lexer) : Lexer :=
  if !lexer.inFlow && lexer.indent < column then
    { lexer.insert position token with indent := column, outer := lexer.indent :: lexer.outer }
  else lexer

/-- Opens a block collection here, if there is need to. -/
def openHere (kind : TokenKind) (lexer : Lexer) : Lexer :=
  lexer.openBlock lexer.cursor.column lexer.tokens.length { kind, line := lexer.cursor.line }

/-- Closes the block collections that are deeper than a column, given those around the innermost. -/
def closeFrom (column : Int) (lexer : Lexer) : List Int → Lexer
  | [] => lexer
  | indent :: outer =>
    if column < lexer.indent then
      closeFrom column { lexer.emit .blockEnd with indent, outer } outer
    else lexer

/-- Closes the block collections that are deeper than a column. -/
def closeBlocks (column : Int) (lexer : Lexer) : Lexer :=
  if lexer.inFlow then lexer else closeFrom column lexer lexer.outer

/-! ## Between tokens -/

/-- Whether only blanks and line ends stand before a comment. -/
def leadsToComment (runes : List Rune) : Bool :=
  startsWith 35 (runes.dropWhile fun rune => isBlank rune || isBreak rune)

/-- How far a gap between tokens has been read. -/
inductive Gap where
  | blank
  | comment
  /-- After a comment, where tabs may stand before another one. -/
  | afterComment
deriving DecidableEq

/--
The place of the next token, and whether a key may start there. Tabs may stand between comments, and
elsewhere only where no key may start.
-/
def gapFrom (inFlow keyAllowed : Bool) (gap : Gap) (line column : Nat) :
    List Rune → Bool × Cursor
  | [] => (keyAllowed, { rest := [], line, column })
  | rune :: rest =>
    if isBreak rune then
      let gap := if gap = .blank then .blank else .afterComment
      gapFrom inFlow (keyAllowed || !inFlow) gap (line + 1) 0 rest
    else if gap = .comment || rune.code == 32 || (column == 0 && rune.code == 0xFEFF) ||
        (rune.code == 9 &&
          (inFlow || !keyAllowed || (gap = .afterComment && leadsToComment rest))) then
      gapFrom inFlow keyAllowed gap line (column + 1) rest
    else if rune.code == 35 then gapFrom inFlow keyAllowed .comment line (column + 1) rest
    else (keyAllowed, { rest := rune :: rest, line, column })

/-- Moves to the next token and closes the block collections that end before it. -/
def toNext (lexer : Lexer) : Lexer :=
  let cursor := lexer.cursor
  match gapFrom lexer.inFlow lexer.keyAllowed .blank cursor.line cursor.column cursor.rest with
  | (keyAllowed, cursor) => closeBlocks cursor.column { lexer with keyAllowed, cursor }

/-! ## Tokens -/

/-- Closes all block collections before something between documents. -/
def betweenDocuments (lexer : Lexer) : Except Error Lexer :=
  match (lexer.closeBlocks (-1)).dropCandidate with
  | .error problem => .error problem
  | .ok lexer => .ok { lexer with keyAllowed := false }

def finish (lexer : Lexer) : Except Error Lexer :=
  let cursor := lexer.cursor
  let line := if cursor.column = 0 then cursor.line else cursor.line + 1
  match { lexer with cursor := { cursor with line, column := 0 } }.betweenDocuments with
  | .error problem => .error problem
  | .ok lexer => .ok (lexer.emit .finish)

def directive (lexer : Lexer) : Except Error Lexer :=
  match lexer.betweenDocuments with
  | .error problem => .error problem
  | .ok lexer =>
    match lexer.cursor.directive with
    | .error problem => .error problem
    | .ok (kind, cursor) => .ok { lexer.emit kind with cursor }

def marker (kind : TokenKind) (lexer : Lexer) : Except Error Lexer :=
  match lexer.betweenDocuments with
  | .error problem => .error problem
  | .ok lexer => .ok (lexer.take kind 3)

def openFlow (kind : TokenKind) (lexer : Lexer) : Except Error Lexer :=
  match lexer.saveCandidate with
  | .error problem => .error problem
  | .ok lexer =>
    .ok { lexer.take kind 1 with
      keyAllowed := true
      candidate := none
      outerCandidates := lexer.candidate :: lexer.outerCandidates }

def closeFlow (kind : TokenKind) (lexer : Lexer) : Except Error Lexer :=
  match lexer.dropCandidate with
  | .error problem => .error problem
  | .ok lexer =>
    let next := { lexer.take kind 1 with keyAllowed := false }
    match lexer.outerCandidates with
    | [] => .ok next
    | candidate :: outerCandidates => .ok { next with candidate, outerCandidates }

def comma (lexer : Lexer) : Except Error Lexer :=
  match lexer.dropCandidate with
  | .error problem => .error problem
  | .ok lexer => .ok { lexer.take .comma 1 with keyAllowed := true }

/-- The hyphen before an item of a block sequence. -/
def item (lexer : Lexer) : Except Error Lexer :=
  if !lexer.inFlow && !lexer.keyAllowed then lexer.fail .misplacedItem
  else
    match (lexer.openHere .sequenceStart).dropCandidate with
    | .error problem => .error problem
    | .ok lexer => .ok { lexer.take .item 1 with keyAllowed := true }

/-- The question mark before a key. -/
def key (lexer : Lexer) : Except Error Lexer :=
  if !lexer.inFlow && !lexer.keyAllowed then lexer.fail .misplacedKey
  else
    match (lexer.openHere .mappingStart).dropCandidate with
    | .error problem => .error problem
    | .ok lexer => .ok { lexer.take .key 1 with keyAllowed := !lexer.inFlow }

/-- The colon before a value, which makes the candidate a key if there is one. -/
def value (lexer : Lexer) : Except Error Lexer :=
  match lexer.liveCandidate with
  | .error problem => .error problem
  | .ok (some candidate) =>
    let line := candidate.line
    let keyed := lexer.insert candidate.position { kind := .key, line }
    let opened :=
      keyed.openBlock candidate.column candidate.position { kind := .mappingStart, line }
    .ok { opened.take .value 1 with candidate := none, keyAllowed := false }
  | .ok none =>
    if lexer.inFlow then
      .ok { lexer.take .value 1 with candidate := none, keyAllowed := false }
    else if lexer.keyAllowed then
      .ok { (lexer.openHere .mappingStart).take .value 1 with
        candidate := none, keyAllowed := true }
    else lexer.fail .misplacedValue

/-- A token that may start a key and after which none may start. -/
def word (scan : Cursor → Except Error (TokenKind × Cursor)) (lexer : Lexer) :
    Except Error Lexer :=
  match lexer.saveCandidate with
  | .error problem => .error problem
  | .ok lexer =>
    match scan lexer.cursor with
    | .error problem => .error problem
    | .ok (kind, cursor) => .ok { lexer.emit kind with cursor, keyAllowed := false }

/-- A plain scalar. If the line ends after it, a key may start. -/
def plain (lexer : Lexer) : Except Error Lexer :=
  match lexer.saveCandidate with
  | .error problem => .error problem
  | .ok lexer =>
    match lexer.cursor.plain lexer.inFlow (lexer.indent + 1) with
    | .error problem => .error problem
    | .ok plain =>
      .ok { lexer.emit (.scalar true plain.text) with
        cursor := plain.after, keyAllowed := plain.endsLine }

def block (lexer : Lexer) : Except Error Lexer :=
  match lexer.dropCandidate with
  | .error problem => .error problem
  | .ok lexer =>
    match lexer.cursor.block lexer.indent with
    | .error problem => .error problem
    | .ok (text, cursor) =>
      .ok { lexer.emit (.scalar false text) with cursor, keyAllowed := true }

/-- The characters that cannot start a plain scalar on their own. -/
def indicators : List Nat :=
  [45, 63, 58, 44, 91, 93, 123, 125, 35, 38, 42, 33, 124, 62, 39, 34, 37, 64, 96]

/-- Whether a plain scalar starts with a character, given what follows it. -/
def startsPlain (lexer : Lexer) (rune : Rune) (rest : List Rune) : Bool :=
  (!isBlank rune && !isBreak rune && !indicators.contains rune.code) ||
    (rune.code == 45 && !rest.head?.any isBlank) ||
    (!lexer.inFlow && (rune.code == 63 || rune.code == 58) && !startsBlank rest)

/-- The token that starts with a character, given what follows it. -/
def token (rune : Rune) (rest : List Rune) (lexer : Lexer) : Except Error Lexer :=
  let code := rune.code
  if code == 91 then lexer.openFlow .flowSequenceStart
  else if code == 123 then lexer.openFlow .flowMappingStart
  else if code == 93 then lexer.closeFlow .flowSequenceEnd
  else if code == 125 then lexer.closeFlow .flowMappingEnd
  else if code == 44 then lexer.comma
  else if code == 45 && startsBlank rest then lexer.item
  else if code == 63 && (lexer.inFlow || startsBlank rest) then lexer.key
  else if code == 58 && (lexer.inFlow || startsBlank rest) then lexer.value
  else if code == 42 then
    lexer.word fun cursor => cursor.anchorName.map fun (name, after) => (.reference name, after)
  else if code == 38 then
    lexer.word fun cursor => cursor.anchorName.map fun (name, after) => (.anchor name, after)
  else if code == 33 then lexer.word Cursor.tag
  else if (code == 124 || code == 62) && !lexer.inFlow then lexer.block
  else if code == 39 || code == 34 then
    lexer.word fun cursor => cursor.quoted.map fun (text, after) => (.scalar false text, after)
  else if lexer.startsPlain rune rest then lexer.plain
  else lexer.fail .noTokenStart

/-- Whether the latest token is the hyphen before an item. -/
def afterItem (lexer : Lexer) : Bool :=
  lexer.tokens.head?.any (·.kind == .item)

/-- Finds one more token that starts with a character. -/
def next (rune : Rune) (rest : List Rune) (lexer : Lexer) : Except Error Lexer :=
  let runes := rune :: rest
  let column := lexer.cursor.column
  if column == 0 && rune.code == 37 then lexer.directive
  else if column == 0 && startsMarker 45 runes then lexer.marker .documentStart
  else if column == 0 && startsMarker 46 runes then lexer.marker .documentEnd
  else
    match lexer.token rune rest with
    | .error problem => .error problem
    | .ok lexer =>
      if lexer.afterItem then .ok lexer
      else .ok { lexer with cursor := lexer.cursor.skipComment }

end Lexer

/-- Tokens in their order, and the error that ends them early, if any. -/
structure Tokens where
  list : List Token
  failure : Option Error := none

/-- The tokens that a lexer finds; each takes at least one character. -/
def Lexer.run : Nat → Lexer → Tokens
  | 0, lexer => { list := lexer.tokens.reverse }
  | fuel + 1, lexer =>
    let start := lexer.toNext
    let result :=
      match start.cursor.rest with
      | [] => start.finish
      | rune :: rest => start.next rune rest
    match result with
    | .error failure => { list := lexer.tokens.reverse, failure := some failure }
    | .ok after =>
      if start.cursor.rest.isEmpty then { list := after.tokens.reverse } else run fuel after

def Tokens.ofCharacters (runes : List Rune) : Tokens :=
  Lexer.run (runes.length + 1) { cursor := { rest := runes } }

end Loxley.Yaml
