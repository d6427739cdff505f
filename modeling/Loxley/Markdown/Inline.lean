import Loxley.Markdown.Html
import Loxley.Markdown.Link
import Loxley.Text.Punctuation

/-!
# The text of headings

The plain text of a heading: code spans lose their backticks, emphasis loses its delimiters and links
lose their targets. Addresses between angles and HTML are left out, and everything else stays as it is
written.
-/

set_option autoImplicit false

namespace Loxley.Markdown

def isSpace (byte : UInt8) : Bool :=
  isSpaceCode byte.toNat

/-- A run of emphasis marks. -/
structure Run where
  mark : UInt8
  /-- How many marks are left. -/
  length : Nat
  /-- How many marks were written. -/
  written : Nat
  opens : Bool
  closes : Bool
  /-- Whether the run can still match another one. -/
  isActive : Bool := true

/-- A part of a heading. -/
inductive Piece where
  | text (text : Text)
  | run (run : Run)
  /-- A bracket that may open the text of a link or an image, with what follows it. -/
  | bracket (isImage : Bool) (after : List Rune)
  /-- The text of a link, or of an image around one. -/
  | link (text : Text)

/-! ## Runs of marks and code spans -/

/-- A run of emphasis marks between two characters. -/
def Run.between (mark : UInt8) (length before after : Nat) : Run :=
  let isBlank (code : Nat) : Bool := Rune.isSpace { code, bytes := [] }
  let opensLeft := !isBlank after &&
    (!Rune.isPunctuation after || isBlank before || Rune.isPunctuation before)
  let closesRight := !isBlank before &&
    (!Rune.isPunctuation before || isBlank after || Rune.isPunctuation after)
  if mark == 95 then
    { mark, length, written := length
      opens := opensLeft && (!closesRight || Rune.isPunctuation before)
      closes := closesRight && (!opensLeft || Rune.isPunctuation after) }
  else { mark, length, written := length, opens := opensLeft, closes := closesRight }

def backtick : Nat := 96

/--
The contents of a code span after its opening backticks: everything up to the next run of backticks of
the same length. Holds the characters passed so far, latest first, and the backticks just passed.
-/
def codeSpan? (ticks : Nat) (passed : List Rune) (run : List Rune) :
    List Rune → Option (List Rune)
  | [] => if run.length = ticks then some passed.reverse else none
  | rune :: rest =>
    if rune.code == backtick then codeSpan? ticks passed (rune :: run) rest
    else if run.length = ticks then some passed.reverse
    else codeSpan? ticks (rune :: (run ++ passed)) [] rest

/-- A space or a newline. -/
def isBreak (rune : Rune) : Bool :=
  rune.code == 32 || rune.code == 10

/-- The text of a code span, without one space at each end if there is one at both. -/
def codeText (content : List Rune) : Text :=
  if content.all (·.bytes.all isSpace) then Rune.toText content
  else if content.head?.any isBreak && content.getLast?.any isBreak then
    Rune.toText (content.drop 1).dropLast
  else Rune.toText content

/-- How many characters of the same code start a text. -/
def runLength (code : Nat) (runes : List Rune) : Nat :=
  (runes.takeWhile (·.code == code)).length

/-! ## Matching emphasis -/

/--
How many marks two runs take from each other. Runs that could also match the other way round do not
match if their lengths add up to a multiple of three, unless both are multiples of three.
-/
def consumption (opener closer : Run) : Nat :=
  if (opener.closes || closer.opens) && (opener.written + closer.written) % 3 == 0 &&
      closer.written % 3 != 0 then 0
  else if 2 ≤ opener.length && 2 ≤ closer.length then 2
  else 1

/-- Whether a run may be the opening one for another. -/
def canMatch (closer opener : Run) : Bool :=
  opener.isActive && opener.opens && opener.mark == closer.mark

/--
Matches a closing run with the nearest opening one among the pieces before it, latest first. Gives the
number of marks taken from both; the runs between them can no longer match.
-/
def matchOpener? (closer : Run) : List Piece → Option (Nat × List Piece)
  | [] => none
  | .run run :: rest =>
    if canMatch closer run && 0 < consumption run closer then
      let taken := consumption run closer
      some (taken, .run { run with length := run.length - taken
                                   isActive := run.length != taken } :: rest)
    else
      (matchOpener? closer rest).map fun (taken, pieces) =>
        (taken, .run { run with isActive := false } :: pieces)
  | piece :: rest => (matchOpener? closer rest).map fun (taken, pieces) => (taken, piece :: pieces)

/-- Whether a piece is a run that may be the opening one for another. -/
def mayOpen (closer : Run) : Piece → Bool
  | .run run => canMatch closer run
  | _ => false

/-- Matches a closing run as often as it can, and adds what is left of it to the pieces before. -/
def closeRun (closer : Run) : Nat → List Piece → List Piece
  | 0, before => .run { closer with length := 0, isActive := false } :: before
  | fuel + 1, before =>
    let current := { closer with length := fuel + 1 }
    match matchOpener? current before with
    | some (taken, pieces) => closeRun closer (fuel + 1 - max taken 1) pieces
    | none =>
      let stays := before.any (mayOpen current) || closer.opens
      .run { current with isActive := stays } :: before
termination_by length => length

/-- Matches all runs, given the pieces before, latest first. -/
def matchRuns (before : List Piece) : List Piece → List Piece
  | [] => before.reverse
  | .run run :: rest =>
    if run.closes then matchRuns (closeRun run run.length before) rest
    else matchRuns (.run run :: before) rest
  | piece :: rest => matchRuns (piece :: before) rest

/-- The text of a piece; marks and brackets that matched no other are text. -/
def Piece.plain : Piece → Text
  | .text content | .link content => content
  | .run marks => List.replicate marks.length marks.mark
  | .bracket isImage _ => if isImage then "![" else "["

/-- The text of pieces, latest first. -/
def plainOf (pieces : List Piece) : Text :=
  (matchRuns [] pieces.reverse).flatMap (·.plain)

/-! ## Links -/

/-- Whether a piece is or holds the text of a link. -/
def Piece.isLink : Piece → Bool
  | .link _ => true
  | _ => false

/-- The pieces after the latest bracket, the bracket, and the pieces before it; all latest first. -/
def splitBracket? : List Piece → Option (List Piece × (Bool × List Rune) × List Piece)
  | [] => none
  | .bracket isImage after :: rest => some ([], (isImage, after), rest)
  | piece :: rest =>
    (splitBracket? rest).map fun (inner, bracket, before) => (piece :: inner, bracket, before)

/--
What follows a link after its closing bracket, given the label between the brackets: a target in
parentheses, another label that is defined, or nothing if the label itself is defined.
-/
def afterLink? (defined : List (List Nat)) (label codes : List Nat) : Option (List Nat) :=
  let isDefined (label : List Nat) : Bool := defined.contains (normalizeLabel label)
  let short := if isDefined label then some codes else none
  match codes with
  | 40 :: rest => (afterInlineTarget? rest).or short
  | 91 :: rest =>
    match closure? 91 93 rest with
    | none => short
    | some (reference, after) =>
      let wanted := if reference.all isSpaceCode then label else reference
      if isDefined wanted then some after else none
  | _ => short

/-- What a closing bracket makes of the pieces before it. -/
inductive Closing where
  /-- A link or an image, with the pieces that it makes and the number of characters it takes. -/
  | link (pieces : List Piece) (length : Nat)
  /-- Text; the bracket that it would have closed is text too. -/
  | text (pieces : List Piece)

/-- Closes the latest bracket among the pieces before a closing one. There are no links in links. -/
def closeBracket (defined : List (List Nat)) (pieces : List Piece) (rest : List Rune) : Closing :=
  match splitBracket? pieces with
  | none => .text pieces
  | some (inner, (isImage, after), before) =>
    let opened : Piece := .text (Piece.bracket isImage []).plain
    let hasLink := inner.any Piece.isLink
    let label := (after.take (after.length - rest.length - 1)).map (·.code)
    let codes := rest.map (·.code)
    if !isImage && hasLink then .text (inner ++ opened :: before)
    else
      match afterLink? defined label codes with
      | none => .text (inner ++ opened :: before)
      | some left =>
        let text := plainOf inner
        let piece : Piece := if !isImage || hasLink then .link text else .text text
        .link (piece :: before) (codes.length - left.length)

/-! ## Cutting a heading into pieces -/

/-- What has been read of a heading. -/
structure Place where
  /-- The number of characters that belong to the piece before. -/
  skip : Nat := 0
  /-- The code of the character before. -/
  before : Nat := 10
  isEscaped : Bool := false
  /-- The text since the piece before. -/
  text : Text := []
  /-- The pieces so far, latest first. -/
  pieces : List Piece := []

namespace Place

def add (bytes : Text) (place : Place) : Place :=
  { place with text := place.text ++ bytes }

/-- The pieces with the text since then. -/
def settled (place : Place) : List Piece :=
  .text place.text :: place.pieces

/-- The pieces with the text since then, without blanks at its end. -/
def endLine (place : Place) : List Piece :=
  .text (Text.trimRight isSpace place.text) :: place.pieces

end Place

/-- The code of the character before the next one; a stray byte belongs to the character before it. -/
def Place.codeBefore (place : Place) (rune : Rune) : Nat :=
  match rune.bytes with
  | [byte] => if Rune.isContinuation byte then place.before else rune.code
  | _ => rune.code

/-- The number of characters of a line end after a backslash, if one stands here. -/
def lineEndLength : List Rune → Nat
  | first :: rest =>
    if first.code == 10 then 1
    else if first.code == 13 && rest.head?.any (·.code == 10) then 2
    else 0
  | [] => 0

/-- How many characters an address or a piece of HTML takes after its angle, if one starts here. -/
def angledLength? (runes : List Rune) : Option Nat :=
  let codes := runes.map (·.code)
  ((afterAddress? codes).or (afterHtml? codes)).map fun left => codes.length - left.length - 1

/--
Cuts a heading into pieces, latest first. The lines of a heading are joined without a space, and blanks
at the end of a line are dropped unless a backslash ends it.
-/
def cutPieces (defined : List (List Nat)) (place : Place) : List Rune → List Piece
  | [] => place.endLine
  | rune :: rest =>
    let before := place.codeBefore rune
    let next : Place := { place with skip := 0, before, isEscaped := false }
    let restart (pieces : List Piece) (skip : Nat) : Place := { skip, before, pieces }
    if 0 < place.skip then cutPieces defined { place with skip := place.skip - 1, before } rest
    else if rune.code == 10 then cutPieces defined (restart place.endLine 0) rest
    else if place.isEscaped then cutPieces defined (next.add rune.bytes) rest
    else if rune.code == 92 then
      if 0 < lineEndLength rest && place.text.getLast? != some 92 then
        cutPieces defined (restart place.settled (lineEndLength rest)) rest
      else cutPieces defined { next.add rune.bytes with isEscaped := true } rest
    else if rune.code == backtick then
      let more := runLength backtick rest
      match codeSpan? (more + 1) [] [] (rest.drop more) with
      | some content =>
        cutPieces defined
          (restart (.text (codeText content) :: place.settled) (more + content.length + (more + 1)))
          rest
      | none =>
        cutPieces defined { next.add (List.replicate (more + 1) 96) with skip := more } rest
    else if rune.code == 33 && rest.head?.any (·.code == 91) then
      cutPieces defined (restart (.bracket true (rest.drop 1) :: place.settled) 1) rest
    else if rune.code == 91 then
      cutPieces defined (restart (.bracket false rest :: place.settled) 0) rest
    else if rune.code == 93 then
      match closeBracket defined place.settled rest with
      | .link pieces length => cutPieces defined (restart pieces length) rest
      | .text pieces => cutPieces defined ({ restart pieces 0 with text := rune.bytes }) rest
    else if rune.code == 60 then
      match angledLength? (rune :: rest) with
      | some length => cutPieces defined (restart place.settled length) rest
      | none => cutPieces defined (next.add rune.bytes) rest
    else if rune.code == 42 || rune.code == 95 then
      let more := runLength rune.code rest
      let after := ((rest.drop more).head?.map (·.code)).getD 32
      let run := Run.between rune.code.toUInt8 (more + 1) place.before after
      cutPieces defined (restart (.run run :: place.settled) more) rest
    else cutPieces defined (next.add rune.bytes) rest

/-- The plain text of a heading, given the labels of links that are defined. -/
def plainText (defined : List (List Nat)) (heading : Text) : Text :=
  plainOf (cutPieces defined {} (Rune.ofText heading))

end Loxley.Markdown
