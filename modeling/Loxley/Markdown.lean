import Loxley.Markdown.Line

/-!
# Markdown documents

The headings and fenced blocks of a document, in order. Quotes and lists hold other blocks. Paragraphs,
code and HTML only matter because they hold no such blocks, and paragraphs also because an underline
makes a heading of one and because they may define the labels of links.
-/

set_option autoImplicit false

namespace Loxley.Markdown

/-- A part of a document. -/
inductive Block where
  /-- A heading with its plain text. -/
  | heading (text : Text)
  /-- A fenced block. Its line is that of its first line of content, or one if it has no content. -/
  | fence (language content : Text) (line : Nat)
deriving DecidableEq

/-! ## Open blocks -/

/-- A block that holds other blocks. -/
inductive Container where
  | quote
  /-- A list with its mark, the column of the content of its last item, and whether that is empty. -/
  | list (mark : UInt8) (offset : Nat) (isEmpty : Bool)
  /-- The last item of a list. -/
  | item

/-- The innermost open block, which holds lines. -/
inductive Leaf where
  | none
  /-- A paragraph with its lines, latest first. -/
  | paragraph (lines : List Text)
  | fenced (opening : Opening) (content : List Text)
  /-- Indented code. -/
  | code
  /-- HTML with its end, and whether the end is behind. -/
  | html (close : HtmlEnd) (isOver : Bool)

/-- A part of a document that has been read; the text of a heading is still as it is written. -/
inductive Part where
  | heading (source : Text)
  | fence (block : Block)

/-- What has been read of a document. -/
structure Progress where
  /-- The containers that are open, innermost first. -/
  containers : List Container := []
  leaf : Leaf := .none
  /-- The parts so far, latest first. -/
  parts : List Part := []
  /-- The labels of links that are defined. -/
  defined : List (List Nat) := []
  /-- Whether blank lines follow an empty item. -/
  blankItem : Bool := false

def Leaf.isParagraph : Leaf → Bool
  | paragraph _ => true
  | _ => false

/-- A fenced block with its lines of content, latest first, before a given line. -/
def Opening.block (opening : Opening) (content : List Text) (number : Nat) : Block :=
  .fence opening.language content.reverse.flatten
    (if content.isEmpty then 1 else number - content.length)

/-- The labels that a paragraph defines, and the text that is left of it. -/
def paragraphText (lines : List Text) : List (List Nat) × Text :=
  let runes := Rune.ofText (Text.trimRight isSpace lines.reverse.flatten)
  match definitions runes.length (runes.map (·.code)) with
  | (labels, left) => (labels, Rune.toText (runes.drop (runes.length - left.length)))

namespace Progress

/-- Closes the innermost block before a given line. -/
def closeLeaf (number : Nat) (progress : Progress) : Progress :=
  match progress.leaf with
  | .paragraph lines =>
    { progress with leaf := .none, defined := progress.defined ++ (paragraphText lines).1 }
  | .fenced opening content =>
    { progress with
      leaf := .none, parts := .fence (opening.block content number) :: progress.parts }
  | _ => { progress with leaf := .none }

/-- Notes that the innermost item holds a block. -/
def fill : List Container → List Container
  | .item :: .list mark offset _ :: rest => .item :: .list mark offset false :: rest
  | containers => containers

/-- Closes all blocks but some containers, and opens a block in the innermost one. -/
def replace (number : Nat) (containers : List Container) (leaf : Leaf) (progress : Progress) :
    Progress :=
  { progress.closeLeaf number with containers := fill containers, leaf }

/-- Adds a heading in the innermost of some containers, and closes all other blocks. -/
def addHeading (number : Nat) (containers : List Container) (source : Text)
    (progress : Progress) : Progress :=
  let next := progress.replace number containers .none
  { next with parts := .heading source :: next.parts }

end Progress

/-! ## Continuing blocks -/

/-- What follows the mark of a quote, if a line has one. -/
def Line.afterQuote? (line : Line) : Option Line :=
  match line.content with
  | 62 :: after =>
    if 3 < line.indent then none
    else
      let next := line.skip (line.blanks + 1)
      match after with
      | 32 :: _ => some (next.skip 1)
      | 9 :: _ => some (next.skipTo 1 (tabWidth next.offset - 1))
      | _ => some next
  | _ => none

/--
Whether a list goes on with a line. A line that is not indented enough has to start another item of the
same list.
-/
def continuesList (progress : Progress) (mark : UInt8) (offset : Nat) (isEmpty : Bool)
    (line : Line) : Bool :=
  if line.isBlank then true
  else
    let item := if line.indent < 4 then ItemMark.read? line.text else none
    match (if line.indent < offset || isEmpty then item else none) with
    | some item =>
      item.mark == mark && !item.isDivider line.text progress.leaf.isParagraph
    | none => offset ≤ line.indent && !progress.blankItem

/-- What is left of a line for an item with a given offset, if the item goes on. -/
def resumeItem? (progress : Progress) (offset : Nat) (isEmpty : Bool) (line : Line) :
    Option Line :=
  let blankItem := isEmpty && progress.blankItem
  if line.isBlank then some (line.skip (line.text.length - 1))
  else if (blankItem || line.indent < offset) && line.indent < 4 &&
      ((ItemMark.read? line.text).isSome || !blankItem) then none
  else
    match indentPosition? line.offset 0 offset line.text with
    | some (count, padding) => some (line.skipTo count padding)
    | none => some line

/-- What is left of a line for a container, if it goes on, given the containers around it. -/
def Container.resume? (progress : Progress) (around : List Container) (line : Line) :
    Container → Option Line
  | quote => line.afterQuote?
  | list mark offset isEmpty =>
    if continuesList progress mark offset isEmpty line then some line else none
  | item =>
    match around with
    | list _ offset isEmpty :: _ => resumeItem? progress offset isEmpty line
    | _ => none

/-! ## Opening blocks -/

/-- Where blocks are opened on a line. -/
structure Site where
  progress : Progress
  /-- The containers in which blocks are opened, innermost first. -/
  containers : List Container
  line : Line
  /-- Whether a block has been opened on this line. -/
  isStarted : Bool := false

namespace Site

/-- Whether the line may go on with a paragraph. -/
def inParagraph (site : Site) : Bool :=
  !site.isStarted && site.progress.leaf.isParagraph

/-- Whether a paragraph is open right in the innermost container. -/
def afterParagraph (site : Site) : Bool :=
  site.inParagraph && site.containers.length == site.progress.containers.length

/-- Opens a container; the block before is closed. -/
def enter (number : Nat) (container : Container) (line : Line) (site : Site) : Site :=
  let progress := site.progress.closeLeaf number
  { progress, containers := container :: Progress.fill site.containers, line, isStarted := true }

/-- The mark of an item with which a list starts, if one may start here. -/
def listStart? (site : Site) : Option ItemMark :=
  match ItemMark.read? site.line.text with
  | none => none
  | some item =>
    if site.afterParagraph && (item.isEmpty || item.number.any (· != 1)) then none
    else some item

/-- Opens an item in a list, given the containers around it. -/
def enterItem (number : Nat) (mark : UInt8) (around : List Container) (item : ItemMark)
    (site : Site) : Site :=
  let progress := { site.progress.closeLeaf number with blankItem := false }
  let line :=
    match indentPosition? item.stop 0 item.gap item.after with
    | some (count, padding) => site.line.skipTo (item.stop + count) padding
    | none => site.line.skip item.stop
  { progress
    containers := .item :: .list mark item.offset true :: around
    line
    isStarted := true }

/-- All blocks but those of the site are closed; nothing more is opened. -/
def finish (number : Nat) (site : Site) : Progress :=
  { site.progress.closeLeaf number with containers := site.containers }

/-- Goes on with a paragraph, or opens one, or opens nothing on a blank line. -/
def addText (number : Nat) (site : Site) : Progress :=
  if site.line.isBlank then site.finish number
  else
    let text := site.line.rest.dropWhile isSpace
    match site.inParagraph, site.progress.leaf with
    | true, .paragraph lines => { site.progress with leaf := .paragraph (text :: lines) }
    | _, _ => site.progress.replace number site.containers (.paragraph [text])

/-- Opens a block that holds no others, if the line starts one. -/
def openLeaf? (number : Nat) (site : Site) : Option Progress :=
  let line := site.line
  match line.heading? with
  | some source => some (site.progress.addHeading number site.containers source)
  | none =>
    match line.opening? with
    | some opening =>
      some (site.progress.replace number site.containers (.fenced opening []))
    | none =>
      match line.content with
      | 60 :: rest =>
        let codes := codesOf rest
        if !line.hasMark then none
        else
          (htmlStart? site.inParagraph codes).map fun close =>
            let isOver := close != .blankLine && close.isIn (60 :: codes)
            site.progress.replace number site.containers (.html close isOver)
      | _ => none

end Site

/-- A heading whose lines were a paragraph; nothing if they only define labels. -/
def underlined? (number : Nat) (site : Site) : Option Progress :=
  match site.progress.leaf with
  | .paragraph lines =>
    match paragraphText lines with
    | (_, text) =>
      if text.isEmpty then none
      else some (site.progress.addHeading number site.containers text)
  | _ => none

/-- Opens the blocks that start on a line, or goes on with a paragraph. -/
def openBlocks (number : Nat) : Nat → Site → Progress
  | 0, site => site.addText number
  | fuel + 1, site =>
    let line := site.line
    let isUnderline := site.afterParagraph && (underline? line.text).isSome
    if line.text.isEmpty || line.text.head? == some Text.newline then site.addText number
    else if 3 < line.indent then
      if site.inParagraph || line.isBlank then site.addText number
      else site.progress.replace number site.containers .code
    else if isUnderline then
      match underlined? number site with
      | some progress => progress
      | none => openBlocks number fuel { site with progress := site.progress.closeLeaf number }
    else if isDivider line.offset line.text then
      site.progress.replace number site.containers .none
    else
      match site.containers, ItemMark.read? line.text with
      | .list mark _ _ :: around, some item =>
        let next := site.enterItem number mark around item
        if item.isEmpty then next.finish number else openBlocks number fuel next
      | _, _ =>
        match site.listStart? with
        | some item => openBlocks number fuel (site.enter number (.list item.mark 0 true) line)
        | none =>
          match site.openLeaf? number with
          | some progress => progress
          | none =>
            match line.afterQuote? with
            | some after => openBlocks number fuel (site.enter number .quote after)
            | none => site.addText number

/-! ## Documents -/

def openIn (number : Nat) (containers : List Container) (line : Line) (progress : Progress) :
    Progress :=
  openBlocks number (2 * line.text.length + 4) { progress, containers, line }

/-- Opens blocks in the innermost container. -/
def reopen (number : Nat) (line : Line) (progress : Progress) : Progress :=
  openIn number progress.containers line progress

/-- Goes on with the innermost block after all containers have gone on. -/
def continueLeaf (number : Nat) (line : Line) (progress : Progress) : Progress :=
  match progress.leaf with
  | .none | .paragraph _ => reopen number line progress
  | .fenced opening content =>
    if opening.isClosedBy line then progress.closeLeaf number
    else { progress with leaf := .fenced opening (opening.contentOf line :: content) }
  | .code => if line.isBlank || 4 ≤ line.indent then progress else reopen number line progress
  | .html close isOver =>
    if isOver then reopen number line progress
    else if !close.isIn (codesOf line.text) then progress
    else if close = .blankLine then reopen number line progress
    else progress.closeLeaf number

/--
Goes on with containers, of which those that have gone on come innermost first. Where one ends, the line
may open other blocks, or still go on with a paragraph inside.
-/
def continueFrom (number : Nat) (progress : Progress) (around : List Container) :
    List Container → Line → Progress
  | [], line => continueLeaf number line progress
  | container :: inner, line =>
    match container.resume? progress around line with
    | some rest =>
      let blankItem :=
        match container with
        | .list _ _ true => progress.blankItem || line.isBlank
        | _ => progress.blankItem
      continueFrom number { progress with blankItem } (container :: around) inner rest
    | none => openIn number around line progress

def Progress.read (number : Nat) (text : Text) (progress : Progress) : Progress :=
  continueFrom number progress [] progress.containers.reverse { rest := text }

def readLines (progress : Progress) (number : Nat) : List Text → Progress
  | [] => progress.closeLeaf number
  | text :: rest => readLines (progress.read number text) (number + 1) rest

/-- A part with the plain text of its heading. -/
def Part.block (defined : List (List Nat)) : Part → Block
  | heading source => .heading (plainText defined source)
  | fence block => block

/-- The headings and fenced blocks of a document. -/
def blocks (document : Text) : List Block :=
  let progress := readLines {} 1 (lines document)
  progress.parts.reverse.map (Part.block progress.defined)

end Loxley.Markdown
