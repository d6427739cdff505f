import Loxley.Markdown.Inline

/-!
# Lines of a Markdown document

A line is read from the left: each block that it belongs to takes its indentation or its mark. Tabs go to
the next fourth column, so that only a part of one may be taken.
-/

set_option autoImplicit false

namespace Loxley.Markdown

/-- The lines of a text, each with the newline that ends it. -/
def lines : Text → List Text
  | [] => []
  | byte :: rest =>
    if byte == Text.newline then [byte] :: lines rest
    else
      match lines rest with
      | [] => [[byte]]
      | first :: others => (byte :: first) :: others

/-- A space or a tab. -/
def isBlank (byte : UInt8) : Bool :=
  byte == 32 || byte == 9

/-- Whether a line has nothing but white space. -/
def isBlankText (text : Text) : Bool :=
  text.all isSpace

/-- The number of columns that a tab takes from a column on. -/
def tabWidth (column : Nat) : Nat :=
  4 - column % 4

/-- What is left of a line. -/
structure Line where
  rest : Text
  /-- The columns that are left of a tab. -/
  padding : Nat := 0
  /-- The column at which the rest starts. -/
  column : Nat := 0

/-- The column after some bytes from a column on. -/
def columnAfter (column : Nat) : Text → Nat
  | [] => column
  | byte :: rest => columnAfter (column + if byte == 9 then tabWidth column else 1) rest

/-- The width of the blanks at the start of a text from a column on, and their number. -/
def indentation (column : Nat) (text : Text) : Nat × Nat :=
  let blanks := text.takeWhile isBlank
  (columnAfter column blanks - column, blanks.length)

/-- How far the blanks at the start of a text reach, up to a width. -/
def reachFrom (column width padding reached count : Nat) : Text → Nat × Nat
  | [] => (reached, count)
  | byte :: rest =>
    match padding with
    | padding + 1 => reachFrom column width padding (reached + 1) (count + 1) rest
    | 0 =>
      if byte == 9 && reached < width then
        reachFrom column width 0 (reached + tabWidth (column + reached)) (count + 1) rest
      else if byte == 32 && reached < width then
        reachFrom column width 0 (reached + 1) (count + 1) rest
      else (reached, count)

/--
The number of bytes after the padding that an indentation of some width takes, and the columns that are
left of its last tab; nothing if the text is not indented enough.
-/
def indentPosition? (column padding width : Nat) (text : Text) : Option (Nat × Nat) :=
  if width = 0 then some (0, padding)
  else
    match reachFrom column width padding 0 0 text with
    | (reached, count) => if width ≤ reached then some (count - padding, reached - width) else none

namespace Line

/-- The text of a line, with spaces for the columns that are left of a tab. -/
def text (line : Line) : Text :=
  List.replicate line.padding 32 ++ line.rest

/-- The column at which a line goes on. -/
def offset (line : Line) : Nat :=
  line.column - line.padding

def skip (count : Nat) (line : Line) : Line :=
  if count ≤ line.padding then { line with padding := line.padding - count }
  else
    let taken := line.rest.take (count - line.padding)
    { rest := line.rest.drop (count - line.padding)
      column := columnAfter line.column taken }

/-- Passes over some characters, of which the last leaves some columns. -/
def skipTo (count padding : Nat) (line : Line) : Line :=
  let next := line.skip count
  { next with padding := max next.padding padding }

/-- Whether nothing but white space is left. -/
def isBlank (line : Line) : Bool :=
  isBlankText line.text

def indent (line : Line) : Nat :=
  (indentation line.offset line.text).1

/-- The number of blanks at the start of a line. -/
def blanks (line : Line) : Nat :=
  (indentation line.offset line.text).2

/-- The text after the blanks at the start of a line. -/
def content (line : Line) : Text :=
  line.text.dropWhile Markdown.isBlank

/-- Whether marks may start here: the line is longer than its indentation is wide. -/
def hasMark (line : Line) : Bool :=
  line.indent < line.text.length

end Line

/-! ## Headings and dividers -/

/-- The text of a heading without the marks that may close it; a blank stands before those. -/
def withoutClosing (text : Text) : Text :=
  let opened := Text.trimRight (· == 35) text
  if opened.isEmpty then []
  else if opened.getLast?.any isSpace then opened
  else text

/-- The text of a heading that starts with up to six marks, if the line is one. -/
def Line.heading? (line : Line) : Option Text :=
  let marks := (line.content.takeWhile (· == 35)).length
  let after := line.content.drop marks
  if !line.hasMark || marks = 0 || 6 < marks then none
  else if after.head?.all isSpace then some (withoutClosing (Text.trim isSpace after))
  else none

/-- The mark of a line that underlines a heading. -/
def underline? (text : Text) : Option UInt8 :=
  let bar := Text.trimRight isSpace (text.dropWhile (· == 32))
  if 3 < (text.takeWhile (· == 32)).length then none
  else
    match bar with
    | [] => none
    | mark :: rest =>
      if (mark == 61 || mark == 45) && rest.all (· == mark) then some mark else none

/-- Whether a text divides the document: three or more of the same mark, with any blanks. -/
def isDivider (column : Nat) (text : Text) : Bool :=
  let marks := text.filter (!isSpace ·)
  (indentation column text).1 ≤ 3 && 3 ≤ marks.length &&
    (marks.all (· == 42) || marks.all (· == 45) || marks.all (· == 95))

/-! ## Fences -/

structure Opening where
  mark : UInt8
  /-- The number of marks; at least as many close the block. -/
  length : Nat
  indent : Nat
  language : Text

/--
The opening of a fenced block, if the line is one: three or more backticks or tildes and an
information text, of which the first word is the language. The text after backticks has no backticks,
and a single character that ends the whole document is not an information text.
-/
def Line.opening? (line : Line) : Option Opening :=
  match line.content with
  | [] => none
  | mark :: rest =>
    let length := (rest.takeWhile (· == mark)).length + 1
    let after := rest.drop (length - 1)
    let info := if after.length ≤ 1 then [] else Text.trim isSpace after
    if !line.hasMark || !(mark == 96 || mark == 126) || length < 3 then none
    else if mark == 96 && info.contains 96 then none
    else
      some { mark, length, indent := line.blanks, language := info.takeWhile (· != 32) }

def Opening.isClosedBy (opening : Opening) (line : Line) : Bool :=
  line.indent ≤ 3 && opening.length ≤ (line.content.takeWhile (· == opening.mark)).length &&
    isBlankText (line.content.dropWhile (· == opening.mark))

/-- The number of blanks at the start of a text, unless the line ends after them. -/
def leadingBlanks (text : Text) : Nat :=
  let rest := text.dropWhile isBlank
  if rest.head?.all (· == Text.newline) then 0 else text.length - rest.length

/-- A line of fenced content without the indentation of the fence, as far as it has one. -/
def Opening.contentOf (opening : Opening) (line : Line) : Text :=
  match indentPosition? line.offset line.padding opening.indent line.text with
  | some (count, padding) => List.replicate padding 32 ++ line.rest.drop count
  | none => line.rest.drop (leadingBlanks line.text)

/-! ## List items -/

structure ItemMark where
  /-- The number of spaces before the mark. -/
  indent : Nat
  /-- The number of bytes up to the end of the mark. -/
  stop : Nat
  /-- The last byte of the mark, which tells its list from others. -/
  mark : UInt8
  /-- The number before the mark, if it has one. -/
  number : Option Nat
  /-- What follows the mark. -/
  after : Text

/-- What an item has after its mark has to be separated from it. -/
def ItemMark.ofParts? (indent stop : Nat) (mark : UInt8) (number : Option Nat) (after : Text) :
    Option ItemMark :=
  if after.head?.all (fun byte => byte == Text.newline || isBlank byte) then
    some { indent, stop, mark, number, after }
  else none

/-- The mark of a list item at the start of a text: a bullet, or up to nine digits and a mark. -/
def ItemMark.read? (text : Text) : Option ItemMark :=
  let indent := (text.takeWhile (· == 32)).length
  match text.drop indent with
  | [] => none
  | first :: rest =>
    if 3 < indent then none
    else if first == 45 || first == 42 || first == 43 then
      ofParts? indent (indent + 1) first none rest
    else
      let digits := (first :: rest).takeWhile Text.isDigit
      match (first :: rest).drop digits.length with
      | mark :: after =>
        if 1 ≤ digits.length && digits.length ≤ 9 && (mark == 46 || mark == 41) then
          ofParts? indent (indent + digits.length + 1) mark (some (Text.value digits)) after
        else none
      | [] => none

/-- Whether an item has nothing on the line of its mark. -/
def ItemMark.isEmpty (item : ItemMark) : Bool :=
  isBlankText item.after

/-- The width of the blanks between the mark and the content of an item. -/
def ItemMark.gap (item : ItemMark) : Nat :=
  if item.isEmpty then 1
  else
    let width := (indentation item.stop item.after).1
    if 4 < width then 1 else width

/-- The column of the content of an item. -/
def ItemMark.offset (item : ItemMark) : Nat :=
  item.stop + item.gap

/-- Whether the mark of an item is also the start of a divider that does not underline a heading. -/
def ItemMark.isDivider (item : ItemMark) (text : Text) (inParagraph : Bool) : Bool :=
  let bar := text.drop (item.stop - 1)
  Markdown.isDivider 0 bar && !(inParagraph && underline? bar == some 45)

end Loxley.Markdown
