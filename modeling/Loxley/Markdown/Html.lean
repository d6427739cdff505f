import Loxley.Markdown.Code

/-!
# HTML in Markdown

Tags, comments and the like inside a line of text, and the lines that start a block of HTML.
-/

set_option autoImplicit false

namespace Loxley.Markdown

/-! ## Tags -/

def isTagSpace (code : Nat) : Bool :=
  code == 32 || code == 9 || code == 10 || code == 13

/-- The name of a tag, which starts with a letter, and what follows it. -/
def tagName? : List Nat → Option (List Nat × List Nat)
  | [] => none
  | first :: rest =>
    let isName (code : Nat) : Bool := isAlphanumericCode code || code == 45
    if isLetterCode first then some (first :: rest.takeWhile isName, rest.dropWhile isName)
    else none

/-- Whether a code point may stand in the value of an attribute without quotes. -/
def isUnquoted (code : Nat) : Bool :=
  32 < code && code != 34 && code != 39 && code != 61 && code != 60 && code != 62 && code != 96

def afterValue? (codes : List Nat) : Option (List Nat) :=
  match after? 61 (codes.dropWhile isTagSpace) with
  | none => none
  | some rest =>
    match rest.dropWhile isTagSpace with
    | [] => none
    | first :: others =>
      if first == 34 || first == 39 then after? first (others.dropWhile (· != first))
      else if isUnquoted first then some (others.dropWhile isUnquoted)
      else none

/-- What follows an attribute, before which white space stands. -/
def afterAttribute? (codes : List Nat) : Option (List Nat) :=
  match codes.takeWhile isTagSpace, codes.dropWhile isTagSpace with
  | _ :: _, first :: rest =>
    if isLetterCode first || first == 95 || first == 58 then
      let after := rest.dropWhile fun code =>
        isAlphanumericCode code || code == 58 || code == 46 || code == 95 || code == 45
      some ((afterValue? after).getD after)
    else none
  | _, _ => none

def afterAttributes : Nat → List Nat → List Nat
  | 0, codes => codes
  | fuel + 1, codes =>
    match afterAttribute? codes with
    | none => codes
    | some rest => afterAttributes fuel rest

/-- What follows an opening tag, after its angle. -/
def afterOpenTag? (codes : List Nat) : Option (List Nat) :=
  match tagName? codes with
  | none => none
  | some (_, rest) =>
    let body := (afterAttributes rest.length rest).dropWhile isTagSpace
    after? 62 ((after? 47 body).getD body)

/-- What follows a closing tag, after its angle and slash. -/
def afterCloseTag? (codes : List Nat) : Option (List Nat) :=
  match tagName? codes with
  | none => none
  | some (_, rest) => after? 62 (rest.dropWhile isTagSpace)

/-- What follows a comment, after its opening. Two short forms are comments too. -/
def afterComment? (codes : List Nat) : Option (List Nat) :=
  match after? 62 codes with
  | some rest => some rest
  | none =>
    match afterAll? [45, 62] codes with
    | some rest => some rest
    | none => afterFirst? [45, 45, 62] codes

/-- What follows HTML inside a line of text that starts with an angle. -/
def afterHtml? (codes : List Nat) : Option (List Nat) :=
  match codes with
  | 60 :: 47 :: rest => if rest.head?.any isAlphanumericCode then afterCloseTag? rest else none
  | 60 :: 63 :: _ => afterFirst? [63, 62] codes
  | 60 :: 33 :: 45 :: 45 :: rest => afterComment? rest
  | 60 :: 33 :: rest =>
    if rest.head?.any fun code => 65 ≤ code && code ≤ 90 then afterFirst? [62] codes
    else if [91, 67, 68, 65, 84, 65, 91].isPrefixOf rest then afterFirst? [93, 93, 62] codes
    else none
  | 60 :: rest => if rest.head?.any isAlphanumericCode then afterOpenTag? rest else none
  | _ => none

/-! ## Addresses between angles -/

/-- The pieces between the occurrences of a code point. -/
def splitCodes (separator : Nat) : List Nat → List (List Nat)
  | [] => [[]]
  | code :: rest =>
    if code == separator then [] :: splitCodes separator rest
    else
      match splitCodes separator rest with
      | [] => [[code]]
      | first :: others => (code :: first) :: others

/-- A part of a domain: letters, digits and inner hyphens. -/
def isDomainLabel (label : List Nat) : Bool :=
  label.length ≤ 63 && label.head?.any isAlphanumericCode && label.getLast?.any isAlphanumericCode

/-- The marks that may stand before the sign of a mail address. -/
def mailMarks : List Nat :=
  [46, 33, 35, 36, 37, 38, 39, 42, 43, 47, 61, 63, 94, 95, 96, 123, 124, 125, 126, 45]

def isMailAddress (codes : List Nat) : Bool :=
  let isLocal (code : Nat) : Bool := isAlphanumericCode code || mailMarks.contains code
  match codes.takeWhile isLocal, codes.dropWhile isLocal with
  | _ :: _, 64 :: domain =>
    domain.all (fun code => isAlphanumericCode code || code == 45 || code == 46) &&
      (splitCodes 46 domain).all isDomainLabel
  | _, _ => false

/-- Whether code points are an address with a scheme. -/
def isAddress (codes : List Nat) : Bool :=
  let isScheme (code : Nat) : Bool :=
    isAlphanumericCode code || code == 46 || code == 43 || code == 45
  let scheme := codes.takeWhile isScheme
  codes.head?.any isLetterCode && 2 ≤ scheme.length && scheme.length ≤ 33 &&
    match codes.dropWhile isScheme with
    | 58 :: rest => rest.all fun code => 32 < code && code != 60
    | _ => false

/-- What follows an address between angles. -/
def afterAddress? : List Nat → Option (List Nat)
  | 60 :: rest =>
    let inner := rest.takeWhile (· != 62)
    if isMailAddress inner || isAddress inner then after? 62 (rest.dropWhile (· != 62)) else none
  | _ => none

/-! ## Blocks -/

/-- Where a block of HTML ends. -/
inductive HtmlEnd where
  /-- At a line with the closing tag of one of the elements whose content is not markup. -/
  | rawClose
  /-- At a line with a mark. -/
  | mark (codes : List Nat)
  /-- Before a blank line. -/
  | blankLine
deriving DecidableEq

/-- The elements whose content is not markup. -/
def rawElements : List (List Nat) :=
  ["script", "pre", "style", "textarea"].map fun (name : String) => codesOf name

/-- The elements whose tags start a block. -/
def blockElements : List (List Nat) :=
  ["address", "article", "aside", "base", "basefont", "blockquote", "body", "caption", "center",
    "col", "colgroup", "dd", "details", "dialog", "dir", "div", "dl", "dt", "fieldset",
    "figcaption", "figure", "footer", "form", "frame", "frameset", "h1", "h2", "h3", "h4", "h5",
    "h6", "head", "header", "hr", "html", "iframe", "legend", "li", "link", "main", "menu",
    "menuitem", "meta", "nav", "noframes", "ol", "optgroup", "option", "p", "param", "search",
    "section", "summary", "table", "tbody", "td", "tfoot", "th", "thead", "title", "tr", "track",
    "ul"].map fun (name : String) => codesOf name

/-- Whether a tag may end here: at a blank from a given set, at its angle, or with the line. -/
def endsTagStart (isBlank : Nat → Bool) (codes : List Nat) : Bool :=
  codes.head?.all (fun code => isBlank code || code == 62 || code == 10) ||
    [47, 62].isPrefixOf codes || codes == [13, 10]

/-- Whether a line starts with an opening tag of one of the elements without markup. -/
def startsRaw (codes : List Nat) : Bool :=
  match tagName? codes with
  | none => false
  | some (name, rest) =>
    rawElements.contains (name.map lowerCode) &&
      endsTagStart isSpaceCode rest

/-- What follows the slash of a closing tag and the spaces after it, if there is one. -/
def dropTagSlash (codes : List Nat) : List Nat :=
  match after? 47 codes with
  | some rest => rest.dropWhile (· == 32)
  | none => codes

/-- Whether a line starts with a tag of one of the elements that start a block. -/
def startsBlockTag (codes : List Nat) : Bool :=
  match tagName? (dropTagSlash codes) with
  | none => false
  | some (name, rest) =>
    blockElements.contains (name.map lowerCode) && endsTagStart (· == 32) rest

/--
The name of a tag that stands alone on a line, unless it is a closing tag with attributes.
-/
def loneTag? (codes : List Nat) : Option (List Nat) :=
  match tagName? (dropTagSlash codes) with
  | none => none
  | some (name, rest) =>
    let afterNames := afterAttributes rest.length rest
    let body := afterNames.dropWhile (· == 32)
    match after? 62 ((after? 47 body).getD body) with
    | none => none
    | some tail =>
      let isClosing := startsWith 47 codes && !startsWith 32 (codes.drop 1)
      let isAlone := [[], [10], [13, 10]].contains (tail.dropWhile (· == 32))
      if isAlone && !(isClosing && afterNames.length != rest.length) then some (name.map lowerCode)
      else none

/-- Where the block ends that a line starts, after its angle, if it starts one. -/
def htmlStart? (inParagraph : Bool) (codes : List Nat) : Option HtmlEnd :=
  if startsRaw codes then some .rawClose
  else if [33, 45, 45].isPrefixOf codes then some (.mark [45, 45, 62])
  else if [63].isPrefixOf codes then some (.mark [63, 62])
  else if startsWith 33 codes && (codes.drop 1).head?.any (fun code => 65 ≤ code && code ≤ 90) then
    some (.mark [62])
  else if [33, 91, 67, 68, 65, 84, 65, 91].isPrefixOf codes then some (.mark [93, 93, 62])
  else if startsBlockTag codes then some .blankLine
  else
    match loneTag? codes with
    | none => none
    | some name =>
      if blockElements.contains name then some .blankLine
      else if inParagraph || (rawElements.take 3).contains name then none
      else some .blankLine

/-- Whether code points have a closing tag of one of the elements without markup. -/
def hasRawClose : List Nat → Bool
  | [] => false
  | code :: rest =>
    (match afterAll? [60, 47] (code :: rest) with
      | none => false
      | some tag => rawElements.any fun name => (name ++ [62]).isPrefixOf (tag.map lowerCode)) ||
      hasRawClose rest

/-- Whether a line has the end of a block. A blank line is not part of it. -/
def HtmlEnd.isIn (codes : List Nat) : HtmlEnd → Bool
  | rawClose => hasRawClose codes
  | mark wanted => (afterFirst? wanted codes).isSome
  | blankLine => codes.all isSpaceCode

end Loxley.Markdown
