import Loxley.Text.Rune

/-!
# What can be wrong with a YAML document

The causes for which a document is refused as a whole, with their wording.
-/

set_option autoImplicit false

namespace Loxley.Yaml

/-- Why a document is refused. -/
inductive Problem where
  | invalidLead | incompleteSequence | invalidTrail | invalidLength | invalidCharacter
  | incompleteUnit | incompletePair | unexpectedLowUnit | expectedLowUnit
  | controlCharacter
  | noKeyColon
  | misplacedItem
  | misplacedKey
  | misplacedValue
  | noTokenStart
  | unknownDirective | noDirectiveName | badDirectiveName | noDirectiveEnd
  | longVersion | noVersion | noVersionPoint
  | noAnchorName
  | noTagMark | noTagAngle | noTagEnd | noTagAddress | noTagBlank | noTagLineEnd
  | noEscapedByte | badEscapedLead | badEscapedTrail
  | zeroIndentation | noBlockLineEnd | tabInBlock
  | markerInQuotes | endInQuotes | unknownEscape | noHexDigit | badEscapedCharacter
  | tabInPlain
  | noDocumentStart | duplicateVersion | wrongVersion | duplicateTag | undefinedHandle
  | noNode | noItemMark | noKey | noFlowItemEnd | noFlowEntryEnd
  | unknownAnchor (name : Text)
  | recursiveAnchor (name : Text)
  | undecodable (found text expected : Text)
  | badBinary
  | badMerge
deriving DecidableEq

def Problem.text : Problem → Text
  | invalidLead => "invalid leading UTF-8 octet"
  | incompleteSequence => "incomplete UTF-8 octet sequence"
  | invalidTrail => "invalid trailing UTF-8 octet"
  | invalidLength => "invalid length of a UTF-8 sequence"
  | invalidCharacter => "invalid Unicode character"
  | incompleteUnit => "incomplete UTF-16 character"
  | incompletePair => "incomplete UTF-16 surrogate pair"
  | unexpectedLowUnit => "unexpected low surrogate area"
  | expectedLowUnit => "expected low surrogate area"
  | controlCharacter => "control characters are not allowed"
  | noKeyColon => "could not find expected ':'"
  | misplacedItem => "block sequence entries are not allowed in this context"
  | misplacedKey => "mapping keys are not allowed in this context"
  | misplacedValue => "mapping values are not allowed in this context"
  | noTokenStart => "found character that cannot start any token"
  | unknownDirective => "found unknown directive name"
  | noDirectiveName => "could not find expected directive name"
  | badDirectiveName => "found unexpected non-alphabetical character"
  | noDirectiveEnd | noBlockLineEnd => "did not find expected comment or line break"
  | longVersion => "found extremely long version number"
  | noVersion => "did not find expected version number"
  | noVersionPoint => "did not find expected digit or '.' character"
  | noAnchorName => "did not find expected alphabetic or numeric character"
  | noTagMark => "did not find expected '!'"
  | noTagAngle => "did not find the expected '>'"
  | noTagEnd | noTagLineEnd => "did not find expected whitespace or line break"
  | noTagAddress => "did not find expected tag URI"
  | noTagBlank => "did not find expected whitespace"
  | noEscapedByte => "did not find URI escaped octet"
  | badEscapedLead => "found an incorrect leading UTF-8 octet"
  | badEscapedTrail => "found an incorrect trailing UTF-8 octet"
  | zeroIndentation => "found an indentation indicator equal to 0"
  | tabInBlock => "found a tab character where an indentation space is expected"
  | markerInQuotes => "found unexpected document indicator"
  | endInQuotes => "found unexpected end of stream"
  | unknownEscape => "found unknown escape character"
  | noHexDigit => "did not find expected hexdecimal number"
  | badEscapedCharacter => "found invalid Unicode character escape code"
  | tabInPlain => "found a tab character that violates indentation"
  | noDocumentStart => "did not find expected <document start>"
  | duplicateVersion => "found duplicate %YAML directive"
  | wrongVersion => "found incompatible YAML document"
  | duplicateTag => "found duplicate %TAG directive"
  | undefinedHandle => "found undefined tag handle"
  | noNode => "did not find expected node content"
  | noItemMark => "did not find expected '-' indicator"
  | noKey => "did not find expected key"
  | noFlowItemEnd => "did not find expected ',' or ']'"
  | noFlowEntryEnd => "did not find expected ',' or '\x7d'"
  | unknownAnchor name => ("unknown anchor '" : Text) ++ name ++ ("' referenced" : Text)
  | recursiveAnchor name => ("anchor '" : Text) ++ name ++ ("' value contains itself" : Text)
  | undecodable found text expected =>
    ("cannot decode " : Text) ++ found ++ (" `" : Text) ++ text ++ ("` as a " : Text) ++ expected
  | badBinary => "!!binary value contains invalid base64 data"
  | badMerge => "map merge requires map or sequence of maps as the value"

/-- A problem with the line that is reported for it, if any. -/
structure Error where
  problem : Problem
  line : Option Nat := none
deriving DecidableEq

def Error.message (error : Error) : Text :=
  ("yaml: " : Text) ++
    (match error.line with
      | some line => ("line " : Text) ++ Text.ofNat line ++ (": " : Text)
      | none => []) ++
    error.problem.text

/--
The line to report among two that are counted from zero: that of the context, or else that of the
problem. The first line of a document is not reported.
-/
def reportedLine (context problem : Nat) : Option Nat :=
  if context ≠ 0 then some context
  else if problem ≠ 0 then some problem
  else none

/-- A problem with the words of a document, whose lines are reported counted from one. -/
def Error.inToken (problem : Problem) (context place : Nat) : Error where
  problem := problem
  line := (reportedLine context place).map (· + 1)

/-- A problem with the structure of a document, whose lines are reported counted from zero. -/
def Error.inStructure (problem : Problem) (context place : Nat) : Error where
  problem := problem
  line := reportedLine context place

end Loxley.Yaml
