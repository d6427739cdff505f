import Loxley.Text.Rune

/-!
# Scanning code points

The pieces of Markdown that are recognised character by character are scanned as lists of code points.
A scanner gives what follows the part that it recognises.
-/

set_option autoImplicit false

namespace Loxley.Markdown

/-- White space: the space, the tab, and the characters that end a line or a page. -/
def isSpaceCode (code : Nat) : Bool :=
  code == 32 || code == 9 || code == 10 || code == 12 || code == 13

def isLetterCode (code : Nat) : Bool :=
  (65 ≤ code && code ≤ 90) || (97 ≤ code && code ≤ 122)

def isDigitCode (code : Nat) : Bool :=
  48 ≤ code && code ≤ 57

def isAlphanumericCode (code : Nat) : Bool :=
  isLetterCode code || isDigitCode code

/-- Punctuation among the ASCII characters, to which all symbols count. -/
def isMarkCode (code : Nat) : Bool :=
  (33 ≤ code && code ≤ 47) || (58 ≤ code && code ≤ 64) || (91 ≤ code && code ≤ 96) ||
    (123 ≤ code && code ≤ 126)

/-- An ASCII letter in lower case; other characters as they are. -/
def lowerCode (code : Nat) : Nat :=
  if 65 ≤ code && code ≤ 90 then code + 32 else code

def codesOf (text : Text) : List Nat :=
  (Rune.ofText text).map (·.code)

def startsWith (code : Nat) (codes : List Nat) : Bool :=
  codes.head? == some code

def after? (code : Nat) : List Nat → Option (List Nat)
  | [] => none
  | first :: rest => if first == code then some rest else none

def afterAll? (expected codes : List Nat) : Option (List Nat) :=
  if expected.isPrefixOf codes then some (codes.drop expected.length) else none

/-- What follows the first appearance of some code points. -/
def afterFirst? (wanted : List Nat) : List Nat → Option (List Nat)
  | [] => if wanted.isEmpty then some [] else none
  | code :: rest =>
    if wanted.isPrefixOf (code :: rest) then some ((code :: rest).drop wanted.length)
    else afterFirst? wanted rest

/-- Whether only white space stands before the end of the line. -/
def restOfLineIsBlank (codes : List Nat) : Bool :=
  (codes.takeWhile (· != 10)).all isSpaceCode

def afterLine (codes : List Nat) : List Nat :=
  (codes.dropWhile (· != 10)).drop 1

end Loxley.Markdown
