import Loxley.Datum

/-!
# Matching data with patterns

A pattern is a datum in which `_` matches any one datum and `...` matches any run of items of a list.
Where a pattern does not match, the mismatch names a place in the datum by the indices that lead to
it.
-/

set_option autoImplicit false

namespace Loxley.Datum

/-- Why a pattern does not match at some place. -/
inductive MismatchReason where
  | ellipsisOutsideList
  | wrongType (pattern actual : Datum)
  | wrongText (pattern actual : Datum)
  /-- The list ends at an index where the pattern asks for another item. -/
  | missingItem (pattern : Datum) (index : Nat)
  | extraItem (item : Datum) (index : Nat)

/-- A mismatch, with the indices that lead to its place from the outside in. -/
structure Mismatch where
  path : List Nat
  reason : MismatchReason

namespace Mismatch

def pathText (path : List Nat) : Text :=
  ("root" : Text) ++ path.flatMap fun index => 91 :: Text.ofNat index ++ [93]

def reasonText : MismatchReason → Text
  | .ellipsisOutsideList => "... is only allowed inside a list"
  | .wrongType pattern actual =>
    ("expected " : Text) ++ pattern.typeName ++ 32 :: pattern.render ++ (", got " : Text) ++
      actual.typeName ++ 32 :: actual.render
  | .wrongText pattern actual =>
    ("expected " : Text) ++ pattern.render ++ (", got " : Text) ++ actual.render
  | .missingItem pattern index =>
    ("expected " : Text) ++ pattern.render ++ (" at index " : Text) ++ Text.ofNat index ++
      (", but the list has only " : Text) ++ Text.ofNat index ++ (" items" : Text)
  | .extraItem item index =>
    ("unexpected extra item " : Text) ++ item.render ++ (" at index " : Text) ++ Text.ofNat index

/-- The report of a mismatch between a whole pattern and a whole datum. -/
def message (mismatch : Mismatch) (pattern actual : Datum) : Text :=
  ("at " : Text) ++ pathText mismatch.path ++ (": " : Text) ++ reasonText mismatch.reason ++
    ("\n  pattern: " : Text) ++ pattern.render ++ ("\n  actual:  " : Text) ++ actual.render

end Mismatch

/-- Compares two atoms, or data of different types. -/
def atomMismatch? (pattern actual : Datum) (path : List Nat) : Option Mismatch :=
  match pattern, actual with
  | symbol expected, symbol found | string expected, string found
  | number expected, number found =>
    if expected = found then none else some { path, reason := .wrongText pattern actual }
  | _, _ => some { path, reason := .wrongType pattern actual }

/-- Tries a rest of a pattern on the items from each index on, until it matches. -/
def tryEach (attempt : List Datum → Nat → Option Mismatch) :
    List Datum → Nat → Option Mismatch
  | [], index => attempt [] index
  | item :: items, index =>
    match attempt (item :: items) index with
    | none => none
    | some _ => tryEach attempt items (index + 1)

mutual

/-- The first mismatch of a pattern with a datum at a path, if there is one. -/
def mismatchAt? : Datum → Datum → List Nat → Option Mismatch
  | symbol text, actual, path =>
    if text = [95] then none else atomMismatch? (symbol text) actual path
  | string text, actual, path => atomMismatch? (string text) actual path
  | number text, actual, path => atomMismatch? (number text) actual path
  | ellipsis, _, path => some { path, reason := .ellipsisOutsideList }
  | list patterns, actual, path =>
    match actual with
    | list items => itemsMismatch? path patterns items 0
    | _ => some { path, reason := .wrongType (list patterns) actual }

/--
The first mismatch of the items of a list from an index on. An ellipsis takes the shortest run that
lets the rest match; if none does, the mismatch after the longest run is given.
-/
def itemsMismatch? (path : List Nat) : List Datum → List Datum → Nat → Option Mismatch
  | [], [], _ => none
  | [], item :: _, index => some { path, reason := .extraItem item index }
  | pattern :: patterns, items, index =>
    match pattern with
    | ellipsis => tryEach (itemsMismatch? path patterns) items index
    | _ =>
      match items with
      | [] => some { path, reason := .missingItem pattern index }
      | item :: others =>
        match mismatchAt? pattern item (path ++ [index]) with
        | some mismatch => some mismatch
        | none => itemsMismatch? path patterns others (index + 1)

end

/-- The first mismatch of a pattern with a datum, if there is one. -/
def mismatch? (pattern actual : Datum) : Option Mismatch :=
  mismatchAt? pattern actual []

end Loxley.Datum
