import Loxley.Proofs.Datum.Matching
import Mathlib

/-!
# Where patterns fail

The indices of a mismatch lead to a place in the datum, and what the mismatch says is true of that
place: how many items it has, which of them is one too many, or what it is instead.
-/

set_option autoImplicit false

namespace Loxley.Datum

/-! ## Places -/

def item? : Datum → Nat → Option Datum
  | list items, index => items[index]?
  | _, _ => none

/-- The datum to which indices lead, from the outside in. -/
def at? : Datum → List Nat → Option Datum
  | datum, [] => some datum
  | datum, index :: path => (datum.item? index).bind fun item => item.at? path

theorem at?_concat (datum : Datum) (path : List Nat) (index : Nat) :
    datum.at? (path ++ [index]) = (datum.at? path).bind fun place => place.item? index := by
  induction path generalizing datum with
  | nil => exact Option.bind_fun_some _
  | cons first path ih =>
      rw [List.cons_append, at?, at?]
      cases datum.item? first with
      | none => rfl
      | some item => exact ih item

theorem at?_item {root item : Datum} {path : List Nat} {before after : List Datum}
    (here : root.at? path = some (list (before ++ item :: after))) :
    root.at? (path ++ [before.length]) = some item := by
  rw [at?_concat, here, Option.bind_some, item?, List.getElem?_append_right (Nat.le_refl _),
    Nat.sub_self, List.getElem?_cons_zero]

/-! ## What a mismatch says about its place -/

/-- A reason for a mismatch is true of a place, and so is its wording. The index at which an item is
missing and the number of items are told apart. -/
inductive Tells (place : Datum) : MismatchReason → Text → Prop
  | ellipsis : Tells place .ellipsisOutsideList "... is only allowed inside a list"
  | wrongType {pattern : Datum} (differ : pattern.typeName ≠ place.typeName) :
      Tells place (.wrongType pattern place)
        (("expected " : Text) ++ pattern.typeName ++ 32 :: pattern.render ++ (", got " : Text) ++
          place.typeName ++ 32 :: place.render)
  | wrongText {pattern : Datum} (isAtom : place.isAtom = true)
      (sameType : pattern.typeName = place.typeName) (differ : pattern ≠ place) :
      Tells place (.wrongText pattern place)
        (("expected " : Text) ++ pattern.render ++ (", got " : Text) ++ place.render)
  | missing {pattern : Datum} {items : List Datum} {index count : Nat} (isList : place = list items)
      (counted : items.length = count) (atEnd : index = count) :
      Tells place (.missingItem pattern index)
        (("expected " : Text) ++ pattern.render ++ (" at index " : Text) ++ Text.ofNat index ++
          (", but the list has only " : Text) ++ Text.ofNat count ++ (" items" : Text))
  | extra {item : Datum} {items : List Datum} {index : Nat} (isList : place = list items)
      (more : index < items.length) (isItem : items[index] = item) :
      Tells place (.extraItem item index)
        (("unexpected extra item " : Text) ++ item.render ++ (" at index " : Text) ++
          Text.ofNat index)

/-- The indices of a mismatch lead to a place of which it is true. -/
def Located (root : Datum) (mismatch : Mismatch) : Prop :=
  ∃ place, root.at? mismatch.path = some place ∧
    place.Tells mismatch.reason (Mismatch.reasonText mismatch.reason)

section Located

variable {root : Datum} {mismatch : Mismatch}

theorem located_wrongType {pattern actual : Datum} {path : List Nat}
    (here : root.at? path = some actual) (differ : pattern.typeName ≠ actual.typeName) :
    Located root { path, reason := .wrongType pattern actual } :=
  ⟨actual, here, .wrongType differ⟩

/-- Atoms of one type differ in their texts. -/
theorem located_of_text (pattern : Datum) {actual : Datum} {path : List Nat}
    {expected found : Text} (here : root.at? path = some actual) (isAtom : actual.isAtom = true)
    (sameType : pattern.typeName = actual.typeName) (differ : expected ≠ found → pattern ≠ actual)
    (failed : (if expected = found then none
      else some { path, reason := .wrongText pattern actual }) = some mismatch) :
    Located root mismatch := by
  split at failed
  · cases failed
  · next different =>
      cases failed
      exact ⟨actual, here, .wrongText isAtom sameType (differ different)⟩

theorem located_of_atomMismatch? {pattern actual : Datum} {path : List Nat}
    (isAtom : pattern.isAtom = true) (notEllipsis : pattern ≠ ellipsis)
    (here : root.at? path = some actual)
    (failed : atomMismatch? pattern actual path = some mismatch) : Located root mismatch := by
  cases pattern with
  | ellipsis => exact absurd rfl notEllipsis
  | list patterns => cases isAtom
  | symbol expected =>
      cases actual with
      | symbol found => exact located_of_text (symbol expected) here rfl rfl (by simp) failed
      | string | number | ellipsis | list =>
          cases failed
          exact located_wrongType here (by simp only [typeName]; decide)
  | string expected =>
      cases actual with
      | string found => exact located_of_text (string expected) here rfl rfl (by simp) failed
      | symbol | number | ellipsis | list =>
          cases failed
          exact located_wrongType here (by simp only [typeName]; decide)
  | number expected =>
      cases actual with
      | number found => exact located_of_text (number expected) here rfl rfl (by simp) failed
      | symbol | string | ellipsis | list =>
          cases failed
          exact located_wrongType here (by simp only [typeName]; decide)

/-- If no rest matches, the mismatch is that of the empty rest. -/
theorem tryEach_eq_some {attempt : List Datum → Nat → Option Mismatch} {items : List Datum}
    {index : Nat} (failed : tryEach attempt items index = some mismatch) :
    attempt [] (index + items.length) = some mismatch := by
  induction items generalizing index with
  | nil => exact failed
  | cons item items ih =>
      rw [tryEach] at failed
      cases here : attempt (item :: items) index with
      | none => rw [here] at failed; cases failed
      | some problem =>
          rw [here] at failed
          have last := ih failed
          rwa [Nat.add_assoc, Nat.add_comm 1] at last

mutual

theorem located_of_mismatchAt? (pattern : Datum) {actual : Datum} {path : List Nat}
    (here : root.at? path = some actual)
    (failed : mismatchAt? pattern actual path = some mismatch) : Located root mismatch := by
  cases pattern with
  | symbol text =>
      rw [mismatchAt?] at failed
      split at failed
      · cases failed
      · exact located_of_atomMismatch? rfl (by simp) here failed
  | string text | number text =>
      exact located_of_atomMismatch? rfl (by simp) here failed
  | ellipsis =>
      cases failed
      exact ⟨actual, here, .ellipsis⟩
  | list patterns =>
      cases actual with
      | list items =>
          rw [mismatchAt?] at failed
          exact located_of_itemsMismatch? patterns [] here failed
      | symbol | string | number | ellipsis =>
          cases failed
          exact located_wrongType here (by simp only [typeName]; decide)

/-- The items are the last ones of a list, behind as many others as the index says. -/
theorem located_of_itemsMismatch? (patterns before : List Datum) {items : List Datum}
    {path : List Nat} (here : root.at? path = some (list (before ++ items)))
    (failed : itemsMismatch? path patterns items before.length = some mismatch) :
    Located root mismatch := by
  cases patterns with
  | nil =>
      cases items with
      | nil => cases failed
      | cons item after =>
          cases failed
          exact ⟨_, here, .extra rfl (by simp) (by simp)⟩
  | cons pattern patterns =>
      by_cases isEllipsis : pattern = ellipsis
      · subst isEllipsis
        rw [itemsMismatch?] at failed
        have last := tryEach_eq_some failed
        rw [← List.length_append] at last
        exact located_of_itemsMismatch? patterns (before ++ items) (by rwa [List.append_nil]) last
      · cases items with
        | nil =>
            rw [itemsMismatch?_missing isEllipsis] at failed
            cases failed
            exact ⟨_, here, .missing rfl (by simp) rfl⟩
        | cons item others =>
            rw [itemsMismatch?_item isEllipsis] at failed
            rcases Option.or_eq_some_iff.mp failed with first | ⟨_, later⟩
            · exact located_of_mismatchAt? pattern (at?_item here) first
            · rw [List.append_cons] at here
              exact located_of_itemsMismatch? patterns (before ++ [item]) here
                (by rwa [List.length_append])

end

end Located

/--
The indices of a mismatch lead to a place in the datum, and the report of the mismatch is true of
that place. A search with indices into the lists gives the same report.
-/
theorem mismatch_names_place {pattern actual : Datum} {mismatch : Mismatch}
    (failed : mismatch? pattern actual = some mismatch) :
    (∃ place, actual.at? mismatch.path = some place ∧
      place.Tells mismatch.reason (Mismatch.reasonText mismatch.reason)) ∧
    Search.message? pattern actual = some (some (mismatch.message pattern actual)) := by
  refine ⟨located_of_mismatchAt? pattern rfl failed, ?_⟩
  rw [Search.message?_eq, failed, Option.map_some]

/-- The pattern `(a (b ... c))`. -/
def endsInC : Datum :=
  list [symbol "a", list [symbol "b", ellipsis, symbol "c"]]

/-- The datum `(a (b "x" 2))`. -/
def endsInTwo : Datum :=
  list [symbol "a", list [symbol "b", string "x", number "2"]]

theorem endsInTwo_names_place :
    mismatch? endsInC endsInTwo = some { path := [1], reason := .missingItem (symbol "c") 3 } ∧
    ∃ place, endsInTwo.at? [1] = some place ∧
      place.Tells (.missingItem (symbol "c") 3)
        "expected c at index 3, but the list has only 3 items" ∧
      Search.message? endsInC endsInTwo = some (some
        (("at root[1]: expected c at index 3, but the list has only 3 items" : Text) ++
          ("\n  pattern: (a (b ... c))\n  actual:  (a (b \"x\" 2))" : Text))) := by
  have failed : mismatch? endsInC endsInTwo =
      some { path := [1], reason := .missingItem (symbol "c") 3 } := by rfl
  have worded : Mismatch.reasonText (.missingItem (symbol "c") 3) =
      "expected c at index 3, but the list has only 3 items" := by cbv
  obtain ⟨⟨place, here, tells⟩, message⟩ := mismatch_names_place failed
  refine ⟨failed, place, here, worded ▸ tells, message.trans ?_⟩
  rw [Mismatch.message, worded]
  cbv

end Loxley.Datum
