import Loxley.Datum.Pattern
import Mathlib.Data.List.Forall2

/-!
# What patterns match

A pattern matches a datum if the items of every list can be cut into pieces, one for each item of the
pattern: any piece for an ellipsis, and a single item that matches for anything else. The first
mismatch is missing exactly then. It can also be found with indices into the lists, none of which
ever lies outside.
-/

set_option autoImplicit false

namespace Loxley.Datum

mutual

/-- A pattern matches a datum. No ellipsis does outside of a list. -/
inductive Matches : Datum → Datum → Prop
  | wildcard {actual : Datum} : Matches (symbol [95]) actual
  | symbol {text : Text} : Matches (symbol text) (symbol text)
  | string {text : Text} : Matches (string text) (string text)
  | number {text : Text} : Matches (number text) (number text)
  | list {patterns : List Datum} {pieces : List (List Datum)}
      (each : List.Forall₂ Takes patterns pieces) : Matches (list patterns) (list pieces.flatten)

/-- An item of a list pattern takes a piece of a list. -/
inductive Takes : Datum → List Datum → Prop
  | run {items : List Datum} : Takes ellipsis items
  | item {pattern item : Datum} (matched : Matches pattern item) : Takes pattern [item]

end

theorem matches_symbol_iff {text : Text} {actual : Datum} :
    Matches (symbol text) actual ↔ text = [95] ∨ actual = symbol text := by
  constructor
  · rintro (_ | _)
    · exact .inl rfl
    · exact .inr rfl
  · rintro (rfl | rfl)
    · exact .wildcard
    · exact .symbol

theorem matches_string_iff {text : Text} {actual : Datum} :
    Matches (string text) actual ↔ actual = string text := by
  constructor
  · rintro ⟨⟩
    rfl
  · rintro rfl
    exact .string

theorem matches_number_iff {text : Text} {actual : Datum} :
    Matches (number text) actual ↔ actual = number text := by
  constructor
  · rintro ⟨⟩
    rfl
  · rintro rfl
    exact .number

theorem not_matches_ellipsis (actual : Datum) : ¬ Matches ellipsis actual := by
  rintro ⟨⟩

/-- A list pattern takes all items of a list. -/
def Covers (patterns items : List Datum) : Prop :=
  ∃ pieces : List (List Datum), pieces.flatten = items ∧ List.Forall₂ Takes patterns pieces

theorem matches_list_iff {patterns : List Datum} {actual : Datum} :
    Matches (list patterns) actual ↔ ∃ items, actual = list items ∧ Covers patterns items := by
  constructor
  · rintro (_ | _ | _ | _ | each)
    exact ⟨_, rfl, _, rfl, each⟩
  · rintro ⟨_, rfl, pieces, rfl, each⟩
    exact .list each

theorem covers_nil_iff {items : List Datum} : Covers [] items ↔ items = [] := by
  constructor
  · rintro ⟨pieces, rfl, each⟩
    cases each
    rfl
  · rintro rfl
    exact ⟨[], rfl, .nil⟩

theorem covers_ellipsis_iff {patterns items : List Datum} :
    Covers (ellipsis :: patterns) items ↔ ∃ run rest, items = run ++ rest ∧ Covers patterns rest := by
  constructor
  · rintro ⟨pieces, rfl, each⟩
    cases each with
    | @cons _ piece _ pieces taken others => exact ⟨piece, pieces.flatten, rfl, pieces, rfl, others⟩
  · rintro ⟨run, _, rfl, pieces, rfl, others⟩
    exact ⟨run :: pieces, rfl, .cons .run others⟩

theorem covers_item_iff {pattern : Datum} (notEllipsis : pattern ≠ ellipsis)
    {patterns items : List Datum} :
    Covers (pattern :: patterns) items ↔
      ∃ item others, items = item :: others ∧ Matches pattern item ∧ Covers patterns others := by
  constructor
  · rintro ⟨pieces, rfl, each⟩
    cases each with
    | @cons _ piece _ pieces taken others =>
        cases taken with
        | run => exact absurd rfl notEllipsis
        | @item _ item matched => exact ⟨item, pieces.flatten, rfl, matched, pieces, rfl, others⟩
  · rintro ⟨item, _, rfl, matched, pieces, rfl, others⟩
    exact ⟨[item] :: pieces, rfl, .cons (.item matched) others⟩

/-! ## The first mismatch -/

theorem tryEach_eq_none_iff (attempt : List Datum → Nat → Option Mismatch) (items : List Datum)
    (index : Nat) :
    tryEach attempt items index = none ↔
      ∃ run rest, items = run ++ rest ∧ attempt rest (index + run.length) = none := by
  induction items generalizing index with
  | nil =>
      constructor
      · intro found
        exact ⟨[], [], rfl, found⟩
      · rintro ⟨run, rest, shape, found⟩
        obtain ⟨rfl, rfl⟩ := List.append_eq_nil_iff.mp shape.symm
        exact found
  | cons item items ih =>
      rw [tryEach]
      cases here : attempt (item :: items) index with
      | none => exact ⟨fun _ => ⟨[], item :: items, rfl, here⟩, fun _ => rfl⟩
      | some problem =>
          simp only [ih]
          constructor
          · rintro ⟨run, rest, rfl, found⟩
            refine ⟨item :: run, rest, rfl, ?_⟩
            rwa [List.length_cons, Nat.add_comm run.length, ← Nat.add_assoc]
          · rintro ⟨run, rest, shape, found⟩
            cases run with
            | nil =>
                cases shape
                rw [List.length_nil, Nat.add_zero, here] at found
                cases found
            | cons first run =>
                cases shape
                refine ⟨run, rest, rfl, ?_⟩
                rwa [List.length_cons, Nat.add_comm run.length, ← Nat.add_assoc] at found

section Items

variable {pattern : Datum} (notEllipsis : pattern ≠ ellipsis) (path : List Nat)
  (patterns : List Datum) (index : Nat)

include notEllipsis

theorem itemsMismatch?_missing :
    itemsMismatch? path (pattern :: patterns) [] index =
      some { path, reason := .missingItem pattern index } := by
  cases pattern with
  | ellipsis => exact absurd rfl notEllipsis
  | symbol text | string text | number text | list items => simp only [itemsMismatch?]

theorem itemsMismatch?_item (item : Datum) (others : List Datum) :
    itemsMismatch? path (pattern :: patterns) (item :: others) index =
      (mismatchAt? pattern item (path ++ [index])).or
        (itemsMismatch? path patterns others (index + 1)) := by
  cases pattern with
  | ellipsis => exact absurd rfl notEllipsis
  | symbol text | string text | number text | list items =>
      simp only [itemsMismatch?]
      split
      · next mismatch found => rw [found, Option.some_or]
      · next found => rw [found, Option.none_or]

end Items

mutual

theorem mismatchAt?_eq_none_iff (pattern actual : Datum) (path : List Nat) :
    mismatchAt? pattern actual path = none ↔ Matches pattern actual := by
  cases pattern with
  | symbol text =>
      rw [matches_symbol_iff]
      by_cases isWildcard : text = [95]
      · simp [mismatchAt?, isWildcard]
      · cases actual <;> simp [mismatchAt?, atomMismatch?, isWildcard, eq_comm]
  | string text =>
      rw [matches_string_iff]
      cases actual <;> simp [mismatchAt?, atomMismatch?, eq_comm]
  | number text =>
      rw [matches_number_iff]
      cases actual <;> simp [mismatchAt?, atomMismatch?, eq_comm]
  | ellipsis => simp [mismatchAt?, not_matches_ellipsis]
  | list patterns =>
      rw [matches_list_iff]
      cases actual with
      | list items => simp [mismatchAt?, itemsMismatch?_eq_none_iff patterns items path 0]
      | symbol text | string text | number text | ellipsis => simp [mismatchAt?]

theorem itemsMismatch?_eq_none_iff (patterns items : List Datum) (path : List Nat) (index : Nat) :
    itemsMismatch? path patterns items index = none ↔ Covers patterns items := by
  cases patterns with
  | nil =>
      rw [covers_nil_iff]
      cases items <;> simp [itemsMismatch?]
  | cons pattern patterns =>
      by_cases isEllipsis : pattern = ellipsis
      · subst isEllipsis
        simp only [itemsMismatch?, tryEach_eq_none_iff, covers_ellipsis_iff,
          itemsMismatch?_eq_none_iff patterns]
      · rw [covers_item_iff isEllipsis]
        cases items with
        | nil => simp [itemsMismatch?_missing isEllipsis]
        | cons item others =>
            rw [itemsMismatch?_item isEllipsis, Option.or_eq_none_iff,
              mismatchAt?_eq_none_iff pattern item, itemsMismatch?_eq_none_iff patterns others]
            simp

end

/-! ## Searching with indices -/

namespace Search

def text : Datum → Text
  | symbol text | string text | number text => text
  | ellipsis | list _ => []

def report (place reason : Text) : Text :=
  ("at " : Text) ++ place ++ (": " : Text) ++ reason

def placeOf (place : Text) (index : Nat) : Text :=
  place ++ (91 :: Text.ofNat index ++ [93])

/-- The report of two data that are not both lists, if they differ. -/
def compare (pattern actual : Datum) (place : Text) : Option Text :=
  if pattern.typeName ≠ actual.typeName then
    some (report place (Mismatch.reasonText (.wrongType pattern actual)))
  else if text pattern ≠ text actual then
    some (report place (Mismatch.reasonText (.wrongText pattern actual)))
  else none

/-- The items from an index on. There are none from outside of the list. -/
def itemsFrom? (items : List Datum) (index : Nat) : Option (List Datum) :=
  if index ≤ items.length then some (items.drop index) else none

/--
Tries what follows an ellipsis, after one more item each time, until it matches or no item is left.
The last report is kept. If nothing was ever tried there is none, and all would seem to match.
-/
def tryFrom (attempt : List Datum → Nat → Option (Option Text)) (items : List Datum)
    (offset index skip : Nat) (last : Option Text) : Option (Option Text) :=
  if (skip : Int) ≤ items.length - index then
    (itemsFrom? items (index + skip)).bind fun rest =>
      (attempt rest (offset + index + skip)).bind fun
        | none => some none
        | some problem => tryFrom attempt items offset index (skip + 1) (some problem)
  else some last
termination_by items.length + 1 - (index + skip)
decreasing_by omega

mutual

/-- The report of the first mismatch at a place, if there is one. A look outside of a list gives
nothing at all. -/
def report? : Datum → Datum → Text → Option (Option Text)
  | symbol text, actual, place =>
    if text = [95] then some none else some (compare (symbol text) actual place)
  | string text, actual, place => some (compare (string text) actual place)
  | number text, actual, place => some (compare (number text) actual place)
  | ellipsis, _, place => some (some (report place (Mismatch.reasonText .ellipsisOutsideList)))
  | list patterns, actual, place =>
    match actual with
    | list items => reportItems? place patterns items 0 0
    | _ => some (some (report place (Mismatch.reasonText (.wrongType (list patterns) actual))))

/-- The same for the patterns from an index on, with items that start at an offset of their list. -/
def reportItems? (place : Text) : List Datum → List Datum → Nat → Nat → Option (Option Text)
  | [], items, offset, index =>
    if index < items.length then
      items[index]?.map fun item =>
        some (report place (Mismatch.reasonText (.extraItem item (offset + index))))
    else some none
  | pattern :: patterns, items, offset, index =>
    match pattern with
    | ellipsis =>
      tryFrom (fun rest offset => reportItems? place patterns rest offset 0) items offset index 0
        none
    | _ =>
      if items.length ≤ index then
        some (some (report place (("expected " : Text) ++ pattern.render ++ (" at index " : Text) ++
          Text.ofNat (offset + index) ++ (", but the list has only " : Text) ++
          Text.ofNat (offset + items.length) ++ (" items" : Text))))
      else
        items[index]?.bind fun item =>
          (report? pattern item (placeOf place (offset + index))).bind fun
            | some problem => some (some problem)
            | none => reportItems? place patterns items offset (index + 1)

end

/-- The whole message of the first mismatch, if there is one. -/
def message? (pattern actual : Datum) : Option (Option Text) :=
  (report? pattern actual "root").map fun problem => problem.map fun problem =>
    problem ++ ("\n  pattern: " : Text) ++ pattern.render ++ ("\n  actual:  " : Text) ++
      actual.render

def ofMismatch (mismatch : Mismatch) : Text :=
  report (Mismatch.pathText mismatch.path) (Mismatch.reasonText mismatch.reason)

theorem placeOf_pathText (path : List Nat) (index : Nat) :
    placeOf (Mismatch.pathText path) index = Mismatch.pathText (path ++ [index]) := by
  simp [placeOf, Mismatch.pathText]

theorem compare_of_typeName_eq {pattern actual : Datum} {path : List Nat}
    (sameType : pattern.typeName = actual.typeName)
    (byText : atomMismatch? pattern actual path =
      if text pattern = text actual then none
      else some { path, reason := .wrongText pattern actual }) :
    compare pattern actual (Mismatch.pathText path) =
      (atomMismatch? pattern actual path).map ofMismatch := by
  rw [compare, if_neg (not_not_intro sameType), ite_not, byText, apply_ite (Option.map ofMismatch)]
  rfl

theorem compare_pathText {pattern : Datum} (isAtom : pattern.isAtom = true)
    (notEllipsis : pattern ≠ ellipsis) (actual : Datum) (path : List Nat) :
    compare pattern actual (Mismatch.pathText path) =
      (atomMismatch? pattern actual path).map ofMismatch := by
  cases pattern with
  | ellipsis => exact absurd rfl notEllipsis
  | list patterns => cases isAtom
  | symbol expected =>
      cases actual with
      | symbol found => exact compare_of_typeName_eq rfl rfl
      | string found | number found | ellipsis | list items => rfl
  | string expected =>
      cases actual with
      | string found => exact compare_of_typeName_eq rfl rfl
      | symbol found | number found | ellipsis | list items => rfl
  | number expected =>
      cases actual with
      | number found => exact compare_of_typeName_eq rfl rfl
      | symbol found | string found | ellipsis | list items => rfl

/-- One round of trying: the rest from an index on decides, or else the next one does. -/
theorem tryFrom_step {attempt : List Datum → Nat → Option (Option Text)} {items : List Datum}
    {offset index skip : Nat} (inside : index + skip ≤ items.length) {last found : Option Text}
    (tried : attempt (items.drop (index + skip)) (offset + index + skip) = some found) :
    tryFrom attempt items offset index skip last =
      if found = none then some none else tryFrom attempt items offset index (skip + 1) found := by
  rw [tryFrom, if_pos (by omega), itemsFrom?, if_pos inside, Option.bind_some, tried,
    Option.bind_some]
  cases found <;> rfl

/-- Trying rests by their indices finds what trying them one after the other does. -/
theorem tryFrom_eq {attempt : List Datum → Nat → Option (Option Text)}
    {first : List Datum → Nat → Option Mismatch}
    (agree : ∀ rest offset, attempt rest offset = some ((first rest offset).map ofMismatch))
    {items : List Datum} {index skip : Nat} (inside : index + skip ≤ items.length) (offset : Nat)
    (last : Option Text) :
    tryFrom attempt items offset index skip last =
      some ((tryEach first (items.drop (index + skip)) (offset + index + skip)).map ofMismatch) := by
  -- By induction on the number of items that are left. The empty rest is tried last.
  induction left : items.length - (index + skip) generalizing skip last with
  | zero =>
      have none_ : items.drop (index + skip) = [] := List.drop_eq_nil_of_le (by omega)
      rw [tryFrom_step inside (agree _ _), none_, tryEach]
      cases first [] (offset + index + skip) with
      | none => rfl
      | some mismatch => rw [if_neg (by simp), tryFrom, if_neg (by omega)]
  | succ left ih =>
      have some_ : items.drop (index + skip) =
          items[index + skip] :: items.drop (index + (skip + 1)) :=
        List.drop_eq_getElem_cons (by omega)
      rw [tryFrom_step inside (agree _ _), some_, tryEach]
      cases first (items[index + skip] :: items.drop (index + (skip + 1)))
          (offset + index + skip) with
      | none => rfl
      | some mismatch =>
          rw [if_neg (by simp)]
          exact ih (by omega) _ (by omega)

section Items

variable {pattern : Datum} (notEllipsis : pattern ≠ ellipsis) (place : Text)
  (patterns : List Datum) {items : List Datum} (offset : Nat) {index : Nat}

include notEllipsis

theorem reportItems?_missing (atEnd : items.length ≤ index) :
    reportItems? place (pattern :: patterns) items offset index =
      some (some (report place (("expected " : Text) ++ pattern.render ++ (" at index " : Text) ++
        Text.ofNat (offset + index) ++ (", but the list has only " : Text) ++
        Text.ofNat (offset + items.length) ++ (" items" : Text)))) := by
  cases pattern with
  | ellipsis => exact absurd rfl notEllipsis
  | symbol text | string text | number text | list others => simp only [reportItems?, if_pos atEnd]

theorem reportItems?_item (more : index < items.length) {found : Option Text}
    (compared : report? pattern items[index] (placeOf place (offset + index)) = some found) :
    reportItems? place (pattern :: patterns) items offset index =
      if found = none then reportItems? place patterns items offset (index + 1)
      else some found := by
  have inside : ¬ items.length ≤ index := Nat.not_le.mpr more
  have item : items[index]? = some items[index] := List.getElem?_eq_getElem more
  cases pattern with
  | ellipsis => exact absurd rfl notEllipsis
  | symbol text | string text | number text | list others =>
      simp only [reportItems?, if_neg inside, item, Option.bind_some, compared]
      cases found <;> rfl

end Items

mutual

theorem report?_eq (pattern actual : Datum) (path : List Nat) :
    report? pattern actual (Mismatch.pathText path) =
      some ((mismatchAt? pattern actual path).map ofMismatch) := by
  cases pattern with
  | symbol text =>
      by_cases isWildcard : text = [95]
      · simp [report?, mismatchAt?, isWildcard]
      · simp only [report?, mismatchAt?, isWildcard, if_false]
        rw [compare_pathText rfl (by simp)]
  | string text | number text => rw [report?, mismatchAt?, compare_pathText rfl (by simp)]
  | ellipsis => rfl
  | list patterns =>
      cases actual with
      | list items =>
          simp only [report?, mismatchAt?]
          exact reportItems?_eq patterns items path 0 (Nat.zero_le _)
      | symbol text | string text | number text | ellipsis => rfl

theorem reportItems?_eq (patterns items : List Datum) (path : List Nat) (offset : Nat) {index : Nat}
    (inside : index ≤ items.length) :
    reportItems? (Mismatch.pathText path) patterns items offset index =
      some ((itemsMismatch? path patterns (items.drop index) (offset + index)).map ofMismatch) := by
  cases patterns with
  | nil =>
      rw [reportItems?]
      by_cases more : index < items.length
      · rw [if_pos more, List.getElem?_eq_getElem more, List.drop_eq_getElem_cons more]
        rfl
      · rw [if_neg more, List.drop_eq_nil_of_le (Nat.not_lt.mp more)]
        rfl
  | cons pattern patterns =>
      by_cases isEllipsis : pattern = ellipsis
      · subst isEllipsis
        simp only [reportItems?, itemsMismatch?]
        refine tryFrom_eq (fun rest offset => ?_) inside offset none
        exact reportItems?_eq patterns rest path offset (Nat.zero_le _)
      · by_cases more : index < items.length
        · rw [reportItems?_item isEllipsis _ _ _ more
              (by rw [placeOf_pathText, report?_eq pattern]),
            List.drop_eq_getElem_cons more, itemsMismatch?_item isEllipsis]
          cases mismatchAt? pattern items[index] (path ++ [offset + index]) with
          | none =>
              rw [Option.map_none, if_pos rfl, Option.none_or]
              exact reportItems?_eq patterns items path offset more
          | some mismatch => rw [if_neg (by simp), Option.some_or]
        · -- Every pattern before has taken one item, so the list ends exactly here.
          have atEnd : index = items.length := Nat.le_antisymm inside (Nat.not_lt.mp more)
          rw [reportItems?_missing isEllipsis _ _ _ (Nat.not_lt.mp more), atEnd, List.drop_length,
            itemsMismatch?_missing isEllipsis]
          rfl

end

theorem message?_eq (pattern actual : Datum) :
    message? pattern actual =
      some ((mismatch? pattern actual).map fun mismatch => mismatch.message pattern actual) := by
  have root : ("root" : Text) = Mismatch.pathText [] := rfl
  rw [message?, root, report?_eq, mismatch?]
  cases mismatchAt? pattern actual [] <;> rfl

end Search

/--
The search for a mismatch decides whether a pattern matches: there is none exactly if it does. The
search ends, also when it is done with indices, none of which then lies outside of its list, and its
message is the same.
-/
theorem search_decides_matching (pattern actual : Datum) :
    (mismatch? pattern actual = none ↔ Matches pattern actual) ∧
    Search.message? pattern actual =
      some ((mismatch? pattern actual).map fun mismatch => mismatch.message pattern actual) :=
  ⟨mismatchAt?_eq_none_iff pattern actual [], Search.message?_eq pattern actual⟩

end Loxley.Datum
