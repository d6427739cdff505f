import Loxley.Proofs.Datum.RoundTrip

/-!
# Telling data apart

A text begins with at most one legible datum. That holds also if strings have zero bytes, at which
reading would stop, so it does not follow from reading back. Data in a row are told apart by their
text, whatever separates them.
-/

set_option autoImplicit false

namespace Loxley.Datum

/-! ## Strings -/

theorem spells_escape (text : Text) : Spells (text.flatMap escape) text := by
  induction text with
  | nil => exact .nil
  | cons byte rest ih =>
      rw [List.flatMap_cons]
      by_cases backslash : byte = 92
      · rw [backslash]
        exact .backslash ih
      · by_cases quote : byte = 34
        · rw [quote]
          exact .quote ih
        · by_cases newline : byte = 10
          · rw [newline]
            exact .newline ih
          · have alone : escape byte = [byte] := by simp [escape, backslash, quote, newline]
            rw [alone]
            exact .plain quote backslash ih

/-- A string ends at the first quote that is not escaped. -/
theorem Spells.unique {body other contents others rest after : Text}
    (spelled : Spells body contents) (respelled : Spells other others)
    (same : body ++ 34 :: rest = other ++ 34 :: after) : contents = others ∧ rest = after := by
  induction spelled generalizing other others with
  | nil =>
      cases respelled with
      | nil => exact ⟨rfl, (List.cons.inj same).2⟩
      | plain notQuote _ _ => exact absurd (List.cons.inj same).1.symm notQuote
      | quote | backslash | newline => cases same
  | plain notQuote notBackslash _ ih =>
      cases respelled with
      | nil => exact absurd (List.cons.inj same).1 notQuote
      | plain _ _ others =>
          obtain ⟨sameByte, sameRest⟩ := List.cons.inj same
          obtain ⟨sameContents, sameAfter⟩ := ih others sameRest
          exact ⟨by rw [sameByte, sameContents], sameAfter⟩
      | quote | backslash | newline => exact absurd (List.cons.inj same).1 notBackslash
  | quote _ ih | backslash _ ih | newline _ ih =>
      cases respelled with
      | nil => cases same
      | plain _ notBackslash _ => exact absurd (List.cons.inj same).1.symm notBackslash
      | quote others | backslash others | newline others => grind

/-! ## Single data -/

/-- The datum is the first word of every text that starts with it, and no string or list. -/
structure Leads (datum : Datum) : Prop where
  first : ∃ byte ∈ datum.render.head?, byte ≠ 34 ∧ byte ≠ 40 ∧ byte ≠ 41
  word (rest : Text) : Ends rest → ∃ first more, datum.render ++ rest = first :: more ∧
    cut first more = .ok { lexeme := some (.atom datum), rest }

theorem leads_symbol {text : Text} (spelled : SymbolText text) : (symbol text).Leads where
  first := by
    cases spelled with
    | intro starts =>
        obtain ⟨_, _, _, notOpening, notClosing, notQuote, _⟩ := starts_of_isSymbolByte starts
        exact ⟨_, rfl, notQuote, notOpening, notClosing⟩
  word := fun rest ends => by
    cases spelled with
    | intro starts continues notDigit notSign =>
        exact ⟨_, _, rfl, cut_symbol (.intro starts continues notDigit notSign) (ends.stops _)⟩

theorem leads_number {text : Text} (spelled : NumberText text) : (number text).Leads where
  first := by
    obtain ⟨first, more, rfl, starts⟩ := spelled.exists_cons
    obtain ⟨_, _, _, notOpening, notClosing, notQuote, _⟩ := starts_of_isSymbolByte starts
    exact ⟨_, rfl, notQuote, notOpening, notClosing⟩
  word := fun rest ends => by
    obtain ⟨first, more, rfl, starts⟩ := spelled.exists_cons
    exact ⟨_, _, rfl, cut_number spelled (ends.stops _)⟩

theorem leads_ellipsis : ellipsis.Leads where
  first := ⟨46, rfl, by decide, by decide, by decide⟩
  word := fun rest _ => ⟨46, 46 :: 46 :: rest, rfl, rfl⟩

/-- No other legible datum starts a text that a datum starts. -/
def Apart (datum : Datum) : Prop :=
  ∀ {other : Datum} {rest after : Text}, other.Legible → Ends rest → Ends after →
    datum.render ++ rest = other.render ++ after → datum = other ∧ rest = after

/-- A text that starts with a datum that is a word is no text of a string or list. -/
theorem Leads.head_ne {datum : Datum} (leads : datum.Leads) {rest more : Text} {byte : UInt8}
    (same : datum.render ++ rest = byte :: more) : byte ≠ 34 ∧ byte ≠ 40 ∧ byte ≠ 41 := by
  obtain ⟨first, starts, others⟩ := leads.first
  have head : (datum.render ++ rest).head? = some first := by
    rw [List.head?_append, starts]
    rfl
  rw [same] at head
  cases head
  exact others

theorem Leads.unique {datum other : Datum} (leads : datum.Leads) (leadsToo : other.Leads)
    {rest after : Text} (ends : Ends rest) (endsToo : Ends after)
    (same : datum.render ++ rest = other.render ++ after) : datum = other ∧ rest = after := by
  obtain ⟨first, more, shape, taken⟩ := leads.word rest ends
  obtain ⟨second, others, shapeToo, takenToo⟩ := leadsToo.word after endsToo
  have heads := shape.symm.trans (same.trans shapeToo)
  cases heads
  rw [taken] at takenToo
  cases takenToo
  exact ⟨rfl, rfl⟩

theorem Leads.apart {datum : Datum} (leads : datum.Leads) : datum.Apart := by
  intro other rest after legible ends endsToo same
  cases legible with
  | symbol spelled => exact leads.unique (leads_symbol spelled) ends endsToo same
  | number spelled => exact leads.unique (leads_number spelled) ends endsToo same
  | ellipsis => exact leads.unique leads_ellipsis ends endsToo same
  | string =>
      rw [render_string_append] at same
      exact absurd rfl (leads.head_ne same).1
  | list =>
      rw [render_list_append] at same
      exact absurd rfl (leads.head_ne same).2.1

theorem apart_string (text : Text) : (string text).Apart := by
  intro other rest after legible _ _ same
  rw [render_string_append] at same
  cases legible with
  | symbol spelled => exact absurd rfl ((leads_symbol spelled).head_ne same.symm).1
  | number spelled => exact absurd rfl ((leads_number spelled).head_ne same.symm).1
  | ellipsis => exact absurd rfl (leads_ellipsis.head_ne same.symm).1
  | @string others =>
      rw [render_string_append] at same
      obtain ⟨rfl, sameRest⟩ :=
        (spells_escape text).unique (spells_escape others) (List.cons.inj same).2
      exact ⟨rfl, sameRest⟩
  | list =>
      rw [render_list_append] at same
      cases same

/-! ## Data in a row -/

/-- What follows data in a row: the end, or the parenthesis that closes their list. -/
def Closed (rest : Text) : Prop :=
  ∀ byte ∈ rest.head?, byte = 41

theorem Closed.ends {rest : Text} (closed : Closed rest) : Ends rest := by
  intro byte starts
  rw [closed byte starts]
  decide

theorem Legible.not_closed {datum : Datum} (legible : datum.Legible) (rest : Text) :
    ¬ Closed (datum.render ++ rest) := by
  intro closed
  have leads : ∀ {datum : Datum}, datum.Leads → ¬ Closed (datum.render ++ rest) := by
    intro datum leads closed
    obtain ⟨byte, starts, _, _, notClosing⟩ := leads.first
    exact notClosing (closed byte (by rw [List.head?_append, starts]; rfl))
  cases legible with
  | symbol spelled => exact leads (leads_symbol spelled) closed
  | number spelled => exact leads (leads_number spelled) closed
  | ellipsis => exact leads leads_ellipsis closed
  | string =>
      rw [render_string_append] at closed
      exact absurd (closed 34 rfl) (by decide)
  | list =>
      rw [render_list_append] at closed
      exact absurd (closed 40 rfl) (by decide)

/-- What follows the first of some data, given the others and what follows these. -/
def rowTail (separator : UInt8) (rest : Text) : List Datum → Text
  | [] => rest
  | second :: others =>
    separator :: (Text.join [separator] ((second :: others).map render) ++ rest)

theorem join_render_cons (separator : UInt8) (first : Datum) (others : List Datum) (rest : Text) :
    Text.join [separator] ((first :: others).map render) ++ rest =
      first.render ++ rowTail separator rest others := by
  cases others with
  | nil => rfl
  | cons second others => simp [rowTail, Text.join]

section Rows

variable {separator : UInt8} (blank : isSpace separator = true) {rest after : Text}
  (closed : Closed rest) (closedToo : Closed after)

include blank closed

theorem ends_rowTail (others : List Datum) : Ends (rowTail separator rest others) := by
  cases others with
  | nil => exact closed.ends
  | cons second others =>
      intro byte starts
      cases starts
      constructor
      · by_contra isSymbol
        have notBlank := (starts_of_isSymbolByte (eq_true_of_ne_false isSymbol)).2.1
        rw [blank] at notBlank
        cases notBlank
      · intro point
        rw [point] at blank
        exact absurd blank (by decide)

include closedToo

theorem rowTail_inj {data others : List Datum}
    (same : rowTail separator rest data = rowTail separator after others) :
    Text.join [separator] (data.map render) ++ rest =
      Text.join [separator] (others.map render) ++ after := by
  have notClosing : separator ≠ 41 := by
    intro closing
    rw [closing] at blank
    exact absurd blank (by decide)
  cases data with
  | nil =>
      cases others with
      | nil => exact same
      | cons =>
          have starts := congrArg List.head? same
          exact absurd (closed separator starts) notClosing
  | cons =>
      cases others with
      | nil =>
          have starts := congrArg List.head? same.symm
          exact absurd (closedToo separator starts) notClosing
      | cons => exact (List.cons.inj same).2

theorem row_inj {data others : List Datum} (apart : ∀ datum ∈ data, datum.Apart)
    (legible : ∀ datum ∈ data, datum.Legible) (legibleToo : ∀ other ∈ others, other.Legible)
    (same : Text.join [separator] (data.map render) ++ rest =
      Text.join [separator] (others.map render) ++ after) : data = others ∧ rest = after := by
  induction data generalizing others with
  | nil =>
      cases others with
      | nil => exact ⟨rfl, same⟩
      | cons other others =>
          rw [join_render_cons] at same
          have unclosed := (legibleToo other List.mem_cons_self).not_closed
            (rowTail separator after others)
          rw [← same] at unclosed
          exact absurd closed unclosed
  | cons first more ih =>
      cases others with
      | nil =>
          rw [join_render_cons] at same
          have unclosed := (legible first List.mem_cons_self).not_closed
            (rowTail separator rest more)
          rw [same] at unclosed
          exact absurd closedToo unclosed
      | cons other others =>
          -- Whatever the others are, something follows the first ones that no atom goes on with.
          rw [join_render_cons, join_render_cons] at same
          obtain ⟨rfl, sameTail⟩ := apart first List.mem_cons_self
            (legibleToo other List.mem_cons_self) (ends_rowTail blank closed more)
            (ends_rowTail blank closedToo others) same
          obtain ⟨rfl, sameRest⟩ := ih (List.forall_mem_cons.mp apart).2
            (List.forall_mem_cons.mp legible).2 (List.forall_mem_cons.mp legibleToo).2
            (rowTail_inj blank closed closedToo sameTail)
          exact ⟨rfl, sameRest⟩

end Rows

theorem Legible.apart {datum : Datum} (legible : datum.Legible) : datum.Apart := by
  induction legible with
  | symbol spelled => exact (leads_symbol spelled).apart
  | number spelled => exact (leads_number spelled).apart
  | ellipsis => exact leads_ellipsis.apart
  | string => exact apart_string _
  | @list items each ih =>
      intro other rest after legible _ _ same
      rw [render_list_append] at same
      cases legible with
      | symbol spelled => exact absurd rfl ((leads_symbol spelled).head_ne same.symm).2.1
      | number spelled => exact absurd rfl ((leads_number spelled).head_ne same.symm).2.1
      | ellipsis => exact absurd rfl (leads_ellipsis.head_ne same.symm).2.1
      | string =>
          rw [render_string_append] at same
          cases same
      | @list others eachToo =>
          rw [render_list_append, renderItems_eq_join, renderItems_eq_join] at same
          obtain ⟨rfl, sameRest⟩ := row_inj (by decide : isSpace 32 = true) (by simp [Closed])
            (by simp [Closed]) ih each eachToo (List.cons.inj same).2
          exact ⟨rfl, (List.cons.inj sameRest).2⟩

/-- Legible data are told apart by their texts in a row. -/
theorem join_render_inj {separator : UInt8} (blank : isSpace separator = true)
    {data others : List Datum} (legible : ∀ datum ∈ data, datum.Legible)
    (legibleToo : ∀ other ∈ others, other.Legible)
    (same : Text.join [separator] (data.map render) = Text.join [separator] (others.map render)) :
    data = others := by
  have ends : Closed [] := by simp [Closed]
  refine (row_inj blank ends ends (fun datum member => (legible datum member).apart) legible
    legibleToo ?_).1
  rw [List.append_nil, List.append_nil, same]

end Loxley.Datum
