import Loxley.Datum.Reader
import Loxley.Proofs.Lexer

/-!
# Reading data back

The text of a datum reads as that datum, unless one of its strings has a zero byte, which ends the
text before the string is closed.
-/

set_option autoImplicit false

namespace Loxley.Datum

/-! ## Texts of atoms -/

/-- The text of a symbol consists of symbol bytes and does not begin like a number. -/
inductive SymbolText : Text → Prop
  | intro {first : UInt8} {rest : Text} (starts : isSymbolByte first = true)
      (continues : ∀ byte ∈ rest, isSymbolByte byte = true) (notDigit : Text.isDigit first = false)
      (notSign : (isSign first && rest.head?.any Text.isDigit) = false) :
      SymbolText (first :: rest)

def isSymbolText : Text → Bool
  | [] => false
  | first :: rest =>
    isSymbolByte first && rest.all isSymbolByte && !Text.isDigit first &&
      !(isSign first && rest.head?.any Text.isDigit)

theorem isSymbolText_iff {text : Text} : isSymbolText text = true ↔ SymbolText text := by
  constructor
  · intro checked
    cases text with
    | nil => cases checked
    | cons first rest =>
        simp only [isSymbolText, Bool.and_eq_true, List.all_eq_true, Bool.not_eq_true'] at checked
        obtain ⟨⟨⟨starts, continues⟩, notDigit⟩, notSign⟩ := checked
        exact .intro starts continues notDigit notSign
  · intro spelled
    cases spelled with
    | intro starts continues notDigit notSign =>
        simp only [isSymbolText, Bool.and_eq_true, List.all_eq_true, Bool.not_eq_true']
        exact ⟨⟨⟨starts, continues⟩, notDigit⟩, notSign⟩

instance : DecidablePred SymbolText := fun text =>
  decidable_of_iff (isSymbolText text = true) isSymbolText_iff

/-- Digits, with or without a fraction. -/
inductive Digits : Text → Prop
  | whole {digits : Text} (nonempty : digits ≠ [])
      (each : ∀ byte ∈ digits, Text.isDigit byte = true) : Digits digits
  | fraction {whole digits : Text} (nonempty : whole ≠ [])
      (each : ∀ byte ∈ whole, Text.isDigit byte = true) (some : digits ≠ [])
      (others : ∀ byte ∈ digits, Text.isDigit byte = true) : Digits (whole ++ 46 :: digits)

inductive NumberText : Text → Prop
  | unsigned {text : Text} (digits : Digits text) : NumberText text
  | signed {sign : UInt8} {text : Text} (isSign : isSign sign = true) (digits : Digits text) :
      NumberText (sign :: text)

/-- Symbols and numbers are spelled as such. Strings may be any. -/
inductive Legible : Datum → Prop
  | symbol {text : Text} (spelled : SymbolText text) : Legible (.symbol text)
  | string {text : Text} : Legible (.string text)
  | number {text : Text} (spelled : NumberText text) : Legible (.number text)
  | ellipsis : Legible .ellipsis
  | list {items : List Datum} (each : ∀ item ∈ items, Legible item) : Legible (.list items)

@[simp] theorem legible_symbol_iff {text : Text} : Legible (.symbol text) ↔ SymbolText text := by
  constructor
  · intro legible
    cases legible with
    | symbol spelled => exact spelled
  · exact .symbol

@[simp] theorem legible_string (text : Text) : Legible (.string text) := .string

@[simp] theorem legible_list_iff {items : List Datum} :
    Legible (.list items) ↔ ∀ item ∈ items, Legible item := by
  constructor
  · intro legible
    cases legible with
    | list each => exact each
  · exact .list

/-- No string has a zero byte. -/
inductive ZeroFree : Datum → Prop
  | symbol {text : Text} : ZeroFree (.symbol text)
  | string {text : Text} (noZero : 0 ∉ text) : ZeroFree (.string text)
  | number {text : Text} : ZeroFree (.number text)
  | ellipsis : ZeroFree .ellipsis
  | list {items : List Datum} (each : ∀ item ∈ items, ZeroFree item) : ZeroFree (.list items)

@[simp] theorem zeroFree_symbol (text : Text) : ZeroFree (.symbol text) := .symbol

@[simp] theorem zeroFree_number (text : Text) : ZeroFree (.number text) := .number

@[simp] theorem zeroFree_string_iff {text : Text} : ZeroFree (.string text) ↔ 0 ∉ text := by
  constructor
  · intro zeroFree
    cases zeroFree with
    | string noZero => exact noZero
  · exact .string

@[simp] theorem zeroFree_list_iff {items : List Datum} :
    ZeroFree (.list items) ↔ ∀ item ∈ items, ZeroFree item := by
  constructor
  · intro zeroFree
    cases zeroFree with
    | list each => exact each
  · exact .list

/-! ## One word at a time -/

/-- What may follow an atom. -/
def Ends (rest : Text) : Prop :=
  ∀ byte ∈ rest.head?, isSymbolByte byte = false ∧ byte ≠ 46

/-- The first bytes of symbols and numbers start nothing else. -/
theorem starts_of_isSymbolByte {byte : UInt8} (isSymbol : isSymbolByte byte = true) :
    byte ≠ 0 ∧ isSpace byte = false ∧ byte ≠ 59 ∧ byte ≠ 40 ∧ byte ≠ 41 ∧ byte ≠ 34 ∧
      byte ≠ 46 := by
  have all : ∀ value : Fin 256, isSymbolByte (UInt8.ofFin value) = true →
      UInt8.ofFin value ≠ 0 ∧ isSpace (UInt8.ofFin value) = false ∧ UInt8.ofFin value ≠ 59 ∧
        UInt8.ofFin value ≠ 40 ∧ UInt8.ofFin value ≠ 41 ∧ UInt8.ofFin value ≠ 34 ∧
        UInt8.ofFin value ≠ 46 := by
    decide +kernel
  exact all byte.toFin isSymbol

theorem isSymbolByte_of_isDigit {byte : UInt8} (isDigit : Text.isDigit byte = true) :
    isSymbolByte byte = true := by
  simp [isSymbolByte, isDigit]

theorem isSymbolByte_of_isSign {byte : UInt8} (isSign : isSign byte = true) :
    isSymbolByte byte = true := by
  rcases (Bool.or_eq_true _ _).mp isSign with plus | minus
  · rw [eq_of_beq plus]
    decide
  · rw [eq_of_beq minus]
    decide

theorem not_isDigit_of_not_isSymbolByte {byte : UInt8} (notSymbol : isSymbolByte byte = false) :
    Text.isDigit byte = false := by
  cases isDigit : Text.isDigit byte with
  | false => rfl
  | true => rw [isSymbolByte_of_isDigit isDigit] at notSymbol; cases notSymbol

/-- What follows a word and cannot make it longer. -/
def Lexeme.Stops : Lexeme → Text → Prop
  | .atom (.symbol _), rest => ∀ byte ∈ rest.head?, isSymbolByte byte = false
  | .atom (.number text), rest =>
    (∀ byte ∈ rest.head?, Text.isDigit byte = false) ∧
      (46 ∉ text → ∀ digit after, rest = 46 :: digit :: after → Text.isDigit digit = false)
  | _, _ => True

theorem Ends.stops {rest : Text} (ends : Ends rest) (lexeme : Lexeme) : lexeme.Stops rest := by
  cases lexeme with
  | opening | closing => trivial
  | atom datum =>
      cases datum with
      | symbol text => exact fun byte member => (ends byte member).1
      | number text =>
          refine ⟨fun byte member => not_isDigit_of_not_isSymbolByte (ends byte member).1,
            fun _ digit after shape => ?_⟩
          rw [shape] at ends
          exact absurd rfl (ends 46 rfl).2
      | string | ellipsis | list => trivial

theorem cutDigits_append {text rest : Text} (digits : Digits text)
    (ends : ∀ byte ∈ rest.head?, Text.isDigit byte = false)
    (noFraction : 46 ∉ text → ∀ digit after, rest = 46 :: digit :: after →
      Text.isDigit digit = false) :
    cutDigits (text ++ rest) = (text, rest) := by
  cases digits with
  | whole nonempty each =>
      have noPoint : 46 ∉ text := fun member => by
        have isDigit := each 46 member
        cases isDigit
      simp only [cutDigits, Text.takeWhile_append_of_stops each ends,
        Text.dropWhile_append_of_stops each ends]
      match rest with
      | [] => rfl
      | [byte] => rfl
      | point :: digit :: after =>
          by_cases isPoint : point = 46
          · subst isPoint
            simp [noFraction noPoint digit after rfl]
          · simp [isPoint]
  | @fraction whole digits nonempty each some others =>
      obtain ⟨first, more, rfl⟩ := List.exists_cons_of_ne_nil some
      have isDigit := others first List.mem_cons_self
      have stops : ∀ byte ∈ (46 :: (first :: more ++ rest) : Text).head?,
          Text.isDigit byte = false := by
        simp [Text.isDigit]
      rw [List.append_assoc, List.cons_append]
      simp only [cutDigits, Text.takeWhile_append_of_stops each stops,
        Text.dropWhile_append_of_stops each stops]
      rw [List.cons_append]
      simp only [isDigit, beq_self_eq_true, Bool.and_self, if_true]
      rw [← List.cons_append, Text.takeWhile_append_of_stops others ends,
        Text.dropWhile_append_of_stops others ends]

theorem readString_backslash {escaped decoded : UInt8} (known : unescape? escaped = some decoded)
    (more : Text) :
    readString (92 :: escaped :: more) =
      (readString more).map fun (text, final) => (decoded :: text, final) := by
  have notQuote : ((92 : UInt8) == 34) = false := rfl
  have notZero : ((92 : UInt8) == 0) = false := rfl
  rw [readString.eq_def]
  simp only [notQuote, notZero, beq_self_eq_true, Bool.false_eq_true, if_false, if_true, known]
  cases readString more <;> rfl

theorem readString_plain {byte : UInt8} (nonzero : byte ≠ 0) (notQuote : byte ≠ 34)
    (notBackslash : byte ≠ 92) (more : Text) :
    readString (byte :: more) =
      (readString more).map fun (text, final) => (byte :: text, final) := by
  rw [readString.eq_def]
  simp only [beq_iff_eq, notBackslash, notQuote, nonzero, if_false]
  cases readString more <;> rfl

theorem readString_escape {byte : UInt8} (nonzero : byte ≠ 0) (more : Text) :
    readString (escape byte ++ more) =
      (readString more).map fun (text, final) => (byte :: text, final) := by
  by_cases isBackslash : byte = 92
  · subst isBackslash
    exact readString_backslash rfl more
  by_cases isQuote : byte = 34
  · subst isQuote
    exact readString_backslash rfl more
  by_cases isNewline : byte = 10
  · subst isNewline
    exact readString_backslash rfl more
  simp only [escape, beq_iff_eq, isBackslash, isQuote, isNewline, if_false, List.singleton_append]
  exact readString_plain nonzero isQuote isBackslash more

theorem readString_append {text : Text} (noZero : 0 ∉ text) (rest : Text) :
    readString (text.flatMap escape ++ 34 :: rest) = .ok (text, rest) := by
  induction text with
  | nil =>
      rw [List.flatMap_nil, List.nil_append, readString.eq_def]
      rfl
  | cons byte more ih =>
      have nonzero : byte ≠ 0 := fun zero => noZero (zero ▸ List.mem_cons_self)
      rw [List.flatMap_cons, List.append_assoc, readString_escape nonzero,
        ih fun later => noZero (List.mem_cons_of_mem _ later)]
      rfl

theorem readString_zero {text : Text} (zero : 0 ∈ text) (rest : Text) :
    readString (text.flatMap escape ++ rest) = .error .unterminatedString := by
  induction text with
  | nil => cases zero
  | cons byte more ih =>
      rw [List.flatMap_cons, List.append_assoc]
      by_cases isZero : byte = 0
      · rw [isZero, readString.eq_def]
        rfl
      · rw [readString_escape isZero, ih (List.mem_of_ne_of_mem (Ne.symm isZero) zero)]
        rfl

theorem cut_symbol {first : UInt8} {text rest : Text} (spelled : SymbolText (first :: text))
    (stops : (Lexeme.atom (.symbol (first :: text))).Stops rest) :
    cut first (text ++ rest) = .ok { lexeme := some (.atom (.symbol (first :: text))), rest } := by
  obtain ⟨starts, continues, notDigit, notSign⟩ := spelled
  obtain ⟨_, notSpace, notComment, notOpening, notClosing, notQuote, notPoint⟩ :=
    starts_of_isSymbolByte starts
  have notSigned : (isSign first && (text ++ rest).head?.any Text.isDigit) = false := by
    cases text with
    | cons second more => exact notSign
    | nil =>
        have notDigits : rest.head?.any Text.isDigit = false := by
          cases rest with
          | nil => rfl
          | cons byte more => exact not_isDigit_of_not_isSymbolByte (stops byte rfl)
        rw [List.nil_append, notDigits, Bool.and_false]
  simp only [cut, notSpace, beq_iff_eq, notComment, notOpening, notClosing, notQuote, notPoint,
    notDigit, notSigned, starts, if_false, if_true, Bool.false_eq_true,
    Text.takeWhile_append_of_stops continues stops, Text.dropWhile_append_of_stops continues stops]

theorem Digits.starts {first : UInt8} {text : Text} (digits : Digits (first :: text)) :
    Text.isDigit first = true := by
  generalize shape : first :: text = whole at digits
  cases digits with
  | whole _ each => exact each first (shape ▸ List.mem_cons_self)
  | @fraction whole _ nonempty each _ _ =>
      obtain ⟨digit, more, rfl⟩ := List.exists_cons_of_ne_nil nonempty
      cases shape
      exact each first List.mem_cons_self

theorem Digits.exists_cons {text : Text} (digits : Digits text) :
    ∃ first rest, text = first :: rest := by
  cases digits with
  | whole nonempty _ => exact List.exists_cons_of_ne_nil nonempty
  | fraction => exact List.exists_cons_of_ne_nil (by simp)

theorem cut_number {first : UInt8} {text rest : Text} (spelled : NumberText (first :: text))
    (stops : (Lexeme.atom (.number (first :: text))).Stops rest) :
    cut first (text ++ rest) = .ok { lexeme := some (.atom (.number (first :: text))), rest } := by
  cases spelled with
  | unsigned digits =>
      have isDigit := digits.starts
      obtain ⟨_, notSpace, notComment, notOpening, notClosing, notQuote, notPoint⟩ :=
        starts_of_isSymbolByte (isSymbolByte_of_isDigit isDigit)
      have taken := cutDigits_append digits stops.1 stops.2
      rw [List.cons_append] at taken
      simp only [cut, notSpace, beq_iff_eq, notComment, notOpening, notClosing, notQuote, notPoint,
        isDigit, if_false, if_true, Bool.false_eq_true, taken]
  | signed isSign digits =>
      obtain ⟨_, notSpace, notComment, notOpening, notClosing, notQuote, notPoint⟩ :=
        starts_of_isSymbolByte (isSymbolByte_of_isSign isSign)
      have notDigit : Text.isDigit first = false := by
        rcases Bool.or_eq_true_iff.mp isSign with isPlus | isMinus
        · rw [eq_of_beq isPlus]; rfl
        · rw [eq_of_beq isMinus]; rfl
      obtain ⟨digit, more, rfl⟩ := digits.exists_cons
      have noFraction : 46 ∉ digit :: more → ∀ digit after, rest = 46 :: digit :: after →
          Text.isDigit digit = false := fun noPoint => stops.2 fun member => by
        rcases List.mem_cons.mp member with isFirst | later
        · rw [← isFirst] at isSign
          cases isSign
        · exact noPoint later
      have signed :
          (Datum.isSign first && (digit :: more ++ rest).head?.any Text.isDigit) = true := by
        simp [isSign, digits.starts]
      simp only [cut, notSpace, beq_iff_eq, notComment, notOpening, notClosing, notQuote, notPoint,
        notDigit, signed, if_false, if_true, Bool.false_eq_true,
        cutDigits_append digits stops.1 noFraction]

/-! ## Reading on -/

/-- Reads a text that starts at an offset, with the items of the open lists on a stack. -/
def resume (stack : List (List Datum)) (offset : Nat) (text : Text) :
    Except ReadError (List Datum) :=
  build (lex offset text).problem stack (lex offset text).lexemes

section Steps

variable (stack : List (List Datum)) (offset : Nat) {first : UInt8} {rest : Text}

theorem lex_cons {result : Cut} (nonzero : first ≠ 0) (taken : cut first rest = .ok result) :
    lex offset (first :: rest) =
      match result.lexeme with
      | none => lex (offset + (rest.length + 1 - result.rest.length)) result.rest
      | some lexeme =>
        { lex (offset + (rest.length + 1 - result.rest.length)) result.rest with
          lexemes := (offset, lexeme) ::
            (lex (offset + (rest.length + 1 - result.rest.length)) result.rest).lexemes } := by
  rw [lex, if_neg (by simpa using nonzero)]
  split
  · next problem failed => rw [taken] at failed; cases failed
  · next other same =>
      cases taken.symm.trans same
      rfl

theorem lex_of_cut {result : Cut} (nonzero : first ≠ 0) (taken : cut first rest = .ok result) :
    ∃ later, lex offset (first :: rest) =
      match result.lexeme with
      | none => lex later result.rest
      | some lexeme =>
        { lex later result.rest with
          lexemes := (offset, lexeme) :: (lex later result.rest).lexemes } :=
  ⟨_, lex_cons offset nonzero taken⟩

theorem lex_of_error {problem : ReadError} (nonzero : first ≠ 0)
    (failed : cut first rest = .error problem) :
    lex offset (first :: rest) = { lexemes := [], problem := some problem } := by
  rw [lex, if_neg (by simpa using nonzero)]
  split
  · next other same =>
      cases failed.symm.trans same
      rfl
  · next result taken => rw [failed] at taken; cases taken

theorem resume_of_error {problem : ReadError} (nonzero : first ≠ 0)
    (failed : cut first rest = .error problem) :
    resume stack offset (first :: rest) = .error problem := by
  simp only [resume, lex_of_error offset nonzero failed, build]

theorem resume_blank (isBlank : isSpace first = true) :
    ∃ later, resume stack offset (first :: rest) = resume stack later rest := by
  have nonzero : first ≠ 0 := by
    intro zero
    rw [zero] at isBlank
    cases isBlank
  have taken : cut first rest = .ok { lexeme := none, rest } := by simp [cut, isBlank]
  obtain ⟨later, lexed⟩ := lex_of_cut offset nonzero taken
  exact ⟨later, by simp only [resume, lexed]⟩

theorem resume_atom {datum : Datum} {after : Text} (nonzero : first ≠ 0)
    (taken : cut first rest = .ok { lexeme := some (.atom datum), rest := after }) :
    ∃ later, resume stack offset (first :: rest) = resume (addTo datum stack) later after := by
  obtain ⟨later, lexed⟩ := lex_of_cut offset nonzero taken
  exact ⟨later, by simp only [resume, lexed, build]⟩

theorem resume_opening :
    ∃ later, resume stack offset (40 :: rest) = resume ([] :: stack) later rest := by
  have taken : cut 40 rest = .ok { lexeme := some .opening, rest } := rfl
  obtain ⟨later, lexed⟩ := lex_of_cut offset (by decide) taken
  exact ⟨later, by simp only [resume, lexed, build]⟩

theorem resume_closing {items outer : List Datum} {others : List (List Datum)} :
    ∃ later, resume (items :: outer :: others) offset (41 :: rest) =
      resume ((.list items.reverse :: outer) :: others) later rest := by
  have taken : cut 41 rest = .ok { lexeme := some .closing, rest } := rfl
  obtain ⟨later, lexed⟩ := lex_of_cut offset (by decide) taken
  exact ⟨later, by simp only [resume, lexed, build, addTo]⟩

theorem resume_nil {items : List Datum} : resume [items] offset [] = .ok items.reverse := by
  rw [resume, lex]
  rfl

end Steps

/-! ## Data -/

/-- Reading takes the text of a datum for that datum, whatever is around it. -/
def Reads (datum : Datum) : Prop :=
  ∀ (items : List Datum) (outer : List (List Datum)) (offset : Nat) (rest : Text), Ends rest →
    ∃ later, resume (items :: outer) offset (datum.render ++ rest) =
      resume ((datum :: items) :: outer) later rest

/-- Reading stops within the text of a datum. -/
def Fails (datum : Datum) : Prop :=
  ∀ (stack : List (List Datum)) (offset : Nat) (rest : Text),
    resume stack offset (datum.render ++ rest) = .error .unterminatedString

theorem ends_space (rest : Text) : Ends (32 :: rest) := by
  intro byte member
  cases member
  decide

theorem ends_closing (rest : Text) : Ends (41 :: rest) := by
  intro byte member
  cases member
  decide

theorem reads_symbol {text : Text} (spelled : SymbolText text) : (symbol text).Reads := by
  intro items outer offset rest ends
  cases spelled with
  | intro starts continues notDigit notSign =>
      exact resume_atom _ offset (starts_of_isSymbolByte starts).1
        (cut_symbol (.intro starts continues notDigit notSign) (ends.stops _))

theorem NumberText.exists_cons {text : Text} (spelled : NumberText text) :
    ∃ first rest, text = first :: rest ∧ isSymbolByte first = true := by
  cases spelled with
  | unsigned digits =>
      obtain ⟨first, rest, rfl⟩ := digits.exists_cons
      exact ⟨first, rest, rfl, isSymbolByte_of_isDigit digits.starts⟩
  | signed isSign => exact ⟨_, _, rfl, isSymbolByte_of_isSign isSign⟩

theorem reads_number {text : Text} (spelled : NumberText text) : (number text).Reads := by
  intro items outer offset rest ends
  obtain ⟨first, more, rfl, starts⟩ := spelled.exists_cons
  exact resume_atom _ offset (starts_of_isSymbolByte starts).1 (cut_number spelled (ends.stops _))

theorem reads_ellipsis : ellipsis.Reads := by
  intro items outer offset rest _
  have taken : cut 46 (46 :: 46 :: rest) = .ok { lexeme := some (.atom .ellipsis), rest } := rfl
  exact resume_atom _ offset (by decide) taken

theorem render_string_append (text rest : Text) :
    (string text).render ++ rest = 34 :: (text.flatMap escape ++ 34 :: rest) := by
  simp [render, quoted]

theorem reads_string {text : Text} (noZero : 0 ∉ text) : (string text).Reads := by
  intro items outer offset rest _
  have taken : cut 34 (text.flatMap escape ++ 34 :: rest) =
      .ok { lexeme := some (.atom (.string text)), rest } := by
    simp only [cut, readString_append noZero]
    rfl
  rw [render_string_append]
  exact resume_atom _ offset (by decide) taken

theorem fails_string {text : Text} (zero : 0 ∈ text) : (string text).Fails := by
  intro stack offset rest
  have failed : cut 34 (text.flatMap escape ++ 34 :: rest) = .error .unterminatedString := by
    simp only [cut, readString_zero zero]
    rfl
  rw [render_string_append]
  exact resume_of_error stack offset (by decide) failed

theorem reads_items {data : List Datum} (each : ∀ datum ∈ data, datum.Reads) (items : List Datum)
    (outer : List (List Datum)) (offset : Nat) {rest : Text} (ends : Ends rest) :
    ∃ later, resume (items :: outer) offset (renderItems data ++ rest) =
      resume ((data.reverse ++ items) :: outer) later rest := by
  induction data generalizing items offset with
  | nil => exact ⟨offset, rfl⟩
  | cons first others ih =>
      have readsFirst := each first List.mem_cons_self items outer offset
      cases others with
      | nil => exact readsFirst _ ends
      | cons second others =>
          obtain ⟨afterFirst, readFirst⟩ := readsFirst _
            (ends_space (renderItems (second :: others) ++ rest))
          obtain ⟨afterSpace, skipped⟩ :=
            resume_blank ((first :: items) :: outer) afterFirst (rfl : isSpace 32 = true)
          obtain ⟨later, readOthers⟩ :=
            ih (fun datum member => each datum (List.mem_cons_of_mem _ member)) (first :: items)
              afterSpace
          refine ⟨later, ?_⟩
          rw [renderItems, List.append_assoc, List.cons_append, readFirst, skipped, readOthers]
          simp

/-- The items before the first one that fails are read. -/
theorem fails_items {data : List Datum} (each : ∀ datum ∈ data, datum.Reads ∨ datum.Fails)
    (failing : ∃ datum ∈ data, ¬ datum.Reads) (stack : List (List Datum)) (nonempty : stack ≠ [])
    (offset : Nat) (rest : Text) :
    resume stack offset (renderItems data ++ rest) = .error .unterminatedString := by
  induction data generalizing stack offset with
  | nil => simp at failing
  | cons first others ih =>
      rcases each first List.mem_cons_self with reads | fails
      · obtain ⟨items, outer, rfl⟩ := List.exists_cons_of_ne_nil nonempty
        cases others with
        | nil => simp [reads] at failing
        | cons second others =>
            obtain ⟨afterFirst, readFirst⟩ := reads items outer offset _
              (ends_space (renderItems (second :: others) ++ rest))
            obtain ⟨afterSpace, skipped⟩ :=
              resume_blank ((first :: items) :: outer) afterFirst (rfl : isSpace 32 = true)
            rw [renderItems, List.append_assoc, List.cons_append, readFirst, skipped]
            refine ih (fun datum member => each datum (List.mem_cons_of_mem _ member)) ?_ _
              (by simp) afterSpace
            obtain ⟨datum, member, unread⟩ := failing
            rcases List.mem_cons.mp member with rfl | later
            · exact absurd reads unread
            · exact ⟨datum, later, unread⟩
      · cases others with
        | nil => exact fails stack offset rest
        | cons second others =>
            rw [renderItems, List.append_assoc]
            exact fails stack offset _

theorem render_list_append (items : List Datum) (rest : Text) :
    (list items).render ++ rest = 40 :: (renderItems items ++ 41 :: rest) := by
  simp [render]

theorem reads_list {items : List Datum} (each : ∀ item ∈ items, item.Reads) :
    (list items).Reads := by
  intro siblings outer offset rest _
  obtain ⟨inside, opened⟩ := resume_opening (siblings :: outer) offset
  obtain ⟨atEnd, readItems⟩ :=
    reads_items each [] (siblings :: outer) inside (ends_closing rest)
  obtain ⟨later, closed⟩ := resume_closing atEnd
  exact ⟨later, by rw [render_list_append, opened, readItems, closed]; simp⟩

theorem fails_list {items : List Datum} (each : ∀ item ∈ items, item.Reads ∨ item.Fails)
    (failing : ∃ item ∈ items, ¬ item.Reads) : (list items).Fails := by
  intro stack offset rest
  obtain ⟨inside, opened⟩ := resume_opening stack offset
  rw [render_list_append, opened]
  exact fails_items each failing ([] :: stack) (by simp) inside (41 :: rest)

theorem not_reads_of_fails {datum : Datum} (fails : datum.Fails) : ¬ datum.Reads := by
  intro reads
  obtain ⟨later, same⟩ := reads [] [] 0 [] (by simp [Ends])
  rw [fails, resume_nil] at same
  cases same

/-- A datum is read unless one of its strings has a zero byte. -/
theorem Legible.reads_or_fails {datum : Datum} (legible : datum.Legible) :
    datum.Reads ∧ datum.ZeroFree ∨ datum.Fails ∧ ¬ datum.ZeroFree := by
  induction legible with
  | symbol spelled => exact .inl ⟨reads_symbol spelled, .symbol⟩
  | number spelled => exact .inl ⟨reads_number spelled, .number⟩
  | ellipsis => exact .inl ⟨reads_ellipsis, .ellipsis⟩
  | @string text =>
      by_cases zero : 0 ∈ text
      · exact .inr ⟨fails_string zero, by simpa using zero⟩
      · exact .inl ⟨reads_string zero, .string zero⟩
  | @list items _ ih =>
      by_cases zeroFree : ∀ item ∈ items, item.ZeroFree
      · refine .inl ⟨reads_list fun item member => ?_, .list zeroFree⟩
        rcases ih item member with ⟨reads, _⟩ | ⟨_, hasZero⟩
        · exact reads
        · exact absurd (zeroFree item member) hasZero
      · refine .inr ⟨fails_list (fun item member => ?_) ?_, by simpa using zeroFree⟩
        · exact (ih item member).imp And.left And.left
        · obtain ⟨item, member, hasZero⟩ : ∃ item ∈ items, ¬ item.ZeroFree := by
            simpa using zeroFree
          refine ⟨item, member, ?_⟩
          rcases ih item member with ⟨_, free⟩ | ⟨fails, _⟩
          · exact absurd free hasZero
          · exact not_reads_of_fails fails

theorem Legible.read_render_iff {datum found : Datum} (legible : datum.Legible) :
    read datum.render = .ok found ↔ datum.ZeroFree ∧ found = datum := by
  have readAll_eq : readAll datum.render = resume [[]] 0 (datum.render ++ []) := by
    rw [List.append_nil]
    rfl
  rcases legible.reads_or_fails with ⟨reads, zeroFree⟩ | ⟨fails, hasZero⟩
  · obtain ⟨later, same⟩ := reads [] [] 0 [] (by simp [Ends])
    simp only [read, readAll_eq, same, resume_nil, List.reverse_cons, List.reverse_nil,
      List.nil_append, Except.ok.injEq, zeroFree, true_and]
    exact eq_comm
  · simp only [read, readAll_eq, fails [[]] 0 [], hasZero, false_and, reduceCtorEq]

end Loxley.Datum
