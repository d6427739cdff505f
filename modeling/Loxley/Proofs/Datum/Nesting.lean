import Loxley.Proofs.Datum.Descent
import Loxley.Proofs.Datum.Words

/-!
# Data and their words

The words of data are their atoms and the parentheses of their lists, in order. Data are read from
words exactly if the parentheses among these are balanced, and then the words are those of the data.
Newlines at the end of a text do not change what is read from it.
-/

set_option autoImplicit false

namespace Loxley.Datum

mutual

/-- The words of a datum. -/
def flatten : Datum → List Lexeme
  | symbol text => [.atom (symbol text)]
  | string text => [.atom (string text)]
  | number text => [.atom (number text)]
  | ellipsis => [.atom ellipsis]
  | list items => .opening :: (flattenAll items ++ [.closing])

def flattenAll : List Datum → List Lexeme
  | [] => []
  | first :: rest => first.flatten ++ flattenAll rest

end

theorem flatten_of_isAtom {datum : Datum} (isAtom : datum.isAtom = true) :
    datum.flatten = [.atom datum] := by
  cases datum with
  | symbol | string | number | ellipsis => rfl
  | list items => cases isAtom

theorem flattenAll_append (first second : List Datum) :
    flattenAll (first ++ second) = flattenAll first ++ flattenAll second := by
  induction first with
  | nil => rfl
  | cons datum first ih => rw [List.cons_append, flattenAll, flattenAll, ih, List.append_assoc]

theorem flattenAll_reverse_cons (datum : Datum) (items : List Datum) :
    flattenAll (datum :: items).reverse = flattenAll items.reverse ++ datum.flatten := by
  rw [List.reverse_cons, flattenAll_append, flattenAll, flattenAll, List.append_nil]

/-! ## Balanced parentheses -/

def Lexeme.isOpening : Lexeme → Bool
  | .opening => true
  | _ => false

def Lexeme.isClosing : Lexeme → Bool
  | .closing => true
  | _ => false

def openings (words : List Lexeme) : Nat :=
  words.countP Lexeme.isOpening

def closings (words : List Lexeme) : Nat :=
  words.countP Lexeme.isClosing

/-- Words that close a number of lists, and all that they open themselves. -/
structure Closes (depth : Nat) (words : List Lexeme) : Prop where
  /-- No list is closed that is not open. -/
  opened : ∀ before, before <+: words → closings before ≤ depth + openings before
  /-- No list is left open. -/
  closed : closings words = depth + openings words

/-- Every closing parenthesis has an opening one before it, and every opening one is closed. -/
def Balanced (words : List Lexeme) : Prop :=
  Closes 0 words

theorem closes_nil_iff {depth : Nat} : Closes depth [] ↔ depth = 0 := by
  constructor
  · intro closes
    exact closes.closed.symm
  · rintro rfl
    exact ⟨fun before isPrefix => by rw [List.prefix_nil.mp isPrefix]; exact Nat.zero_le _, rfl⟩

/-- What the first word does to the number of open lists. -/
theorem closes_cons_iff {depth later : Nat} {word : Lexeme} {words : List Lexeme}
    (step : depth + openings [word] = later + closings [word]) :
    Closes depth (word :: words) ↔ Closes later words := by
  have opens : ∀ rest, openings (word :: rest) = openings [word] + openings rest := fun rest =>
    @List.countP_append _ Lexeme.isOpening [word] rest
  have shuts : ∀ rest, closings (word :: rest) = closings [word] + closings rest := fun rest =>
    @List.countP_append _ Lexeme.isClosing [word] rest
  constructor
  · intro closes
    refine ⟨fun before isPrefix => ?_, ?_⟩
    · have bound := closes.opened (word :: before) (List.cons_prefix_cons.mpr ⟨rfl, isPrefix⟩)
      rw [opens, shuts] at bound
      omega
    · have total := closes.closed
      rw [opens, shuts] at total
      omega
  · intro closes
    refine ⟨fun before isPrefix => ?_, ?_⟩
    · rcases List.prefix_cons_iff.mp isPrefix with rfl | ⟨others, rfl, isPrefix⟩
      · exact Nat.zero_le _
      · have bound := closes.opened others (List.cons_prefix_cons.mp isPrefix).2
        rw [opens, shuts]
        omega
    · have total := closes.closed
      rw [opens, shuts]
      omega

theorem closes_opening_iff {depth : Nat} {words : List Lexeme} :
    Closes depth (.opening :: words) ↔ Closes (depth + 1) words :=
  closes_cons_iff rfl

theorem closes_atom_iff {depth : Nat} {datum : Datum} {words : List Lexeme} :
    Closes depth (.atom datum :: words) ↔ Closes depth words :=
  closes_cons_iff rfl

theorem closes_closing_iff {depth : Nat} {words : List Lexeme} :
    Closes (depth + 1) (.closing :: words) ↔ Closes depth words :=
  closes_cons_iff rfl

theorem not_closes_closing {words : List Lexeme} : ¬ Closes 0 (.closing :: words) := by
  intro closes
  have bound := closes.opened [.closing] (by simp)
  exact absurd bound (by decide)

/-! ## Building -/

/-- Words that close all lists on the stack are built to data. -/
theorem exists_build_iff {words : List (Nat × Lexeme)} (items : List Datum)
    (outer : List (List Datum)) :
    (∃ data, build none (items :: outer) words = .ok data) ↔
      Closes outer.length (words.map Prod.snd) := by
  induction words generalizing items outer with
  | nil =>
      rw [List.map_nil, closes_nil_iff]
      cases outer with
      | nil => simp [build]
      | cons next others => simp [build]
  | cons word words ih =>
      obtain ⟨offset, lexeme⟩ := word
      cases lexeme with
      | opening =>
          rw [List.map_cons, closes_opening_iff]
          simp only [build]
          exact ih [] (items :: outer)
      | atom datum =>
          rw [List.map_cons, closes_atom_iff]
          simp only [build, addTo]
          exact ih (datum :: items) outer
      | closing =>
          cases outer with
          | nil => simp [build, not_closes_closing]
          | cons next others =>
              rw [List.map_cons, List.length_cons, closes_closing_iff]
              simp only [build, addTo]
              exact ih (list items.reverse :: next) others

/-- The words that have been read, as far as a stack remembers them. -/
def spread : List (List Datum) → List Lexeme
  | [] => []
  | [items] => flattenAll items.reverse
  | items :: next :: others => spread (next :: others) ++ .opening :: flattenAll items.reverse

theorem spread_cons (datum : Datum) (items : List Datum) (outer : List (List Datum)) :
    spread ((datum :: items) :: outer) = spread (items :: outer) ++ datum.flatten := by
  cases outer with
  | nil => exact flattenAll_reverse_cons datum items
  | cons next others =>
      rw [spread, spread, flattenAll_reverse_cons, List.append_assoc, List.cons_append]

/-- The words of the data that are built are those read before and those read now. -/
theorem flattenAll_of_build {words : List (Nat × Lexeme)} {items : List Datum}
    {outer : List (List Datum)} {data : List Datum}
    (atoms : ∀ datum, .atom datum ∈ words.map Prod.snd → datum.isAtom = true)
    (built : build none (items :: outer) words = .ok data) :
    flattenAll data = spread (items :: outer) ++ words.map Prod.snd := by
  induction words generalizing items outer with
  | nil =>
      cases outer with
      | nil =>
          cases built
          rw [List.map_nil, List.append_nil, spread]
      | cons next others => cases built
  | cons word words ih =>
      obtain ⟨offset, lexeme⟩ := word
      have later : ∀ datum, .atom datum ∈ words.map Prod.snd → datum.isAtom = true :=
        fun datum member => atoms datum (List.mem_cons_of_mem _ member)
      cases lexeme with
      | opening =>
          simp only [build] at built
          rw [ih later built, spread]
          simp [flattenAll]
      | atom datum =>
          simp only [build, addTo] at built
          rw [ih later built, spread_cons, flatten_of_isAtom (atoms datum (by simp))]
          simp
      | closing =>
          cases outer with
          | nil => cases built
          | cons next others =>
              simp only [build, addTo] at built
              rw [ih later built, spread_cons, spread, flatten]
              simp

mutual

/-- The words of a datum are built to that datum, whatever is around them. -/
theorem build_flatten (datum : Datum) (problem : Option ReadError) {words : List (Nat × Lexeme)}
    {more : List Lexeme} (shape : words.map Prod.snd = datum.flatten ++ more) :
    ∃ rest, rest.map Prod.snd = more ∧ ∀ items outer,
      build problem (items :: outer) words = build problem ((datum :: items) :: outer) rest := by
  cases datum with
  | symbol | string | number | ellipsis =>
      obtain ⟨⟨offset, _⟩, rest, rfl, rfl, others⟩ := List.map_eq_cons_iff.mp shape
      exact ⟨rest, others, fun items outer => by simp only [build, addTo]⟩
  | list inner =>
      rw [flatten, List.cons_append, List.append_assoc] at shape
      obtain ⟨⟨offset, _⟩, inside, rfl, rfl, shapeInner⟩ := List.map_eq_cons_iff.mp shape
      obtain ⟨atEnd, shapeEnd, builtInner⟩ := build_flattenAll inner problem shapeInner
      obtain ⟨⟨finish, _⟩, rest, rfl, rfl, others⟩ := List.map_eq_cons_iff.mp shapeEnd
      refine ⟨rest, others, fun items outer => ?_⟩
      simp only [build, builtInner, addTo, List.append_nil, List.reverse_reverse]

theorem build_flattenAll (data : List Datum) (problem : Option ReadError)
    {words : List (Nat × Lexeme)} {more : List Lexeme}
    (shape : words.map Prod.snd = flattenAll data ++ more) :
    ∃ rest, rest.map Prod.snd = more ∧ ∀ items outer,
      build problem (items :: outer) words =
        build problem ((data.reverse ++ items) :: outer) rest := by
  cases data with
  | nil => exact ⟨words, shape, fun items outer => rfl⟩
  | cons datum data =>
      rw [flattenAll, List.append_assoc] at shape
      obtain ⟨middle, shape, builtFirst⟩ := build_flatten datum problem shape
      obtain ⟨rest, others, builtRest⟩ := build_flattenAll data problem shape
      refine ⟨rest, others, fun items outer => ?_⟩
      rw [builtFirst, builtRest, List.reverse_cons, List.append_assoc, List.singleton_append]

end

theorem build_eq_ok_iff {words : List (Nat × Lexeme)} {data : List Datum}
    (atoms : ∀ datum, .atom datum ∈ words.map Prod.snd → datum.isAtom = true) :
    build none [[]] words = .ok data ↔ words.map Prod.snd = flattenAll data := by
  constructor
  · intro built
    exact (flattenAll_of_build atoms built).symm
  · intro shape
    obtain ⟨rest, others, built⟩ := build_flattenAll data none (shape.trans (List.append_nil _).symm)
    rw [built, List.map_eq_nil_iff.mp others]
    simp [build]

theorem build_of_problem (fault : ReadError) (stack : List (List Datum))
    (words : List (Nat × Lexeme)) (data : List Datum) :
    build (some fault) stack words ≠ .ok data := by
  fun_induction build (some fault) stack words with
  | case1 => simp
  | case2 _ absurdity => cases absurdity
  | case3 => simp
  | case4 _ _ _ ih | case5 _ _ _ _ ih | case6 _ _ _ _ _ ih => exact ih
  | case7 => simp

/-! ## Reading -/

theorem Written.isAtom {text : Text} {words : List Lexeme} (written : Written text words)
    (datum : Datum) (member : .atom datum ∈ words) : datum.isAtom = true := by
  induction written with
  | nil => cases member
  | blank _ _ ih | comment _ _ _ ih => exact ih member
  | word isWord _ _ ih =>
      rcases List.mem_cons.mp member with rfl | later
      · cases isWord <;> rfl
      · exact ih later

/-- Data are read from a text if their words are those of the text before its first zero byte. -/
theorem readAll_eq_ok_iff {text : Text} {data : List Datum} :
    readAll text = .ok data ↔ Written (beforeZero text) (flattenAll data) := by
  rw [written_iff (zero_not_mem_beforeZero text) 0, ← lex_beforeZero, readAll]
  cases problem : (lex 0 text).problem with
  | some fault => simp [build_of_problem]
  | none =>
      have written := written_of_lex (zero_not_mem_beforeZero text)
        (by rw [← lex_beforeZero 0, problem])
      rw [← lex_beforeZero] at written
      rw [build_eq_ok_iff written.isAtom]
      simp

theorem Written.exists_flattenAll_iff {text : Text} {words : List Lexeme}
    (written : Written text words) : (∃ data, words = flattenAll data) ↔ Balanced words := by
  have placed : (words.map fun word => (0, word)).map Prod.snd = words := by simp
  have built : ∀ data, build none [[]] (words.map fun word => (0, word)) = .ok data ↔
      words = flattenAll data := by
    intro data
    rw [build_eq_ok_iff (by rw [placed]; exact written.isAtom), placed]
  simp only [← built]
  rw [exists_build_iff, placed]
  rfl

/--
Reading ends for every text, within a number of rounds that its length limits. It gives data exactly
if the text before its first zero byte consists of words, of which there is only one choice, and
their parentheses are balanced. The words are then those of the data.
-/
theorem readAll_reads_balanced_words (text : Text) :
    (∀ rounds, 2 * text.length < rounds → Reader.readAll? rounds text = some (readAll text)) ∧
    (∀ data, readAll text = .ok data ↔ Written (beforeZero text) (flattenAll data)) ∧
    ((∃ data, readAll text = .ok data) ↔
      ∃ words, Written (beforeZero text) words ∧ Balanced words) ∧
    (∀ words others, Written (beforeZero text) words → Written (beforeZero text) others →
      words = others) := by
  refine ⟨fun rounds => Reader.readAll?_eq_some, fun data => readAll_eq_ok_iff, ?_,
    fun words others written rewritten => ?_⟩
  · simp only [readAll_eq_ok_iff]
    constructor
    · rintro ⟨data, written⟩
      exact ⟨_, written, written.exists_flattenAll_iff.mp ⟨data, rfl⟩⟩
    · rintro ⟨words, written, balanced⟩
      obtain ⟨data, rfl⟩ := written.exists_flattenAll_iff.mpr balanced
      exact ⟨data, written⟩
  · have noZero := zero_not_mem_beforeZero text
    rw [← (written.lex noZero 0).2, (rewritten.lex noZero 0).2]

/-- A list and two more words, with parentheses in a string and a comment, and after a zero byte. -/
def guarded : Text :=
  ("(a \"\\\")\") ;(\n5..." : Text) ++ 0 :: (")" : Text)

theorem guarded_reads_balanced_words :
    guarded.length = 19 ∧ Reader.readAll? 39 guarded = some (readAll guarded) ∧
    ∃ data, readAll guarded = .ok data ∧
      flattenAll data = [.opening, .atom (symbol "a"), .atom (string "\")"), .closing,
        .atom (number "5"), .atom ellipsis] ∧
      Written (beforeZero guarded) (flattenAll data) ∧ Balanced (flattenAll data) := by
  obtain ⟨ends, reads, balanced, unique⟩ := readAll_reads_balanced_words guarded
  have found : readAll guarded =
      .ok [list [symbol "a", string "\")"], number "5", ellipsis] := by cbv
  have written := (reads _).mp found
  obtain ⟨words, writtenToo, closed⟩ := balanced.mp ⟨_, found⟩
  refine ⟨by rfl, ends 39 (by decide), _, found, by rfl, written, ?_⟩
  rw [unique _ _ written writtenToo]
  exact closed

/-! ## Newlines at the end -/

theorem SymbolText.isSymbolByte {text : Text} (spelled : SymbolText text) :
    ∀ byte ∈ text, isSymbolByte byte = true := by
  cases spelled with
  | intro starts continues _ _ => exact List.forall_mem_cons.mpr ⟨starts, continues⟩

theorem Digits.newline_not_mem {text : Text} (digits : Digits text) : 10 ∉ text := by
  have notDigit : ∀ bytes : Text, (∀ byte ∈ bytes, Text.isDigit byte = true) → 10 ∉ bytes := by
    intro bytes each newline
    exact absurd (each 10 newline) (by decide)
  cases digits with
  | whole _ each => exact notDigit _ each
  | fraction _ each _ others =>
      simpa using ⟨notDigit _ each, notDigit _ others⟩

theorem Word.getLast?_ne_newline {bytes : Text} {lexeme : Lexeme} (isWord : Word bytes lexeme) :
    bytes.getLast? ≠ some 10 := by
  intro newline
  cases isWord with
  | opening | closing | ellipsis => simp at newline
  | symbol spelled =>
      exact absurd (spelled.isSymbolByte 10 (List.mem_of_getLast? newline)) (by decide)
  | number spelled =>
      cases spelled with
      | unsigned digits => exact digits.newline_not_mem (List.mem_of_getLast? newline)
      | signed isSign digits =>
          rcases List.mem_cons.mp (List.mem_of_getLast? newline) with sign | digit
          · rw [← sign] at isSign
            exact absurd isSign (by decide)
          · exact digits.newline_not_mem digit
  | string spelled => simp [List.getLast?_cons] at newline

theorem longest_append_newline_iff {bytes rest : Text} :
    Longest bytes (rest ++ [10]) ↔ Longest bytes rest := by
  constructor
  · intro longest more lexeme isPrefix longer
    exact longest more lexeme (isPrefix.trans (List.prefix_append rest [10])) longer
  · intro longest more lexeme isPrefix longer
    rcases List.prefix_concat_iff.mp isPrefix with whole | inside
    · rw [whole, ← List.append_assoc] at longer
      exact absurd List.getLast?_concat longer.getLast?_ne_newline
    · exact longest more lexeme inside longer

theorem Written.append_newline {text : Text} {words : List Lexeme} (written : Written text words) :
    Written (text ++ [10]) words := by
  induction written with
  | nil => exact .blank (by decide) .nil
  | blank isBlank _ ih => exact .blank isBlank ih
  | @comment body rest words oneLine ends _ ih =>
      rw [List.cons_append, List.append_assoc]
      refine .comment oneLine ?_ ih
      cases rest with
      | nil => simp
      | cons byte rest => exact ends
  | word isWord longest _ ih =>
      rw [List.append_assoc]
      exact .word isWord (longest_append_newline_iff.mpr longest) ih

theorem Written.of_append_newline {text whole : Text} {words : List Lexeme}
    (written : Written whole words) (shape : whole = text ++ [10]) : Written text words := by
  induction written generalizing text with
  | nil => simp at shape
  | @blank byte rest words isBlank others ih =>
      cases text with
      | nil =>
          cases shape
          exact others
      | cons first text =>
          injection shape with same shape
          rw [← same]
          exact .blank isBlank (ih shape)
  | @comment body rest words oneLine ends others ih =>
      cases text with
      | nil => simp at shape
      | cons first text =>
          injection shape with same shape
          -- The newline ends the comment, so it does not belong to it.
          rcases List.eq_nil_or_concat rest with rfl | ⟨earlier, last, rfl⟩
          · rw [List.append_nil] at shape
            exact absurd rfl (oneLine 10 (by simp [shape])).1
          · rw [List.concat_eq_append, ← List.append_assoc] at shape
            obtain ⟨rfl, newline⟩ := List.append_inj' shape rfl
            cases newline
            rw [← same]
            refine .comment oneLine ?_ (ih List.concat_eq_append)
            cases earlier with
            | nil => simp
            | cons byte earlier => exact ends
  | @word bytes rest lexeme words isWord longest others ih =>
      rcases List.eq_nil_or_concat rest with rfl | ⟨earlier, last, rfl⟩
      · rw [List.append_nil] at shape
        exact absurd (shape ▸ List.getLast?_concat) isWord.getLast?_ne_newline
      · rw [List.concat_eq_append, ← List.append_assoc] at shape
        obtain ⟨rfl, newline⟩ := List.append_inj' shape rfl
        cases newline
        rw [List.concat_eq_append] at longest
        exact .word isWord (longest_append_newline_iff.mp longest) (ih List.concat_eq_append)

/-- A newline at the end of a text makes no difference to what is read from it. -/
theorem readAll_append_newline_iff {text : Text} {data : List Datum} :
    readAll (text ++ [10]) = .ok data ↔ readAll text = .ok data := by
  rw [readAll_eq_ok_iff, readAll_eq_ok_iff]
  by_cases zero : 0 ∈ text
  · have shorter : (text.takeWhile (· != 0)).length ≠ text.length := by
      intro same
      have whole : beforeZero text = text := (List.takeWhile_prefix _).eq_of_length same
      have noZero := zero_not_mem_beforeZero text
      rw [whole] at noZero
      exact noZero zero
    rw [beforeZero, beforeZero, List.takeWhile_append, if_neg shorter]
  · have nonzero : ∀ byte ∈ text, (byte != 0) = true := by
      intro byte member
      exact bne_iff_ne.mpr (ne_of_mem_of_not_mem member zero)
    rw [beforeZero, beforeZero, List.takeWhile_append_of_pos nonzero,
      List.takeWhile_eq_self_iff.mpr nonzero]
    exact ⟨fun written => written.of_append_newline rfl, Written.append_newline⟩

end Loxley.Datum
