import Loxley.Proofs.Segmentation

/-!
# The words of the text of data

A text of data consists of parentheses, symbols, numbers, strings and ellipses, with white space and
comments between them. Each word is as long as it can be, which is all that has to be said to make
the words of a text unique. Reading finds them, and stops at a zero byte as at the end of the text.
-/

set_option autoImplicit false

namespace Loxley.Datum

/-! ## Words -/

/-- How the contents of a string are written between its quotes. -/
inductive Spells : Text → Text → Prop
  | nil : Spells [] []
  | plain {byte : UInt8} {body contents : Text} (notQuote : byte ≠ 34) (notBackslash : byte ≠ 92)
      (rest : Spells body contents) : Spells (byte :: body) (byte :: contents)
  | quote {body contents : Text} (rest : Spells body contents) :
      Spells (92 :: 34 :: body) (34 :: contents)
  | backslash {body contents : Text} (rest : Spells body contents) :
      Spells (92 :: 92 :: body) (92 :: contents)
  | newline {body contents : Text} (rest : Spells body contents) :
      Spells (92 :: 110 :: body) (10 :: contents)

/-- How a word is written. -/
inductive Word : Text → Lexeme → Prop
  | opening : Word [40] .opening
  | closing : Word [41] .closing
  | symbol {text : Text} (spelled : SymbolText text) : Word text (.atom (.symbol text))
  | number {text : Text} (spelled : NumberText text) : Word text (.atom (.number text))
  | string {body contents : Text} (spelled : Spells body contents) :
      Word (34 :: (body ++ [34])) (.atom (.string contents))
  | ellipsis : Word [46, 46, 46] (.atom .ellipsis)

/-- No longer beginning of a text is a word. -/
def Longest (bytes rest : Text) : Prop :=
  ∀ more lexeme, more <+: rest → Word (bytes ++ more) lexeme → more = []

/-- The words of a text, in order. A comment reaches to the end of its line. -/
inductive Written : Text → List Lexeme → Prop
  | nil : Written [] []
  | blank {byte : UInt8} {rest : Text} {words : List Lexeme} (isBlank : isSpace byte = true)
      (others : Written rest words) : Written (byte :: rest) words
  | comment {body rest : Text} {words : List Lexeme} (oneLine : ∀ byte ∈ body, byte ≠ 10 ∧ byte ≠ 13)
      (ends : ∀ byte ∈ rest.head?, byte = 10 ∨ byte = 13) (others : Written rest words) :
      Written (59 :: (body ++ rest)) words
  | word {bytes rest : Text} {lexeme : Lexeme} {words : List Lexeme} (isWord : Word bytes lexeme)
      (longest : Longest bytes rest) (others : Written rest words) :
      Written (bytes ++ rest) (lexeme :: words)

/-! ## One word at a time -/

theorem Spells.readString {body contents : Text} (spelled : Spells body contents)
    (noZero : 0 ∉ body) (rest : Text) :
    readString (body ++ 34 :: rest) = .ok (contents, rest) := by
  induction spelled with
  | nil =>
      rw [List.nil_append, Datum.readString.eq_def]
      rfl
  | @plain byte body contents notQuote notBackslash _ ih =>
      simp only [List.mem_cons, not_or] at noZero
      rw [List.cons_append, readString_plain (Ne.symm noZero.1) notQuote notBackslash, ih noZero.2]
      rfl
  | quote _ ih | backslash _ ih | newline _ ih =>
      simp only [List.mem_cons, not_or] at noZero
      rw [List.cons_append, List.cons_append, readString_backslash rfl, ih noZero.2.2]
      rfl

theorem Spells.escaped {escaped decoded : UInt8} {body contents : Text}
    (known : unescape? escaped = some decoded) (rest : Spells body contents) :
    Spells (92 :: escaped :: body) (decoded :: contents) := by
  unfold unescape? at known
  split at known
  · next isQuote => cases known; rw [eq_of_beq isQuote]; exact .quote rest
  · split at known
    · next isBackslash => cases known; rw [eq_of_beq isBackslash]; exact .backslash rest
    · split at known
      · next isNewline => cases known; rw [eq_of_beq isNewline]; exact .newline rest
      · cases known

theorem spells_of_readString {text contents after : Text}
    (read : readString text = .ok (contents, after)) :
    ∃ body, text = body ++ 34 :: after ∧ Spells body contents := by
  fun_induction Datum.readString text generalizing contents with
  | case1 | case3 | case4 | case5 | case6 | case8 => cases read
  | case2 byte rest isQuote =>
      cases read
      exact ⟨[], by rw [eq_of_beq isQuote]; rfl, .nil⟩
  | case7 byte _ _ isBackslash escaped rest decoded known text final readRest ih =>
      cases read
      obtain ⟨body, rfl, spelled⟩ := ih readRest
      exact ⟨92 :: escaped :: body, by rw [eq_of_beq isBackslash]; rfl, spelled.escaped known⟩
  | case9 byte rest notQuote _ notBackslash text final readRest ih =>
      cases read
      obtain ⟨body, rfl, spelled⟩ := ih readRest
      exact ⟨byte :: body, rfl,
        .plain (by simpa using notQuote) (by simpa using notBackslash) spelled⟩

/-- A word that nothing makes longer is cut off as such. -/
theorem Word.cut {bytes rest : Text} {lexeme : Lexeme} (isWord : Word bytes lexeme)
    (noZero : 0 ∉ bytes) (stops : lexeme.Stops rest) :
    ∃ first more, bytes = first :: more ∧ first ≠ 0 ∧
      Datum.cut first (more ++ rest) = .ok { lexeme := some lexeme, rest } := by
  cases isWord with
  | opening | closing | ellipsis => exact ⟨_, _, rfl, by decide, rfl⟩
  | symbol spelled =>
      cases spelled with
      | @intro first more starts continues notDigit notSign =>
          exact ⟨first, more, rfl, (starts_of_isSymbolByte starts).1,
            cut_symbol (.intro starts continues notDigit notSign) stops⟩
  | number spelled =>
      obtain ⟨first, more, rfl, starts⟩ := spelled.exists_cons
      exact ⟨first, more, rfl, (starts_of_isSymbolByte starts).1, cut_number spelled stops⟩
  | @string body contents spelled =>
      have noZeroBody : 0 ∉ body := fun member =>
        noZero (List.mem_cons_of_mem _ (List.mem_append_left _ member))
      refine ⟨34, body ++ [34], rfl, by decide, ?_⟩
      rw [List.append_assoc, List.singleton_append]
      simp only [Datum.cut, spelled.readString noZeroBody]
      rfl

theorem Lexeme.stops_nil (lexeme : Lexeme) : lexeme.Stops [] :=
  Ends.stops (by simp [Ends]) lexeme

theorem Lexeme.Stops.of_prefix {lexeme : Lexeme} {rest more : Text} (stops : lexeme.Stops rest)
    (isPrefix : more <+: rest) : lexeme.Stops more := by
  obtain ⟨others, rfl⟩ := isPrefix
  have head : ∀ byte ∈ more.head?, byte ∈ (more ++ others).head? := by
    cases more with
    | nil => simp
    | cons byte more => simp
  cases lexeme with
  | opening | closing => trivial
  | atom datum =>
      cases datum with
      | symbol text => exact fun byte member => stops byte (head byte member)
      | number text =>
          refine ⟨fun byte member => stops.1 byte (head byte member),
            fun noPoint digit after shape => ?_⟩
          exact stops.2 noPoint digit (after ++ others) (by rw [shape]; rfl)
      | string | ellipsis | list => trivial

theorem Word.longest {bytes rest : Text} {lexeme : Lexeme} (isWord : Word bytes lexeme)
    (noZero : 0 ∉ bytes ++ rest) (stops : lexeme.Stops rest) : Longest bytes rest := by
  -- Both words are cut off from the same text, which can be done in one way only.
  intro more other isPrefix longer
  have noZeroLonger : 0 ∉ bytes ++ more := fun zero =>
    noZero (((List.prefix_append_right_inj bytes).mpr isPrefix).subset zero)
  obtain ⟨first, others, rfl, _, taken⟩ :=
    isWord.cut (fun zero => noZero (List.mem_append_left _ zero)) (stops.of_prefix isPrefix)
  obtain ⟨_, _, shape, _, retaken⟩ := longer.cut noZeroLonger other.stops_nil
  cases shape
  rw [List.append_nil] at retaken
  cases taken.symm.trans retaken
  rfl

theorem SymbolText.exists_longer {text : Text} {byte : UInt8} (spelled : SymbolText text)
    (isSymbol : isSymbolByte byte = true) : ∃ lexeme, Word (text ++ [byte]) lexeme := by
  cases spelled with
  | @intro first rest starts continues notDigit notSign =>
      by_cases signed : rest = [] ∧ isSign first = true ∧ Text.isDigit byte = true
      · obtain ⟨rfl, isSign, isDigit⟩ := signed
        exact ⟨_, .number (.signed isSign (.whole (by simp) (by simpa using isDigit)))⟩
      · refine ⟨_, .symbol (.intro starts ?_ notDigit ?_)⟩
        · simpa [or_imp, forall_and] using ⟨continues, isSymbol⟩
        · cases rest with
          | nil => simpa using signed
          | cons second more => exact notSign

theorem Digits.longer {text : Text} {byte : UInt8} (digits : Digits text)
    (isDigit : Text.isDigit byte = true) : Digits (text ++ [byte]) := by
  cases digits with
  | whole nonempty each =>
      exact .whole (by simp) (by simpa [or_imp, forall_and] using ⟨each, isDigit⟩)
  | fraction nonempty each some others =>
      rw [List.append_assoc, List.cons_append]
      exact .fraction nonempty each (by simp) (by simpa [or_imp, forall_and] using ⟨others, isDigit⟩)

theorem Digits.withFraction {text : Text} {byte : UInt8} (digits : Digits text)
    (noPoint : 46 ∉ text) (isDigit : Text.isDigit byte = true) : Digits (text ++ [46, byte]) := by
  cases digits with
  | whole nonempty each => exact .fraction nonempty each (by simp) (by simpa using isDigit)
  | fraction => simp at noPoint

theorem NumberText.longer {text : Text} {byte : UInt8} (spelled : NumberText text)
    (isDigit : Text.isDigit byte = true) : NumberText (text ++ [byte]) := by
  cases spelled with
  | unsigned digits => exact .unsigned (digits.longer isDigit)
  | signed isSign digits => exact .signed isSign (digits.longer isDigit)

theorem NumberText.withFraction {text : Text} {byte : UInt8} (spelled : NumberText text)
    (noPoint : 46 ∉ text) (isDigit : Text.isDigit byte = true) :
    NumberText (text ++ [46, byte]) := by
  cases spelled with
  | unsigned digits => exact .unsigned (digits.withFraction noPoint isDigit)
  | signed isSign digits =>
      exact .signed isSign (digits.withFraction (List.not_mem_of_not_mem_cons noPoint) isDigit)

theorem Word.stops {bytes rest : Text} {lexeme : Lexeme} (isWord : Word bytes lexeme)
    (longest : Longest bytes rest) : lexeme.Stops rest := by
  have head : ∀ byte ∈ rest.head?, ∀ lexeme, ¬ Word (bytes ++ [byte]) lexeme := by
    intro byte member lexeme longer
    cases rest with
    | nil => cases member
    | cons first others =>
        cases member
        exact absurd (longest [byte] lexeme (by simp) longer) (by simp)
  cases isWord with
  | opening | closing | string | ellipsis => trivial
  | symbol spelled =>
      intro byte member
      by_contra isSymbol
      obtain ⟨lexeme, longer⟩ := spelled.exists_longer (eq_true_of_ne_false isSymbol)
      exact head byte member lexeme longer
  | number spelled =>
      refine ⟨fun byte member => ?_, fun noPoint digit after shape => ?_⟩
      · by_contra isDigit
        exact head byte member _ (.number (spelled.longer (eq_true_of_ne_false isDigit)))
      · by_contra isDigit
        have longer := Word.number (spelled.withFraction noPoint (eq_true_of_ne_false isDigit))
        exact absurd (longest [46, digit] _ (by simp [shape]) longer) (by simp)

/-! ## What is cut off -/

/-- Numbers of data are cut off like numerals of programs. -/
theorem cutDigits_eq (text : Text) : cutDigits text = Segment.cutNumeral text :=
  rfl

theorem cutDigits_spelled {first : UInt8} {rest : Text} (isDigit : Text.isDigit first = true) :
    Digits (cutDigits (first :: rest)).1 ∧
    (cutDigits (first :: rest)).1 ++ (cutDigits (first :: rest)).2 = first :: rest ∧
    (∀ byte ∈ (cutDigits (first :: rest)).2.head?, Text.isDigit byte = false) ∧
    (46 ∉ (cutDigits (first :: rest)).1 → ∀ digit after,
      (cutDigits (first :: rest)).2 = 46 :: digit :: after → Text.isDigit digit = false) := by
  have stands := @Segment.stands_cutNumeral first rest isDigit
  have whole := Segment.cutNumeral_append (first :: rest)
  rw [← cutDigits_eq] at stands whole
  generalize (cutDigits (first :: rest)).1 = bytes at stands whole ⊢
  cases stands with
  | integer nonempty each ends noFraction =>
      exact ⟨.whole nonempty each, whole, ends, fun _ => noFraction⟩
  | decimal nonempty each some others ends =>
      exact ⟨.fraction nonempty each some others, whole, ends, fun noPoint =>
        absurd (List.mem_append_right _ List.mem_cons_self) noPoint⟩

theorem isDigit_of_head? {rest : Text} (starts : rest.head?.any Text.isDigit = true) :
    ∃ first others, rest = first :: others ∧ Text.isDigit first = true := by
  cases rest with
  | nil => cases starts
  | cons first others => exact ⟨first, others, rfl, starts⟩

/-- Whatever is cut off is white space, a comment, or a word that nothing makes longer. -/
theorem cut_cases {first : UInt8} {rest : Text} {result : Cut}
    (taken : cut first rest = .ok result) :
    (isSpace first = true ∧ result = { lexeme := none, rest }) ∨
    (first = 59 ∧ result = { lexeme := none, rest := rest.dropWhile continuesComment }) ∨
    ∃ bytes lexeme, first :: rest = bytes ++ result.rest ∧ Word bytes lexeme ∧
      lexeme.Stops result.rest ∧ result.lexeme = some lexeme := by
  revert taken
  fun_cases Datum.cut first rest with
  | case1 _ isBlank =>
      rintro ⟨⟩
      exact .inl ⟨isBlank, rfl⟩
  | case2 _ _ isComment =>
      rintro ⟨⟩
      exact .inr (.inl ⟨eq_of_beq isComment, rfl⟩)
  | case3 _ _ _ isOpening =>
      rintro ⟨⟩
      refine .inr (.inr ⟨_, _, ?_, .opening, trivial, rfl⟩)
      rw [eq_of_beq isOpening]
      rfl
  | case4 _ _ _ _ isClosing =>
      rintro ⟨⟩
      refine .inr (.inr ⟨_, _, ?_, .closing, trivial, rfl⟩)
      rw [eq_of_beq isClosing]
      rfl
  | case5 | case8 | case12 => rintro ⟨⟩
  | case6 _ _ _ _ _ isQuote contents after read =>
      rintro ⟨⟩
      obtain ⟨body, rfl, spelled⟩ := spells_of_readString read
      refine .inr (.inr ⟨_, _, ?_, .string spelled, trivial, rfl⟩)
      rw [eq_of_beq isQuote]
      simp
  | case7 _ _ _ _ _ isPoint after =>
      rintro ⟨⟩
      refine .inr (.inr ⟨_, _, ?_, .ellipsis, trivial, rfl⟩)
      rw [eq_of_beq isPoint]
      rfl
  | case9 _ _ _ _ _ _ _ isDigit =>
      rintro ⟨⟩
      obtain ⟨digits, whole, ends, noFraction⟩ := @cutDigits_spelled first rest isDigit
      exact .inr (.inr ⟨_, _, whole.symm, .number (.unsigned digits), ⟨ends, noFraction⟩, rfl⟩)
  | case10 _ _ _ _ _ _ _ _ isNumber =>
      rintro ⟨⟩
      obtain ⟨isSign, starts⟩ := Bool.and_eq_true_iff.mp isNumber
      obtain ⟨digit, others, rfl, isDigit⟩ := isDigit_of_head? starts
      obtain ⟨digits, whole, ends, noFraction⟩ := @cutDigits_spelled digit others isDigit
      refine .inr (.inr ⟨_, _, ?_, .number (.signed isSign digits), ⟨ends, fun noPoint => ?_⟩, rfl⟩)
      · rw [List.cons_append, whole]
      · exact noFraction (List.not_mem_of_not_mem_cons noPoint)
  | case11 _ _ _ _ _ _ _ notDigit notNumber isSymbol =>
      rintro ⟨⟩
      refine .inr (.inr ⟨_, _, ?_, .symbol (.intro isSymbol ?_ (by simpa using notDigit) ?_),
        Text.stops_dropWhile, rfl⟩)
      · rw [List.cons_append, List.takeWhile_append_dropWhile]
      · exact fun _ => List.mem_takeWhile_imp
      · cases rest with
        | nil => simp
        | cons second more =>
            cases continues : isSymbolByte second with
            | true => simpa [continues] using notNumber
            | false => simp [continues]

theorem suffix_of_cut {first : UInt8} {rest : Text} {result : Cut}
    (taken : cut first rest = .ok result) : result.rest <:+ first :: rest := by
  rcases cut_cases taken with ⟨_, rfl⟩ | ⟨_, rfl⟩ | ⟨bytes, _, shape, _⟩
  · exact List.suffix_cons first rest
  · exact (List.dropWhile_suffix _).trans (List.suffix_cons first rest)
  · exact ⟨bytes, shape.symm⟩

/-! ## Texts without a zero byte -/

theorem continuesComment_eq_true_iff {byte : UInt8} :
    continuesComment byte = true ↔ byte ≠ 10 ∧ byte ≠ 13 ∧ byte ≠ 0 := by
  simp [continuesComment, and_assoc]

theorem Written.ofComment {rest : Text} {words : List Lexeme} (noZero : 0 ∉ rest)
    (others : Written (rest.dropWhile continuesComment) words) : Written (59 :: rest) words := by
  have oneLine : ∀ byte ∈ rest.takeWhile continuesComment, byte ≠ 10 ∧ byte ≠ 13 := by
    intro byte member
    have continues := continuesComment_eq_true_iff.mp (List.mem_takeWhile_imp member)
    exact ⟨continues.1, continues.2.1⟩
  have ends : ∀ byte ∈ (rest.dropWhile continuesComment).head?, byte = 10 ∨ byte = 13 := by
    intro byte member
    have nonzero : byte ≠ 0 := fun zero =>
      noZero (zero ▸ (List.dropWhile_subset _ (List.mem_of_mem_head? member)))
    have stops := mt continuesComment_eq_true_iff.mpr
      (ne_true_of_eq_false (Text.stops_dropWhile byte member))
    simpa [nonzero, or_iff_not_imp_left] using stops
  have written := Written.comment oneLine ends others
  rwa [List.takeWhile_append_dropWhile] at written

/-- What is read without a problem are the words of the text. -/
theorem written_of_lex {offset : Nat} {text : Text} (noZero : 0 ∉ text)
    (clean : (lex offset text).problem = none) :
    Written text ((lex offset text).lexemes.map Prod.snd) := by
  fun_induction lex offset text with
  | case1 => exact .nil
  | case2 offset first rest isZero => exact absurd (eq_of_beq isZero ▸ List.mem_cons_self) noZero
  | case3 => cases clean
  | case4 offset first rest _ result taken others nothing ih =>
      rcases cut_cases taken with ⟨isBlank, rfl⟩ | ⟨rfl, rfl⟩ | ⟨_, _, _, _, _, something⟩
      · exact .blank isBlank (ih (List.not_mem_of_not_mem_cons noZero) clean)
      · have noZeroRest := List.not_mem_of_not_mem_cons noZero
        exact .ofComment noZeroRest (ih (fun zero => noZeroRest (List.dropWhile_subset _ zero)) clean)
      · rw [nothing] at something
        cases something
  | case5 offset first rest _ result taken others lexeme isLexeme ih =>
      rcases cut_cases taken with ⟨_, rfl⟩ | ⟨_, rfl⟩ | ⟨bytes, other, shape, isWord, stops, same⟩
      · cases isLexeme
      · cases isLexeme
      · cases isLexeme.symm.trans same
        rw [shape] at noZero ⊢
        exact .word isWord (isWord.longest noZero stops)
          (ih (fun zero => noZero (List.mem_append_right _ zero)) clean)

/-- The words of a text are read without a problem. -/
theorem Written.lex {text : Text} {words : List Lexeme} (written : Written text words)
    (noZero : 0 ∉ text) (offset : Nat) :
    (lex offset text).problem = none ∧ (lex offset text).lexemes.map Prod.snd = words := by
  induction written generalizing offset with
  | nil => simp [Datum.lex]
  | @blank byte rest words isBlank _ ih =>
      simp only [List.mem_cons, not_or] at noZero
      have taken : cut byte rest = .ok { lexeme := none, rest } := by simp [cut, isBlank]
      obtain ⟨later, lexed⟩ := lex_of_cut offset (Ne.symm noZero.1) taken
      rw [lexed]
      exact ih noZero.2 later
  | @comment body rest words oneLine ends _ ih =>
      simp only [List.mem_cons, List.mem_append, not_or] at noZero
      have continues : ∀ byte ∈ body, continuesComment byte = true := fun byte member =>
        continuesComment_eq_true_iff.mpr ⟨(oneLine byte member).1, (oneLine byte member).2,
          fun zero => noZero.2.1 (zero ▸ member)⟩
      have stops : ∀ byte ∈ rest.head?, continuesComment byte = false := by
        intro byte member
        rcases ends byte member with rfl | rfl <;> rfl
      have taken : cut 59 (body ++ rest) =
          .ok { lexeme := none, rest := (body ++ rest).dropWhile continuesComment } := rfl
      rw [Text.dropWhile_append_of_stops continues stops] at taken
      obtain ⟨later, lexed⟩ := lex_of_cut offset (by decide) taken
      rw [lexed]
      exact ih noZero.2.2 later
  | word isWord longest _ ih =>
      simp only [List.mem_append, not_or] at noZero
      obtain ⟨first, more, rfl, nonzero, taken⟩ := isWord.cut noZero.1 (isWord.stops longest)
      obtain ⟨later, lexed⟩ := lex_of_cut offset nonzero taken
      obtain ⟨clean, others⟩ := ih noZero.2 later
      rw [List.cons_append, lexed]
      exact ⟨clean, by rw [List.map_cons, others]⟩

theorem written_iff {text : Text} (noZero : 0 ∉ text) (offset : Nat) {words : List Lexeme} :
    Written text words ↔
      (lex offset text).problem = none ∧ (lex offset text).lexemes.map Prod.snd = words := by
  constructor
  · intro written
    exact written.lex noZero offset
  · rintro ⟨clean, rfl⟩
    exact written_of_lex noZero clean

/-! ## Zero bytes -/

theorem readString_unknown {escaped : UInt8} (unknown : unescape? escaped = none) (more : Text) :
    readString (92 :: escaped :: more) = .error (.invalidEscape escaped) := by
  rw [readString.eq_def]
  simp [unknown]

section Zero

variable (junk : Text)

theorem readString_append_zero (text : Text) (noZero : 0 ∉ text) :
    readString (text ++ 0 :: junk) =
      (readString text).map fun (contents, after) => (contents, after ++ 0 :: junk) := by
  cases text with
  | nil =>
      rw [List.nil_append, readString.eq_def, readString.eq_def]
      rfl
  | cons byte rest =>
      simp only [List.mem_cons, not_or] at noZero
      rw [List.cons_append]
      by_cases isQuote : byte = 34
      · rw [isQuote, readString.eq_def, readString.eq_def]
        rfl
      by_cases isBackslash : byte = 92
      · subst isBackslash
        cases rest with
        | nil =>
            rw [List.nil_append, readString_unknown rfl, readString.eq_def]
            rfl
        | cons escaped after =>
            simp only [List.mem_cons, not_or] at noZero
            rw [List.cons_append]
            cases known : unescape? escaped with
            | none =>
                rw [readString_unknown known, readString_unknown known]
                rfl
            | some decoded =>
                rw [readString_backslash known, readString_backslash known,
                  readString_append_zero after noZero.2.2]
                cases readString after <;> rfl
      · rw [readString_plain (Ne.symm noZero.1) isQuote isBackslash,
          readString_plain (Ne.symm noZero.1) isQuote isBackslash,
          readString_append_zero rest noZero.2]
        cases readString rest <;> rfl

omit junk in
theorem ite_map {α β : Type} {change : α → β} {test : Prop} [Decidable test]
    {first second : Except ReadError α} {changed changedToo : Except ReadError β}
    (here : changed = first.map change) (there : changedToo = second.map change) :
    (if test then changed else changedToo) = (if test then first else second).map change := by
  split
  · exact here
  · exact there

theorem cut_append_zero (first : UInt8) {rest : Text} (noZero : 0 ∉ rest) :
    cut first (rest ++ 0 :: junk) =
      (cut first rest).map fun result => { result with rest := result.rest ++ 0 :: junk } := by
  have signed : (rest ++ 0 :: junk).head?.any Text.isDigit = rest.head?.any Text.isDigit := by
    cases rest <;> rfl
  have digits : ∀ text : Text, cutDigits (text ++ 0 :: junk) =
      ((cutDigits text).1, (cutDigits text).2 ++ 0 :: junk) := fun text =>
    Segment.cutNumeral_append_stop (by decide) (by decide) text junk
  unfold cut
  rw [signed, digits, ← List.cons_append, digits, readString_append_zero junk rest noZero,
    Text.dropWhile_append_stop continuesComment (by decide),
    Text.takeWhile_append_stop isSymbolByte (by decide),
    Text.dropWhile_append_stop isSymbolByte (by decide)]
  refine ite_map rfl (ite_map rfl (ite_map rfl (ite_map rfl (ite_map ?string (ite_map ?ellipsis
    (ite_map rfl (ite_map rfl (ite_map rfl rfl))))))))
  case string => cases readString rest <;> rfl
  case ellipsis =>
    -- Neither a point nor what follows two of them is a zero byte.
    rcases rest with _ | ⟨second, _ | ⟨third, after⟩⟩
    · rfl
    · by_cases isPoint : second = 46
      · rw [isPoint]
        rfl
      · simp [isPoint, Except.map]
    · by_cases arePoints : second = 46 ∧ third = 46
      · rw [arePoints.1, arePoints.2]
        rfl
      · simp only [List.cons_append]
        split
        · next same =>
            cases same
            exact absurd ⟨rfl, rfl⟩ arePoints
        · split
          · next same =>
              cases same
              exact absurd ⟨rfl, rfl⟩ arePoints
          · rfl

theorem lex_append_zero (offset : Nat) {text : Text} (noZero : 0 ∉ text) :
    lex offset (text ++ 0 :: junk) = lex offset text := by
  induction size : text.length using Nat.strong_induction_on generalizing offset text with
  | _ size ih =>
      cases text with
      | nil => simp [lex]
      | cons first rest =>
          have nonzero : first ≠ 0 := fun zero => noZero (zero ▸ List.mem_cons_self)
          have both := cut_append_zero junk first (List.not_mem_of_not_mem_cons noZero)
          rw [List.cons_append]
          cases taken : cut first rest with
          | error problem =>
              rw [taken] at both
              rw [lex_of_error offset nonzero both, lex_of_error offset nonzero taken]
          | ok result =>
              rw [taken] at both
              have shorter := length_cut_le taken
              have noZeroRest : 0 ∉ result.rest := fun zero =>
                noZero ((suffix_of_cut taken).subset zero)
              have same := fun offset => ih _ (by rw [← size]; exact Nat.lt_succ_of_le shorter)
                offset noZeroRest rfl
              rw [lex_cons offset nonzero both, lex_cons offset nonzero taken]
              simp only [List.length_append, Nat.add_right_comm rest.length, Nat.add_sub_add_right,
                same]

end Zero

/-- The text before its first zero byte. -/
def beforeZero (text : Text) : Text :=
  text.takeWhile (· != 0)

theorem zero_not_mem_beforeZero (text : Text) : 0 ∉ beforeZero text := by
  intro zero
  have nonzero := List.mem_takeWhile_imp zero
  simp at nonzero

theorem lex_beforeZero (offset : Nat) (text : Text) :
    lex offset text = lex offset (beforeZero text) := by
  have whole : beforeZero text ++ text.dropWhile (· != 0) = text := List.takeWhile_append_dropWhile
  have stops : ∀ byte ∈ (text.dropWhile (· != 0)).head?, (byte != 0) = false := Text.stops_dropWhile
  conv_lhs => rw [← whole]
  cases rest : text.dropWhile (· != 0) with
  | nil => rw [List.append_nil]
  | cons byte junk =>
      rw [rest] at stops
      have isZero : byte = 0 := by simpa using stops byte rfl
      rw [isZero, lex_append_zero junk offset (zero_not_mem_beforeZero text)]

end Loxley.Datum
