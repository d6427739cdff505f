import Loxley.Proofs.Datum.ReadBack

/-!
# Reading by descent

Data can also be read with one word in view at a time and without a stack of open lists: a list is
read item by item until a closing parenthesis comes into view. A fault among the words is put aside
and looks like the end of the text until someone asks for it. The descent ends after a number of
rounds that the length of the text limits, with what building on a stack gives.
-/

set_option autoImplicit false

namespace Loxley.Datum

theorem length_lex_le (offset : Nat) (text : Text) :
    (lex offset text).lexemes.length ≤ text.length := by
  fun_induction lex offset text with
  | case1 => exact Nat.le_refl _
  | case2 => exact Nat.zero_le _
  | case3 => exact Nat.zero_le _
  | case4 offset first rest notZero result taken others nothing ih =>
      exact Nat.le_succ_of_le (Nat.le_trans ih (length_cut_le taken))
  | case5 offset first rest notZero result taken others lexeme isLexeme ih =>
      exact Nat.succ_le_succ (Nat.le_trans ih (length_cut_le taken))

/-- The word in view, if there is one, the text behind it, which starts at an offset, and the faults
put aside. -/
structure Reader where
  current : Option (Nat × Lexeme)
  offset : Nat
  rest : Text
  faults : List ReadError

namespace Reader

/-- Brings the first word of a text into view. -/
def ofText (faults : List ReadError) (offset : Nat) : Text → Reader
  | [] => { current := none, offset, rest := [], faults }
  | first :: rest =>
    if first == 0 then { current := none, offset, rest := first :: rest, faults }
    else
      match _taken : cut first rest with
      | .error problem => { current := none, offset, rest, faults := faults ++ [problem] }
      | .ok result =>
        let later := offset + (rest.length + 1 - result.rest.length)
        match result.lexeme with
        | none => ofText faults later result.rest
        | some lexeme =>
          { current := some (offset, lexeme), offset := later, rest := result.rest, faults }
termination_by text => text.length
decreasing_by
  exact Nat.lt_succ_of_le (length_cut_le _taken)

def advance (reader : Reader) : Reader :=
  ofText reader.faults reader.offset reader.rest

/-- The first fault that was put aside, or else another one. -/
def blame (reader : Reader) (otherwise : ReadError) : ReadError :=
  reader.faults.head?.getD otherwise

/-- Goes on with what was read, unless there is a fault or no round is left. -/
def andThen {α β : Type} (attempt : Option (Except ReadError α))
    (next : α → Option (Except ReadError β)) : Option (Except ReadError β) :=
  match attempt with
  | none => none
  | some (.error problem) => some (.error problem)
  | some (.ok value) => next value

mutual

/-- Reads the datum that starts with the word in view. Nothing if the rounds are used up. -/
def datum? : Nat → Nat × Lexeme → Reader → Option (Except ReadError (Datum × Reader))
  | 0, _, _ => none
  | _ + 1, (_, .atom datum), reader => some (.ok (datum, reader.advance))
  | _ + 1, (offset, .closing), reader => some (.error (reader.blame (.unexpectedClose offset)))
  | rounds + 1, (_, .opening), reader =>
    andThen (items? rounds reader.advance) fun (items, after) =>
      match after.current with
      | some (_, .closing) => some (.ok (.list items, after.advance))
      | _ => some (.error (after.blame .unclosedList))

/-- Reads items up to a closing parenthesis or the end. -/
def items? : Nat → Reader → Option (Except ReadError (List Datum × Reader))
  | 0, _ => none
  | rounds + 1, reader =>
    match reader.current with
    | none | some (_, .closing) => some (.ok ([], reader))
    | some word =>
      andThen (datum? rounds word reader) fun (datum, after) =>
        andThen (items? rounds after) fun (items, final) => some (.ok (datum :: items, final))

end

/-- Reads data up to the end. A fault that was put aside counts there. -/
def data? : Nat → Reader → Option (Except ReadError (List Datum))
  | 0, _ => none
  | rounds + 1, reader =>
    match reader.current with
    | none =>
      match reader.faults with
      | [] => some (.ok [])
      | fault :: _ => some (.error fault)
    | some word =>
      andThen (datum? rounds word reader) fun (datum, after) =>
        andThen (data? rounds after) fun data => some (.ok (datum :: data))

def readAll? (rounds : Nat) (text : Text) : Option (Except ReadError (List Datum)) :=
  data? rounds (ofText [] 0 text)

/-! ## What is still to be read -/

/-- The words from the one in view on, up to the first fault among them. -/
def lexing (reader : Reader) : Lexing :=
  match reader.current with
  | none => { lexemes := [], problem := reader.faults.head? }
  | some word =>
    { lex reader.offset reader.rest with
      lexemes := word :: (lex reader.offset reader.rest).lexemes }

/-- A fault is put aside only at the end. -/
def Tidy (reader : Reader) : Prop :=
  ∀ word, reader.current = some word → reader.faults = []

theorem lexing_of_none {reader : Reader} (atEnd : reader.current = none) :
    reader.lexing = { lexemes := [], problem := reader.faults.head? } := by
  rw [lexing, atEnd]

theorem lexing_ofText (offset : Nat) (text : Text) :
    (ofText [] offset text).lexing = lex offset text ∧ (ofText [] offset text).Tidy := by
  fun_induction ofText [] offset text with
  | case1 offset =>
      rw [lex]
      exact ⟨rfl, by simp [Tidy]⟩
  | case2 offset first rest isZero =>
      rw [lex, if_pos isZero]
      exact ⟨rfl, by simp [Tidy]⟩
  | case3 offset first rest notZero problem failed =>
      rw [lex_of_error offset (by simpa using notZero) failed]
      exact ⟨rfl, by simp [Tidy]⟩
  | case4 offset first rest notZero result taken later nothing ih =>
      rw [lex_cons offset (by simpa using notZero) taken, nothing]
      exact ih
  | case5 offset first rest notZero result taken later lexeme isLexeme =>
      rw [lex_cons offset (by simpa using notZero) taken, isLexeme]
      exact ⟨rfl, by simp [Tidy]⟩

theorem Tidy.advance {reader : Reader} (tidy : reader.Tidy) {word : Nat × Lexeme}
    (inView : reader.current = some word) :
    reader.advance.Tidy ∧ reader.lexing.problem = reader.advance.lexing.problem ∧
      reader.lexing.lexemes = word :: reader.advance.lexing.lexemes := by
  obtain ⟨same, tidyToo⟩ := lexing_ofText reader.offset reader.rest
  rw [Reader.advance, tidy word inView]
  refine ⟨tidyToo, ?_, ?_⟩
  · rw [same, lexing, inView]
  · rw [same, lexing, inView]

/-! ## The stack that a descent stands for -/

/-- Building goes on from a reader with some more data in the innermost list, and comes to another
reader. -/
structure Continues (reader : Reader) (data : List Datum) (after : Reader) : Prop where
  tidy : after.Tidy
  problem : reader.lexing.problem = after.lexing.problem
  shorter : after.lexing.lexemes.length + data.length ≤ reader.lexing.lexemes.length
  build (items : List Datum) (outer : List (List Datum)) :
    build reader.lexing.problem (items :: outer) reader.lexing.lexemes =
      build after.lexing.problem ((data.reverse ++ items) :: outer) after.lexing.lexemes

/-- Building fails from a reader on, however many lists are open. -/
def Fails (reader : Reader) (problem : ReadError) : Prop :=
  ∀ items outer,
    build reader.lexing.problem (items :: outer) reader.lexing.lexemes = .error problem

/-- What a part of the descent that reads data finds is what building does. -/
inductive Agrees (reader : Reader) : Except ReadError (List Datum × Reader) → Prop
  | ok {data : List Datum} {after : Reader} (continues : reader.Continues data after) :
      Agrees reader (.ok (data, after))
  | error {problem : ReadError} (fails : reader.Fails problem) : Agrees reader (.error problem)

theorem Continues.refl {reader : Reader} (tidy : reader.Tidy) : reader.Continues [] reader where
  tidy := tidy
  problem := rfl
  shorter := Nat.le_refl _
  build := fun _ _ => rfl

theorem Continues.trans {reader middle after : Reader} {data more : List Datum}
    (first : reader.Continues data middle) (second : middle.Continues more after) :
    reader.Continues (data ++ more) after where
  tidy := second.tidy
  problem := first.problem.trans second.problem
  shorter := by
    have := first.shorter
    have := second.shorter
    simp only [List.length_append]
    omega
  build := fun items outer => by
    rw [first.build, second.build, List.reverse_append, List.append_assoc]

theorem Continues.fails {reader middle : Reader} {data : List Datum} {problem : ReadError}
    (first : reader.Continues data middle) (fails : middle.Fails problem) :
    reader.Fails problem :=
  fun items outer => (first.build items outer).trans (fails _ outer)

theorem Tidy.continues_atom {reader : Reader} (tidy : reader.Tidy) {offset : Nat} {datum : Datum}
    (inView : reader.current = some (offset, .atom datum)) :
    reader.Continues [datum] reader.advance := by
  obtain ⟨tidyToo, problem, words⟩ := tidy.advance inView
  refine ⟨tidyToo, problem, by rw [words]; exact Nat.le_refl _, fun items outer => ?_⟩
  rw [words, problem]
  rfl

theorem Tidy.continues_list {reader after : Reader} (tidy : reader.Tidy) {offset place : Nat}
    {items : List Datum} (inView : reader.current = some (offset, .opening))
    (inside : reader.advance.Continues items after)
    (closes : after.current = some (place, .closing)) :
    reader.Continues [.list items] after.advance := by
  obtain ⟨_, problem, words⟩ := tidy.advance inView
  obtain ⟨tidyToo, problemAfter, wordsAfter⟩ := inside.tidy.advance closes
  refine ⟨tidyToo, ?_, ?_, fun others outer => ?_⟩
  · rw [problem, inside.problem, problemAfter]
  · have := inside.shorter
    rw [words]
    rw [wordsAfter] at this
    simp only [List.length_cons, List.length_nil] at this ⊢
    omega
  · have := inside.build [] (others :: outer)
    rw [words, problem]
    show build _ ([] :: others :: outer) _ = _
    rw [this, wordsAfter, problemAfter]
    show build _ (addTo (.list (items.reverse ++ []).reverse) (others :: outer)) _ = _
    simp [addTo]

theorem Tidy.fails_unclosed {reader after : Reader} (tidy : reader.Tidy) {offset : Nat}
    {items : List Datum} (inView : reader.current = some (offset, .opening))
    (inside : reader.advance.Continues items after) (atEnd : after.current = none) :
    reader.Fails (after.blame .unclosedList) := by
  intro others outer
  obtain ⟨_, problem, words⟩ := tidy.advance inView
  rw [words, problem]
  show build _ ([] :: others :: outer) _ = _
  rw [inside.build, lexing_of_none atEnd, blame]
  cases after.faults with
  | nil => rfl
  | cons fault _ => rfl

def AtStop (reader : Reader) : Prop :=
  reader.current = none ∨ ∃ place, reader.current = some (place, .closing)

/-- The rounds that a descent needs for the words in front of it. -/
def need (reader : Reader) : Nat := 2 * reader.lexing.lexemes.length

theorem Continues.need_le {reader after : Reader} {datum : Datum}
    (continues : reader.Continues [datum] after) : after.need + 2 ≤ reader.need := by
  have := continues.shorter
  rw [List.length_singleton] at this
  rw [need, need]
  omega

theorem items?_of_atStop (rounds : Nat) {reader : Reader} (stops : reader.AtStop) :
    items? (rounds + 1) reader = some (.ok ([], reader)) := by
  rcases stops with atEnd | ⟨place, closes⟩
  · rw [items?, atEnd]
  · rw [items?, closes]

theorem items?_of_not_atStop (rounds : Nat) {reader : Reader} (goesOn : ¬ reader.AtStop) :
    ∃ word, reader.current = some word ∧ word.2 ≠ .closing ∧
      items? (rounds + 1) reader =
        andThen (datum? rounds word reader) fun (datum, after) =>
          andThen (items? rounds after) fun (items, final) =>
            some (.ok (datum :: items, final)) := by
  cases inView : reader.current with
  | none => exact absurd (.inl inView) goesOn
  | some word =>
      have notClosing : word.2 ≠ .closing :=
        fun closes => goesOn (.inr ⟨word.1, by rw [inView, ← closes]⟩)
      refine ⟨word, rfl, notClosing, ?_⟩
      rw [items?, inView]
      obtain ⟨place, lexeme⟩ := word
      cases lexeme with
      | closing => exact absurd rfl notClosing
      | opening => rfl
      | atom _ => rfl

mutual

/-- Any number of rounds that suffices gives a result, and it is the one of building. -/
theorem datum?_agrees (rounds : Nat) {word : Nat × Lexeme} {reader : Reader} (tidy : reader.Tidy)
    (inView : reader.current = some word) (notClosing : word.2 ≠ .closing)
    (enough : reader.need ≤ rounds) :
    ∃ result, datum? rounds word reader = some result ∧
      reader.Agrees (result.map fun read => ([read.1], read.2)) := by
  obtain ⟨tidyToo, problem, words⟩ := tidy.advance inView
  obtain ⟨offset, lexeme⟩ := word
  -- The two rounds for the word are the one for this datum and the one that ends a run of items.
  rw [need, words, List.length_cons] at enough
  cases rounds with
  | zero => omega
  | succ rounds =>
      cases lexeme with
      | atom datum => exact ⟨_, rfl, .ok (tidy.continues_atom inView)⟩
      | closing => exact absurd rfl notClosing
      | opening =>
          obtain ⟨result, isResult, agrees, stops⟩ :=
            items?_agrees rounds tidyToo (by rw [need]; omega)
          rw [datum?, isResult]
          cases agrees with
          | error fails =>
              refine ⟨_, rfl, .error fun items outer => ?_⟩
              rw [words, problem]
              exact fails [] (items :: outer)
          | ok inside =>
              rcases stops _ _ rfl with atEnd | ⟨place, closes⟩
              · simp only [andThen, atEnd]
                exact ⟨_, rfl, .error (tidy.fails_unclosed inView inside atEnd)⟩
              · simp only [andThen, closes]
                exact ⟨_, rfl, .ok (tidy.continues_list inView inside closes)⟩

theorem items?_agrees (rounds : Nat) {reader : Reader} (tidy : reader.Tidy)
    (enough : reader.need < rounds) :
    ∃ result, items? rounds reader = some result ∧ reader.Agrees result ∧
      ∀ items after, result = .ok (items, after) → after.AtStop := by
  cases rounds with
  | zero => omega
  | succ rounds =>
      by_cases stops : reader.AtStop
      · refine ⟨.ok ([], reader), items?_of_atStop rounds stops, .ok (.refl tidy), ?_⟩
        rintro _ _ ⟨⟩
        exact stops
      · obtain ⟨word, inView, notClosing, unfolded⟩ := items?_of_not_atStop rounds stops
        obtain ⟨result, isResult, agrees⟩ :=
          datum?_agrees rounds tidy inView notClosing (by omega)
        rw [unfolded, isResult]
        cases result with
        | error problem =>
            cases agrees with
            | error fails => exact ⟨_, rfl, .error fails, by simp⟩
        | ok read =>
            obtain ⟨datum, after⟩ := read
            cases agrees with
            | ok first =>
                have := first.need_le
                obtain ⟨result, isResult, agrees, stops⟩ :=
                  items?_agrees rounds first.tidy (by omega)
                simp only [andThen, isResult]
                cases agrees with
                | error fails => exact ⟨_, rfl, .error (first.fails fails), by simp⟩
                | ok others =>
                    refine ⟨_, rfl, .ok (first.trans others), ?_⟩
                    rintro _ _ ⟨⟩
                    exact stops _ _ rfl

end

/-- At the top, where no list is open, a closing parenthesis is a fault. -/
theorem data?_agrees (rounds : Nat) {reader : Reader} (tidy : reader.Tidy)
    (enough : reader.need < rounds) :
    ∃ result, data? rounds reader = some result ∧
      ∀ items, build reader.lexing.problem [items] reader.lexing.lexemes =
        result.map (items.reverse ++ ·) := by
  induction rounds generalizing reader with
  | zero => omega
  | succ rounds ih =>
      cases inView : reader.current with
      | none =>
          rw [lexing_of_none inView]
          cases faults : reader.faults with
          | nil =>
              refine ⟨.ok [], by rw [data?, inView, faults], fun items => ?_⟩
              simp [build, Except.map]
          | cons fault _ => exact ⟨.error fault, by rw [data?, inView, faults], fun items => rfl⟩
      | some word =>
          simp only [data?, inView]
          by_cases closes : word.2 = .closing
          · obtain ⟨offset, lexeme⟩ := word
            subst closes
            obtain ⟨_, problem, words⟩ := tidy.advance inView
            rw [need, words, List.length_cons] at enough
            obtain ⟨fewer, rfl⟩ : ∃ fewer, rounds = fewer + 1 := ⟨rounds - 1, by omega⟩
            refine ⟨.error (.unexpectedClose offset), ?_, fun items => ?_⟩
            · simp [datum?, andThen, blame, tidy _ inView]
            · rw [words]
              rfl
          · obtain ⟨result, isResult, agrees⟩ := datum?_agrees rounds tidy inView closes (by omega)
            rw [isResult]
            cases result with
            | error problem =>
                cases agrees with
                | error fails => exact ⟨_, rfl, fun items => fails items []⟩
            | ok read =>
                obtain ⟨datum, after⟩ := read
                cases agrees with
                | ok first =>
                    have := first.need_le
                    obtain ⟨result, isResult, same⟩ := ih first.tidy (by omega)
                    simp only [andThen, isResult]
                    cases result with
                    | error problem =>
                        exact ⟨_, rfl, fun items => (first.build items []).trans (same _)⟩
                    | ok data =>
                        refine ⟨_, rfl, fun items => (first.build items []).trans ?_⟩
                        rw [same]
                        simp [Except.map]

/-- The descent ends for every text, and reads what the stack of open lists reads. -/
theorem readAll?_eq_some {rounds : Nat} {text : Text} (enough : 2 * text.length < rounds) :
    readAll? rounds text = some (readAll text) := by
  obtain ⟨same, tidy⟩ := lexing_ofText 0 text
  have short := length_lex_le 0 text
  obtain ⟨result, isResult, builds⟩ := data?_agrees rounds tidy (by rw [need, same]; omega)
  rw [readAll?, isResult, readAll, ← same, builds]
  cases result <;> rfl

end Reader

end Loxley.Datum
