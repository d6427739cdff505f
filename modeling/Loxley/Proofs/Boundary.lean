import Loxley.Proofs.Parser.Parallel
import Loxley.Proofs.Production.Agreement

/-!
# Statement boundaries

What the parser makes of a program does not depend on where it is cut, if the cut is between two
statements: after a part that reads without a diagnostic, or after a semicolon that ends a simple
part, however faulty that part is. What is wrong with one side of the cut stays there.
-/

set_option autoImplicit false

namespace Loxley

namespace Parser

/-! ## Enough fuel -/

/-- The same stream twice. -/
theorem aligned_eq : Aligned Eq Eq where
  peek same := same ▸ rfl
  head same := same ▸ rfl
  next same _ := by
    cases same
    rfl
  ends same _ := by
    cases same
    rfl
  whole _ _ _ := rfl
  noElse := .inl
  synchronized same := .inl (same ▸ rfl)

variable {fuel more : Nat}

theorem program_tracks (enough : fuel ≤ more) : Tracks Eq Eq Eq (program fuel) (program more) := by
  induction fuel generalizing more with
  | zero => exact fun _ _ _ => .exhausted
  | succ fuel ih =>
      obtain ⟨more, rfl⟩ := Nat.exists_eq_add_of_lt enough
      have below := Nat.le_add_right fuel more
      refine aligned_eq.atEnd.bind fun isEnd => ?_
      cases isEnd with
      | true => exact tracks_pure
      | false =>
          have declared := (aligned_eq.tracksStmt below).declaration
          simp only [or_self] at declared
          exact declared.bind fun first => (ih below).bind fun others => tracks_pure

/-- A program that was read with some fuel is read in the same way with more of it. -/
theorem program_of_le {cursor stopped : Cursor} {value : List (Stmt Unit)}
    {diagnostics : List Diagnostic} (enough : fuel ≤ more)
    (parsed : program fuel cursor = .ok value diagnostics stopped) :
    program more cursor = .ok value diagnostics stopped := by
  have same := program_tracks enough cursor cursor rfl
  rw [parsed] at same
  generalize program more cursor = reply at same
  cases same with
  | ok here => rw [here]

end Parser

namespace Cursor

open Loxley.Parser

variable {cursor stopped : Cursor} {fuel : Nat}

theorem program_of_ok {value : List (Stmt Unit)} {diagnostics : List Diagnostic}
    (parsed : Parser.program fuel cursor = .ok value diagnostics stopped) :
    cursor.program = { value, diagnostics } := by
  have enough : 20 * cursor.rest.length + 13 ≤ fuelFor cursor := by
    rw [fuelFor]
    omega
  obtain ⟨others, found, last, read, _⟩ := program_eq_ok enough (Nat.le_refl _)
  rw [Cursor.program, read]
  rcases Nat.le_total fuel (fuelFor cursor) with less | less
  · cases read.symm.trans (program_of_le less parsed)
    rfl
  · cases parsed.symm.trans (program_of_le less read)
    rfl

theorem program_of_rest_eq_nil (isEnd : cursor.rest = []) :
    cursor.program = { value := [], diagnostics := [] } := by
  refine @program_of_ok cursor cursor 1 _ _ ?_
  simp [Parser.program, bind_apply, atEnd, isEnd]

/-- A program is its first declaration and then the program after it. -/
theorem program_of_declaration {first : Option (Stmt Unit)} {diagnostics : List Diagnostic}
    (continues : cursor.rest ≠ [])
    (declared : Parser.declaration fuel cursor = .ok first diagnostics stopped) :
    cursor.program =
      { value := first.toList ++ stopped.program.value
        diagnostics := diagnostics ++ stopped.program.diagnostics } := by
  have enough : 20 * stopped.rest.length + 13 ≤ fuelFor stopped := by
    rw [fuelFor]
    omega
  obtain ⟨others, found, last, read, _⟩ := program_eq_ok enough (Nat.le_refl _)
  rw [program_of_ok read]
  -- Both parts are read with the larger amount of fuel.
  have declaredToo := (aligned_eq.tracksStmt (Nat.le_max_left fuel (fuelFor stopped))).declaration
    cursor cursor rfl
  rw [declared] at declaredToo
  have readToo := program_of_le (Nat.le_max_right fuel (fuelFor stopped)) read
  generalize max fuel (fuelFor stopped) = larger at declaredToo readToo
  refine @program_of_ok cursor last (larger + 1) _ _ ?_
  have goesOn : cursor.rest.isEmpty = false := by simpa using continues
  cases answer : Parser.declaration larger cursor with
  | failed | exhausted =>
      rw [answer] at declaredToo
      cases declaredToo
  | ok value more place =>
      rw [answer] at declaredToo
      cases declaredToo with
      | ok here =>
          obtain rfl : stopped = place := by simpa using here
          simp [Parser.program, bind_apply, atEnd, goesOn, answer, readToo, Reply.after]

end Cursor

/-! ## After whole declarations -/

/-- Whatever follows some declarations is read as if it stood alone, unless it is an `else`. -/
theorem Grammar.Declarations.program_append {tokens more : List Token} {stmts : List (Stmt Unit)}
    (derived : Grammar.Declarations tokens stmts) (noElse : Parser.NoElse true more)
    (finish : Token) :
    Cursor.program ⟨tokens ++ more, finish⟩ =
      { value := stmts ++ (Cursor.program ⟨more, finish⟩).value
        diagnostics := (Cursor.program ⟨more, finish⟩).diagnostics } := by
  induction stmts generalizing tokens with
  | nil =>
      cases derived
      rfl
  | cons stmt stmts ih =>
      cases derived with
      | @cons first rest _ _ declared others =>
          have noElseRest := Parser.AcceptsStmt.noElse_declarations others noElse
          have read := @(Parser.acceptsStmt (20 * first.length + 12)).declaration first stmt
            (rest ++ more) finish declared noElseRest (Nat.le_refl _)
          obtain ⟨head, tail, rfl, _⟩ := declared.starts
          rw [List.append_assoc, Cursor.program_of_declaration (by simp) read, ih others]
          rfl

/-! ## After a semicolon -/

namespace Parser

/-- Tokens without semicolons, braces and `for` loops. -/
def Simple (tokens : List Token) : Prop :=
  ∀ token ∈ tokens, token.kind ∉
    [.symbol .semicolon, .symbol .leftBrace, .symbol .rightBrace, .keyword .forWord]

theorem Simple.notEnd {token : Token} {tokens : List Token} (simple : Simple (token :: tokens)) :
    token.kind ≠ .symbol .semicolon := by
  intro isEnd
  exact simple token List.mem_cons_self (by simp [isEnd])

theorem Simple.tail {token : Token} {tokens : List Token} (simple : Simple (token :: tokens)) :
    Simple tokens :=
  fun other member => simple other (List.mem_cons_of_mem token member)

/-- Positions before a semicolon that ends the first stream and is followed by more in the second. -/
inductive Before (semicolon finish last : Token) (more : List Token) : Cursor → Cursor → Prop
  | intro (segment : List Token) (simple : Simple segment) :
      Before semicolon finish last more ⟨segment ++ [semicolon], finish⟩
        ⟨segment ++ semicolon :: more, last⟩

/-- The positions right after that semicolon. -/
inductive After (finish last : Token) (more : List Token) : Cursor → Cursor → Prop
  | intro : After finish last more ⟨[], finish⟩ ⟨more, last⟩

theorem skipPast_semicolon {semicolon : Token} (isEnd : semicolon.kind = .symbol .semicolon)
    (tokens : List Token) : skipPast semicolon tokens = tokens := by
  cases tokens with
  | nil => rfl
  | cons token rest => simp [skipPast, isEnd]

section Semicolon

variable {semicolon finish last : Token} {more : List Token}

/-- Skipping stops in the simple part or right after the semicolon, and never beyond it. -/
theorem skipPast_before (isEnd : semicolon.kind = .symbol .semicolon) {skipped : Token}
    (goesOn : skipped.kind ≠ .symbol .semicolon) {segment : List Token} (simple : Simple segment) :
    let stopped : Cursor := ⟨skipPast skipped (segment ++ [semicolon]), finish⟩
    let place : Cursor := ⟨skipPast skipped (segment ++ semicolon :: more), last⟩
    Before semicolon finish last more stopped place ∨ After finish last more stopped place := by
  induction segment generalizing skipped with
  | nil =>
      have notStart : startsStatement semicolon.kind = false := by
        rw [isEnd]
        rfl
      simp only [List.nil_append, skipPast, goesOn, notStart, decide_false, Bool.or_self]
      rw [skipPast_semicolon isEnd]
      exact .inr .intro
  | cons token segment ih =>
      simp only [List.cons_append, skipPast, goesOn, decide_false, Bool.false_or]
      cases startsStatement token.kind with
      | true => exact .inl (.intro _ simple)
      | false => exact ih simple.notEnd simple.tail

theorem aligned_before (isEnd : semicolon.kind = .symbol .semicolon) (noElse : NoElse true more) :
    Aligned (Before semicolon finish last more) (After finish last more) where
  peek here := by
    obtain ⟨segment, _⟩ := here
    cases segment <;> rfl
  head here := by
    obtain ⟨segment, _⟩ := here
    cases segment <;> rfl
  next {token _ _ rest others} here goesOn := by
    generalize first : (⟨token :: rest, _⟩ : Cursor) = cursor at here
    generalize second : (⟨token :: others, _⟩ : Cursor) = place at here
    obtain ⟨segment, simple⟩ := here
    cases segment with
    | nil =>
        cases first
        exact absurd isEnd goesOn
    | cons token segment =>
        cases first
        cases second
        exact .intro _ simple.tail
  ends {token _ _ rest others} here ends := by
    generalize first : (⟨token :: rest, _⟩ : Cursor) = cursor at here
    generalize second : (⟨token :: others, _⟩ : Cursor) = place at here
    obtain ⟨segment, simple⟩ := here
    cases segment with
    | nil =>
        cases first
        cases second
        exact .intro
    | cons token segment =>
        cases first
        exact absurd ends simple.notEnd
  whole {_ _ token} here atHead isOpening := by
    obtain ⟨segment, simple⟩ := here
    cases segment with
    | nil =>
        cases Option.some.inj atHead
        rw [isEnd] at isOpening
        simp at isOpening
    | cons head segment =>
        cases Option.some.inj atHead
        have kinds := simple token List.mem_cons_self
        rcases isOpening with isOpening | isOpening <;> simp [isOpening] at kinds
  noElse here := by
    cases here
    exact .inr ⟨by simp, noElse rfl⟩
  synchronized here := by
    obtain ⟨segment, simple⟩ := here
    cases segment with
    | nil =>
        simp only [List.nil_append, synchronize, skipPast_semicolon isEnd]
        exact .inr .intro
    | cons token segment =>
        exact skipPast_before isEnd simple.notEnd simple.tail

/-- However often the parser gives up before the semicolon, it goes on right after it. -/
theorem Before.program_eq (isEnd : semicolon.kind = .symbol .semicolon) (noElse : NoElse true more)
    {cursor place : Cursor} (here : Before semicolon finish last more cursor place) :
    place.program =
      { value := cursor.program.value ++ (Cursor.program ⟨more, last⟩).value
        diagnostics :=
          cursor.program.diagnostics ++ (Cursor.program ⟨more, last⟩).diagnostics } := by
  -- Every declaration takes a token, so fewer and fewer are left before the semicolon.
  induction length : cursor.rest.length using Nat.strongRecOn generalizing cursor place with
  | ind count ih =>
      obtain ⟨segment, simple⟩ := id here
      have continues : segment ++ [semicolon] ≠ [] := by simp
      have enough := Nat.le_refl (20 * (segment ++ [semicolon]).length + 12)
      obtain ⟨first, diagnostics, stopped, declared, _, shorter⟩ :=
        (adequateStmt _).declaration _ enough ⟨segment ++ [semicolon], finish⟩ (Nat.le_refl _)
          continues
      have same := ((aligned_before isEnd noElse).tracksStmt enough).declaration _ _ here
      rw [declared] at same
      generalize answer : declaration _ (Cursor.mk (segment ++ semicolon :: more) last) = reply
        at same
      cases same with
      | @ok _ _ _ place reached =>
          rw [Cursor.program_of_declaration continues declared,
            Cursor.program_of_declaration (by simp) answer]
          rcases reached with inside | past
          · rw [ih _ (length ▸ shorter) inside rfl]
            simp
          · cases past
            rw [@Cursor.program_of_rest_eq_nil ⟨[], finish⟩ rfl]
            simp

end Semicolon

end Parser

/--
A program that is cut between two statements is read as its two parts are, one after the other:
its statements and its diagnostics are those of the first part followed by those of the second.
-/
theorem Cursor.program_append_at_boundary {first second : List Token} {middle finish : Token}
    (innerFirst : ∀ word ∈ first, word.kind ≠ .endOfFile)
    (innerSecond : ∀ word ∈ second, word.kind ≠ .endOfFile)
    (middleEnds : middle.kind = .endOfFile) (finishEnds : finish.kind = .endOfFile)
    (noElse : ∀ token ∈ second.head?, token.kind ≠ .keyword .elseWord)
    (boundary :
      (∃ stmts, (Cursor.ofTokens? (first ++ [middle])).map Cursor.program =
        some { value := stmts, diagnostics := [] }) ∨
      ∃ segment semicolon, first = segment ++ [semicolon] ∧
        semicolon.kind = .symbol .semicolon ∧ Parser.Simple segment) :
    ∃ one two,
      (Cursor.ofTokens? (first ++ [middle])).map Cursor.program = some one ∧
      (Cursor.ofTokens? (second ++ [finish])).map Cursor.program = some two ∧
      (Cursor.ofTokens? (first ++ second ++ [finish])).map Cursor.program =
        some { value := one.value ++ two.value
               diagnostics := one.diagnostics ++ two.diagnostics } := by
  have innerBoth : ∀ word ∈ first ++ second, word.kind ≠ .endOfFile := fun word member =>
    (List.mem_append.mp member).elim (innerFirst word) (innerSecond word)
  rw [Cursor.ofTokens?_append middleEnds innerFirst] at boundary ⊢
  rw [Cursor.ofTokens?_append finishEnds innerSecond, Cursor.ofTokens?_append finishEnds innerBoth]
  refine ⟨_, _, rfl, rfl, congrArg some ?_⟩
  rcases boundary with ⟨stmts, read⟩ | ⟨segment, semicolon, rfl, isEnd, simple⟩
  · have alone := Option.some.inj read
    have derived := (Cursor.program_eq_iff _ _).mp alone
    rw [alone]
    exact derived.program_append (fun _ => noElse) finish
  · rw [List.append_assoc]
    exact (Parser.Before.intro segment simple).program_eq isEnd fun _ => noElse

/-- `var = 1 print a`, in which the parser gives up once and goes on at `print`. -/
def namelessVariable : List Token :=
  [.word (.keyword .varWord) "var", .word (.symbol .equal) "=", .word .number "1",
    .word (.keyword .printWord) "print", .word .identifier "a"]

/-- `) ; b ;`, in which the parser gives up at once and goes on after the semicolon. -/
def strayParenthesis : List Token :=
  [.word (.symbol .rightParen) ")", .word (.symbol .semicolon) ";", .word .identifier "b",
    .word (.symbol .semicolon) ";"]

theorem Cursor.namelessVariable_append_strayParenthesis :
    (∀ word ∈ namelessVariable ++ [.word (.symbol .semicolon) ";"], word.kind ≠ .endOfFile) ∧
    (∀ word ∈ strayParenthesis, word.kind ≠ .endOfFile) ∧ Parser.Simple namelessVariable ∧
    ∃ one two,
      (Cursor.ofTokens? ((namelessVariable ++ [.word (.symbol .semicolon) ";"]) ++
        [.word .endOfFile ""])).map Cursor.program = some one ∧
      (Cursor.ofTokens? (strayParenthesis ++ [.word .endOfFile ""])).map Cursor.program =
        some two ∧
      (Cursor.ofTokens? ((namelessVariable ++ [.word (.symbol .semicolon) ";"]) ++
        strayParenthesis ++ [.word .endOfFile ""])).map Cursor.program =
        some { value := one.value ++ two.value
               diagnostics := one.diagnostics ++ two.diagnostics } ∧
      one.value.length = 1 ∧ one.diagnostics.length = 1 ∧ two.value.length = 1 ∧
      two.diagnostics.length = 1 := by
  have innerFirst : ∀ word ∈ namelessVariable ++ [.word (.symbol .semicolon) ";"],
      word.kind ≠ .endOfFile := by decide
  have innerSecond : ∀ word ∈ strayParenthesis, word.kind ≠ .endOfFile := by decide
  have simple : Parser.Simple namelessVariable := by
    unfold Parser.Simple
    decide
  refine ⟨innerFirst, innerSecond, simple, ?_⟩
  obtain ⟨one, two, readOne, readTwo, readBoth⟩ :=
    @Cursor.program_append_at_boundary _ _ (.word .endOfFile "") (.word .endOfFile "")
      innerFirst innerSecond rfl rfl (by decide) (.inr ⟨_, _, rfl, rfl, simple⟩)
  refine ⟨one, two, readOne, readTwo, readBoth, ?_⟩
  cases Option.some.inj readOne
  cases Option.some.inj readTwo
  decide +kernel

end Loxley
