import Loxley.Proofs.Moved.Run
import Loxley.Proofs.Words

/-!
# Sources joined by a newline

Two sources without diagnostics, joined by a newline, read as the statements of the first followed
by those of the second, with the lines of the second counted on. So it makes no difference whether
they are run one after the other or as a whole.
-/

set_option autoImplicit false

namespace Loxley

namespace Stmt

theorem programFaults_append (first second : List (Stmt Unit)) :
    programFaults (first ++ second) = programFaults first ++ programFaults second := by
  simp only [programFaults]
  induction first with
  | nil => rfl
  | cons stmt rest ih => simp [faultsAll, stmt.extend_nil, ih]

theorem resolveProgram_append (first second : List (Stmt Unit)) :
    resolveProgram (first ++ second) = resolveProgram first ++ resolveProgram second := by
  simp only [resolveProgram]
  induction first with
  | nil => rfl
  | cons stmt rest ih => simp [resolveAll, stmt.extend_nil, ih]

theorem programFaults_downAll (lines : Nat) (program : List (Stmt Unit)) :
    programFaults (downAll lines program) = (programFaults program).map (Diagnostic.down lines) :=
  faultsAll_downAll lines false [] program

theorem resolveProgram_downAll (lines : Nat) (program : List (Stmt Unit)) :
    resolveProgram (downAll lines program) = downAll lines (resolveProgram program) :=
  resolveAll_downAll lines [] program

theorem tokensAll_resolveProgram (program : List (Stmt Unit)) :
    tokensAll (resolveProgram program) = tokensAll program :=
  tokensAll_resolveAll [] program

end Stmt

theorem Source.Accepts.join {first second : Text} {program others : List (Stmt Unit)}
    (here : Source.Accepts first program) (there : Source.Accepts second others) :
    Source.Accepts (first ++ Text.newline :: second)
      (program ++ Stmt.downAll (first.newlines + 1) others) := by
  obtain ⟨words, isFirst, derived⟩ := (Source.program_eq_iff first program).mp here.parsed
  obtain ⟨more, isSecond, derivedLater⟩ := (Source.program_eq_iff second others).mp there.parsed
  refine ⟨(Source.program_eq_iff _ _).mpr ⟨_, isFirst.join isSecond, ?_⟩, ?_⟩
  · exact derived.append derivedLater.down
  · rw [Stmt.programFaults_append, Stmt.programFaults_downAll, here.faultless, there.faultless]
    rfl

theorem Machine.interpret_append (fuel : Nat) (first second : List ResolvedStmt)
    (machine : Machine) :
    interpret fuel (first ++ second) machine =
      (interpret fuel first machine).andThen fun _ machine => interpret fuel second machine := by
  induction first generalizing machine with
  | nil => rfl
  | cons stmt rest ih =>
      simp only [List.cons_append, interpret, ih]
      cases execute fuel stmt machine <;> rfl

/-- Earlier code stays where it is, and later code stands so many lines further down. -/
def Moves.later (earlier later : Token → Prop) (lines : Nat) : Moves := fun moved token =>
  moved = 0 ∧ earlier token ∨ moved = lines ∧ later token

/-- Sessions that show the same, up to the lines of code. -/
structure Session.Moved (moves : Moves) (session other : Session) : Prop where
  output : other.machine.output = session.machine.output
  diagnostics : other.diagnostics = session.diagnostics
  runtimeErrors :
    List.Forall₂ (RuntimeError.Moved moves) session.runtimeErrors other.runtimeErrors
  hadError : other.hadError = session.hadError
  hadRuntimeError : other.hadRuntimeError = session.hadRuntimeError
  globals : List.Forall₂ (Bound (Value.Moved moves)) session.machine.globalValues
    other.machine.globalValues

/-- Actions that end in the same way, up to the lines of code. -/
inductive Outcome.Moved (moves : Moves) : Outcome Unit → Outcome Unit → Prop
  | done {session other : Session} (moved : Session.Moved moves session other) :
      Moved moves (.done () session) (.done () other)
  | fault {reason : Fault} {session other : Session} (moved : Session.Moved moves session other) :
      Moved moves (.fault reason session) (.fault reason other)
  | exhausted : Moved moves .exhausted .exhausted

namespace Session

variable {session other : Session} {fuel : Nat} {moves : Moves}

/--
After a source that ran without an error, the joined source goes on with the second one, on a
machine that is the same but for the distances of the programs.
-/
theorem run_append {first second : Text} {program others : List (Stmt Unit)} {middle : Session}
    (clean : session.hadError = false) (here : Source.Accepts first program)
    (there : Source.Accepts second others) (ended : session.run fuel first = .done () middle)
    (calm : middle.runtimeErrors.length ≤ session.runtimeErrors.length)
    (machines : Machine.Moved moves session.machine session.machine)
    (stays : moves.All 0 (Stmt.tokensAll program)) :
    ∃ between, Machine.Moved moves middle.machine between.machine ∧
      Resembles { middle with machine := between.machine } between ∧
      session.run fuel (first ++ Text.newline :: second) =
        between.execute fuel (Stmt.downAll (first.newlines + 1) (Stmt.resolveProgram others)) := by
  obtain ⟨interpreted, record⟩ := interpret_of_done clean here ended calm
  obtain ⟨whole, resembles, ran⟩ := run_of_accepts fuel clean (here.join there)
  rw [← Stmt.tokensAll_resolveProgram] at stays
  have joined := (machines.resolve (Stmt.resolveProgram program)
    (Stmt.resolveProgram (program ++ Stmt.downAll (first.newlines + 1) others))).interpret fuel stays
  rw [interpreted, Stmt.downAll_zero] at joined
  rw [execute, onMachine, resembles.machine] at ran
  generalize session.machine.resolve (Stmt.resolveProgram
    (program ++ Stmt.downAll (first.newlines + 1) others)) = start at joined ran
  cases interpretedToo : Machine.interpret fuel (Stmt.resolveProgram program) start with
  | ok _ after =>
      rw [interpretedToo] at joined
      cases joined with
      | ok _ _ moved =>
          refine ⟨{ whole with machine := after }, moved, ?_, ?_⟩
          · exact (record.symm.setMachine after).trans (resembles.setMachine after)
          · rw [ran, Stmt.resolveProgram_append, Stmt.resolveProgram_downAll,
              Machine.interpret_append, interpretedToo]
            rfl
  | error | fault | exhausted =>
      rw [interpretedToo] at joined
      cases joined

theorem execute_moved {lines : Nat} {program : List ResolvedStmt}
    (machines : Machine.Moved moves session.machine other.machine)
    (record : Resembles { session with machine := other.machine } other)
    (calm : session.runtimeErrors = [])
    (movable : moves.All lines (Stmt.tokensAll program)) :
    Outcome.Moved moves (session.execute fuel program)
      (other.execute fuel (Stmt.downAll lines program)) := by
  have ran := machines.interpret fuel movable
  have errors : List.Forall₂ (RuntimeError.Moved moves) session.runtimeErrors
      other.runtimeErrors := by
    simp only [record.runtimeErrors, calm]
    exact .nil
  simp only [execute]
  generalize Machine.interpret fuel program session.machine = result at ran
  generalize Machine.interpret fuel (Stmt.downAll lines program) other.machine = moved at ran
  cases ran with
  | ok _ _ after =>
      exact .done ⟨after.output, record.diagnostics, errors, record.hadError,
        record.hadRuntimeError, after.heap.contents _⟩
  | error _ blamed after =>
      exact .done ⟨after.output, record.diagnostics, List.rel_append errors (.cons blamed .nil),
        record.hadError, rfl, after.heap.contents _⟩
  | fault _ stopped after =>
      subst stopped
      exact .fault ⟨after.output, record.diagnostics, errors, record.hadError,
        record.hadRuntimeError, after.heap.contents _⟩
  | exhausted => exact .exhausted

end Session

/--
Entering a program piece by piece equals running it whole. After a source that ran without an error,
a second one has the same effect as if both had been joined by a newline, except that its tokens
then stand further down by the lines of the first.
-/
theorem Session.run_join (fuel : Nat) {first second : Text} {program others : List (Stmt Unit)}
    {session middle : Session} (earlier : Token → Prop)
    (here : Source.Accepts first program) (there : Source.Accepts second others)
    (clean : session.hadError = false)
    (stays : ∀ token ∈ session.machine.tokens ++ Stmt.tokensAll program, earlier token)
    (host : ∀ native ∈ session.machine.natives, native.IgnoresLines
      (.later earlier (· ∈ Stmt.tokensAll others) (first.newlines + 1)))
    (ended : session.run fuel first = .done () middle) (calm : middle.runtimeErrors = []) :
    (∃ checked, session.Resembles checked ∧
        session.check (first ++ Text.newline :: second) = .done (some (Stmt.resolveProgram
          (program ++ Stmt.downAll (first.newlines + 1) others))) checked) ∧
      Outcome.Moved (.later earlier (· ∈ Stmt.tokensAll others) (first.newlines + 1))
        (middle.run fuel second) (session.run fuel (first ++ Text.newline :: second)) := by
  refine ⟨check_of_accepts clean (here.join there), ?_⟩
  obtain ⟨staysHeld, staysFirst⟩ := List.forall_mem_append.mp stays
  have calmer : middle.runtimeErrors.length ≤ session.runtimeErrors.length := by simp [calm]
  -- The first source runs on the same machine both times, and stays on its lines.
  obtain ⟨between, machines, record, ranWhole⟩ := run_append clean here there ended calmer
    (.refl (fun token held => .inl ⟨rfl, staysHeld token held⟩) host)
    (fun token held => .inl ⟨rfl, staysFirst token held⟩)
  obtain ⟨_, kept⟩ := interpret_of_done clean here ended calmer
  obtain ⟨alone, resembles, ranAlone⟩ := run_of_accepts fuel (kept.hadError.trans clean) there
  rw [ranAlone, ranWhole]
  refine execute_moved ?_ ?_ (resembles.runtimeErrors.trans calm) ?_
  · rw [onMachine, resembles.machine]
    exact machines.resolve _ []
  · exact (resembles.symm.setMachine between.machine).trans record
  · rw [Stmt.tokensAll_resolveProgram]
    exact fun token held => .inr ⟨rfl, held⟩

/-- The clock is the only host function at the start. -/
theorem Session.start_ignoresLines (moves : Moves) (readings : Nat → Float) :
    ∀ native ∈ (Session.start readings).machine.natives, native.IgnoresLines moves := by
  intro native member
  obtain rfl : native = Machine.clock readings := Array.mem_singleton.mp member
  exact Machine.clock_respects (by rintro _ rfl number; exact .ofLiteral moves (.number number)) _

/-- A function and a global variable for a later source. -/
def greeting : Text := "fun greet(name) \x7b return \"hello \" + name; \x7d\nvar who = \"you\";"

/-- A source that calls an earlier function from its own, and then fails on its third line. -/
def greetings : Text :=
  "fun twice(f) \x7b return f(who) + f(who); \x7d\nprint twice(greet);\nprint greet + missing;"

theorem greeting_run_join :
    ∃ program others middle,
      Source.Accepts greeting program ∧ Source.Accepts greetings others ∧
      (Session.start fun _ => 0).run 40 greeting = .done () middle ∧
      middle.runtimeErrors = [] ∧
      ((Session.start fun _ => 0).run 40 (greeting ++ Text.newline :: greetings)).passes
        (fun _ session => session.runtimeErrors.map (·.token.line) == [5]) = true ∧
      (∃ checked, (Session.start fun _ => 0).Resembles checked ∧
        (Session.start fun _ => 0).check (greeting ++ Text.newline :: greetings) =
          .done (some (Stmt.resolveProgram (program ++ Stmt.downAll 2 others))) checked) ∧
      Outcome.Moved (.later (· ∈ Stmt.tokensAll program) (· ∈ Stmt.tokensAll others) 2)
        (middle.run 40 greetings)
        ((Session.start fun _ => 0).run 40 (greeting ++ Text.newline :: greetings)) := by
  obtain ⟨program, here⟩ := (Source.isAccepted_iff greeting).mp (by decide +kernel)
  obtain ⟨others, there⟩ := (Source.isAccepted_iff greetings).mp (by decide +kernel)
  have runs : ((Session.start fun _ => 0).run 40 greeting).passes
      (fun _ session => session.runtimeErrors.isEmpty) = true := by decide +kernel
  have lines : greeting.newlines + 1 = 2 := by decide +kernel
  obtain ⟨_, middle, ended, calm⟩ := Outcome.passes_iff.mp runs
  have noErrors := List.isEmpty_iff.mp calm
  refine ⟨program, others, middle, here, there, ended, noErrors, by decide +kernel, ?_⟩
  have stays : ∀ token ∈ (Session.start fun _ => 0).machine.tokens ++
      Stmt.tokensAll program, token ∈ Stmt.tokensAll program := fun _ held => held
  have joined := Session.run_join 40 _ here there rfl stays
    (Session.start_ignoresLines _ _) ended noErrors
  rwa [lines] at joined

end Loxley
