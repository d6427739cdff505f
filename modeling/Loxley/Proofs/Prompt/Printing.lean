import Loxley.Proofs.Prompt.Routing

/-!
# Expressions at the prompt

An entry that is an expression has the effect of a program that prints it. The expression stands on
the same lines in both, so even the errors are the same.
-/

set_option autoImplicit false

namespace Loxley

namespace Source

/-- The keyword at the start of a source. -/
def printWord : Token where
  kind := .keyword .printWord
  lexeme := "print"
  line := 1

theorem scan_print (source : Text) :
    Scan.ofSource (("print " : Text) ++ source) = (Scan.ofSource source).withToken printWord := by
  have word : Segment.ofText (("print " : Text) ++ source) =
      .lexeme (.keyword .printWord) "print" :: Segment.ofText (32 :: source) := by
    have spelled :
        (("print " : Text) ++ source) = 112 :: 114 :: 105 :: 110 :: 116 :: 32 :: source := rfl
    have cut : Segment.cut 112 (114 :: 105 :: 110 :: 116 :: 32 :: source) =
        (.lexeme (.keyword .printWord) "print", 32 :: source) := rfl
    rw [spelled, Segment.ofText, cut]
  simp only [Scan.ofSource, word]
  rw [← Scan.ofSegments_space]
  rfl

theorem Words.print {source : Text} {words : List Token} (isSource : Words source words) :
    Words (("print " : Text) ++ source) (printWord :: words) := by
  obtain ⟨⟨finish, isEnd, scanned⟩, inner⟩ := isSource
  refine ⟨⟨finish, isEnd, ?_⟩, ?_⟩
  · rw [scan_print, scanned]
    rfl
  · intro word member
    rcases List.mem_cons.mp member with rfl | later
    · decide
    · exact inner word later

theorem words_semicolon :
    Words [59] [{ kind := .symbol .semicolon, lexeme := ";", line := 1 }] := by
  refine ⟨⟨{ kind := .endOfFile, lexeme := [], line := 1 }, rfl, by decide +kernel⟩, ?_⟩
  intro word member
  rw [List.mem_singleton.mp member]
  decide

end Source

namespace Session

variable {session : Session}

theorem log_of_quiet (quiet : session.verbose = false) (text : Text) :
    session.log text = session := by
  simp [log, quiet]

theorem run_of_quiet {source : Text} {program : List (Stmt Unit)} (fuel : Nat)
    (quiet : session.verbose = false) (clean : session.hadError = false)
    (accepts : Source.Accepts source program) :
    session.run fuel source =
      (session.onMachine (Machine.resolve (Stmt.resolveProgram program))).execute fuel
        (Stmt.resolveProgram program) := by
  have parsed : session.parse source = .done program session := by
    simp [parse, accepts.parsed, log_of_quiet quiet, reportAll, clean]
  have checked : session.check source = .done (some (Stmt.resolveProgram program)) session := by
    simp [check, parsed, Outcome.andThen, clean, log_of_quiet quiet, accepts.faultless, reportAll]
  simp only [run, checked, Outcome.andThen, log_of_quiet quiet]
  cases Stmt.resolveProgram program with
  | nil => rfl
  | cons first rest => rfl

end Session

namespace Prompt

/-- A program that prints the value of a source. A comment at its end stops before the semicolon. -/
def printed (source : Text) : Text :=
  ("print " : Text) ++ (source ++ [Text.newline, 59])

variable {source : Text} {session : Session}

theorem accepts_printed {expr : Expr Unit}
    (parsed : Source.expression source = { diagnostics := [], result := .ok (some expr) }) :
    Source.Accepts (printed source) [.print Source.printWord expr] := by
  obtain ⟨words, isSource, derived⟩ := (Source.expression_eq_iff source expr).mp parsed
  constructor
  · refine (Source.program_eq_iff _ _).mpr ⟨_, (isSource.join Source.words_semicolon).print, ?_⟩
    rw [← List.append_nil (_ :: _)]
    exact .cons (.statement (.print rfl derived rfl)) .nil
  · simp [Stmt.programFaults, Stmt.faultsAll, Stmt.faults, expr.faults_nil]

theorem carryOut_eq_run_printed (fuel : Nat) (isExpr : isExpression source = .ok true)
    (clean : session.hadError = false) (quiet : session.verbose = false) :
    carryOut fuel source session = session.run (fuel + 1) (printed source) := by
  obtain ⟨expr, parsed⟩ := (isExpression_eq_true_iff source).mp isExpr
  have resolved : Stmt.resolveProgram [.print Source.printWord expr] =
      [.print Source.printWord (expr.resolve [])] := rfl
  rw [Session.run_of_quiet _ quiet clean (accepts_printed parsed), resolved,
    session.onMachine_resolve_of_global rfl]
  simp only [carryOut, isExpr, Session.evaluate_of_accepts fuel clean parsed, Session.execute,
    Machine.interpret, Machine.execute]
  cases Machine.evaluate fuel (expr.resolve []) session.machine with
  | error | fault | exhausted => rfl
  | ok value after =>
      simp only [Session.conclude, Outcome.andThen, Result.andThen]
      cases after.print value <;> rfl

/--
An entry that is an expression and a program that prints it have the same outcome: both go on for
ever, or both end with the same machine, the same text on standard error and the same error on
record. The entry then forgets the error. It is never turned down.
-/
theorem expression_entry_prints (isExpr : isExpression source = .ok true)
    (clean : session.hadError = false) (quiet : session.verbose = false) :
    (∀ fuel, carryOut fuel source session = session.run (fuel + 1) (printed source)) ∧
    (∀ fuel, runEntry fuel source session =
      (session.run (fuel + 1) (printed source)).ensuring Session.reset) ∧
    ((∃ fuel, runEntry fuel source session ≠ .exhausted) ↔
      ∃ fuel, session.run fuel (printed source) ≠ .exhausted) ∧
    ∀ fuel report after,
      session.evaluate fuel source ≠ .done (.error (.badSource report)) after := by
  obtain ⟨expr, parsed⟩ := (isExpression_eq_true_iff source).mp isExpr
  have outcomes := fun fuel => carryOut_eq_run_printed fuel isExpr clean quiet
  have entries : ∀ fuel, runEntry fuel source session =
      (session.run (fuel + 1) (printed source)).ensuring Session.reset := by
    intro fuel
    rw [runEntry, outcomes fuel]
  refine ⟨outcomes, entries, ⟨?_, ?_⟩, ?_⟩
  · intro entryEnds
    obtain ⟨fuel, ends⟩ := entryEnds
    refine ⟨fuel + 1, fun exhausted => ends ?_⟩
    rw [entries fuel, exhausted]
    rfl
  · intro programEnds
    obtain ⟨fuel, ends⟩ := programEnds
    cases fuel with
    | zero =>
        -- Without fuel not even the one statement is started.
        rw [Session.run_of_quiet 0 quiet clean (accepts_printed parsed)] at ends
        exact absurd rfl ends
    | succ fuel =>
        refine ⟨fuel, fun exhausted => ends ?_⟩
        rw [entries fuel] at exhausted
        cases ran : session.run (fuel + 1) (printed source) with
        | exhausted => rfl
        | done | fault => simp [ran, Outcome.ensuring] at exhausted
  · intro fuel report after evaluated
    rw [Session.evaluate_of_accepts fuel clean parsed] at evaluated
    cases result : Machine.evaluate fuel (expr.resolve []) session.machine with
    | ok | error | fault | exhausted => simp [result, Session.conclude] at evaluated

def noisy : Text := "fun noisy(x) \x7b print x; return x + nil; \x7d"

def noisyCall : Text := " noisy(\n1) // prints before it fails\n"

theorem noisyCall_entry_prints :
    ∃ session, (Session.start fun _ => 0).run 40 noisy = .done () session ∧
      session.hadError = false ∧ session.verbose = false ∧ isExpression noisyCall = .ok true ∧
      (carryOut 40 noisyCall session).passes (fun _ after =>
        after.machine.output == #[("1\n" : Text)] &&
          after.runtimeErrors.map (·.mishap) == [.operandsNotAddable]) = true ∧
      carryOut 40 noisyCall session = session.run 41 (printed noisyCall) ∧
      runEntry 40 noisyCall session =
        (session.run 41 (printed noisyCall)).ensuring Session.reset := by
  have runs : ((Session.start fun _ => 0).run 40 noisy).passes (fun _ session =>
      !session.hadError && !session.verbose && (carryOut 40 noisyCall session).passes
        (fun _ after => after.machine.output == #[("1\n" : Text)] &&
          after.runtimeErrors.map (·.mishap) == [.operandsNotAddable])) = true := by
    decide +kernel
  have isExpr : isExpression noisyCall = .ok true := by decide +kernel
  obtain ⟨_, session, ran, tested⟩ := Outcome.passes_iff.mp runs
  obtain ⟨calm, shown⟩ := Bool.and_eq_true_iff.mp tested
  obtain ⟨noError, notVerbose⟩ := Bool.and_eq_true_iff.mp calm
  have clean : session.hadError = false := by simpa using noError
  have quiet : session.verbose = false := by simpa using notVerbose
  obtain ⟨outcomes, entries, _⟩ := expression_entry_prints isExpr clean quiet
  exact ⟨session, ran, clean, quiet, isExpr, shown, outcomes 40, entries 40⟩

end Prompt

end Loxley
