import Loxley.Proofs.Parser.Soundness
import Loxley.Session

/-!
# Sources on a session

When a session accepts a source, and what it does with it. Logs and reports change nothing but the
record of errors and what has been written to standard error.
-/

set_option autoImplicit false

namespace Loxley

/-- A source that reads as a program without any diagnostic. -/
structure Source.Accepts (source : Text) (program : List (Stmt Unit)) : Prop where
  parsed : Source.program source = { diagnostics := [], result := .ok program }
  faultless : Stmt.programFaults program = []

/-- Whether a source reads as a program without any diagnostic. -/
def Source.isAccepted (source : Text) : Bool :=
  match Source.program source with
  | { diagnostics := [], result := .ok program } => (Stmt.programFaults program).isEmpty
  | _ => false

theorem Source.isAccepted_iff (source : Text) :
    Source.isAccepted source = true ↔ ∃ program, Source.Accepts source program := by
  constructor
  · intro accepted
    unfold Source.isAccepted at accepted
    split at accepted
    · next program parsed => exact ⟨program, parsed, List.isEmpty_iff.mp accepted⟩
    · cases accepted
  · rintro ⟨program, parsed, faultless⟩
    simp only [Source.isAccepted, parsed, faultless, List.isEmpty_nil]

/-- Whether an action was done with a value and a session that pass a test. -/
def Outcome.passes {α : Type} (test : α → Session → Bool) : Outcome α → Bool
  | .done value session => test value session
  | .fault _ _ | .exhausted => false

theorem Outcome.passes_iff {α : Type} {test : α → Session → Bool} {outcome : Outcome α} :
    outcome.passes test = true ↔
      ∃ value session, outcome = .done value session ∧ test value session = true := by
  cases outcome <;> simp [Outcome.passes]

theorem Scan.parse_eq_ok {α : Type} {rule : Cursor → Parsed α} {scan : Scan}
    {diagnostics : List Diagnostic} {value : α}
    (parsed : scan.parse rule = { diagnostics, result := .ok value }) :
    ∃ cursor, Cursor.ofTokens? scan.tokens = some cursor ∧ (rule cursor).value = value ∧
      diagnostics = scan.diagnostics ++ (rule cursor).diagnostics := by
  unfold Scan.parse at parsed
  split at parsed
  · cases parsed
  · split at parsed
    · cases parsed
    · next cursor found =>
        cases parsed
        exact ⟨cursor, found, rfl, rfl⟩

theorem Source.Accepts.acceptedAll {source : Text} {program : List (Stmt Unit)}
    (accepts : Source.Accepts source program) : Stmt.AcceptedAll false [] program := by
  obtain ⟨cursor, _, rfl, clean⟩ := Scan.parse_eq_ok accepts.parsed
  obtain ⟨_, parseClean⟩ := List.append_eq_nil_iff.mp clean.symm
  have parsed : cursor.program = { value := cursor.program.value, diagnostics := [] } := by
    rw [← parseClean]
  exact ⟨(Cursor.declarations_of_program parsed).wellFormed, accepts.faultless⟩

/-- Outside of all scopes, scope analysis has nothing to say about an expression. -/
theorem Source.acceptedExpression {source : Text} {expr : Expr Unit}
    (parsed : Source.expression source = { diagnostics := [], result := .ok (some expr) }) :
    expr.Accepted [] := by
  obtain ⟨cursor, _, value, clean⟩ := Scan.parse_eq_ok parsed
  obtain ⟨_, parseClean⟩ := List.append_eq_nil_iff.mp clean.symm
  have read : cursor.expression = { value := some expr, diagnostics := [] } := by
    rw [← value, ← parseClean]
  exact ⟨(Cursor.expression_of_expression read).wellFormed, expr.faults_nil⟩

namespace Session

/-- Sessions with the same machine and the same errors on record. -/
structure Resembles (before after : Session) : Prop where
  machine : after.machine = before.machine
  diagnostics : after.diagnostics = before.diagnostics
  runtimeErrors : after.runtimeErrors = before.runtimeErrors
  hadError : after.hadError = before.hadError
  hadRuntimeError : after.hadRuntimeError = before.hadRuntimeError

theorem Resembles.trans {before middle after : Session} (first : before.Resembles middle)
    (second : middle.Resembles after) : before.Resembles after :=
  ⟨second.machine.trans first.machine, second.diagnostics.trans first.diagnostics,
    second.runtimeErrors.trans first.runtimeErrors, second.hadError.trans first.hadError,
    second.hadRuntimeError.trans first.hadRuntimeError⟩

theorem Resembles.symm {before after : Session} (resembles : before.Resembles after) :
    after.Resembles before :=
  ⟨resembles.machine.symm, resembles.diagnostics.symm, resembles.runtimeErrors.symm,
    resembles.hadError.symm, resembles.hadRuntimeError.symm⟩

theorem Resembles.setMachine {before after : Session} (resembles : before.Resembles after)
    (machine : Machine) : Resembles { before with machine } { after with machine } :=
  { resembles with machine := rfl }

theorem log_resembles (session : Session) (text : Text) : session.Resembles (session.log text) := by
  unfold log
  split <;> exact ⟨rfl, rfl, rfl, rfl, rfl⟩

section Log

variable (session : Session) (text : Text)

@[simp] theorem log_machine : (session.log text).machine = session.machine :=
  (session.log_resembles text).machine

@[simp] theorem log_diagnostics : (session.log text).diagnostics = session.diagnostics :=
  (session.log_resembles text).diagnostics

@[simp] theorem log_runtimeErrors : (session.log text).runtimeErrors = session.runtimeErrors :=
  (session.log_resembles text).runtimeErrors

@[simp] theorem log_hadError : (session.log text).hadError = session.hadError :=
  (session.log_resembles text).hadError

@[simp] theorem log_hadRuntimeError : (session.log text).hadRuntimeError = session.hadRuntimeError :=
  (session.log_resembles text).hadRuntimeError

end Log

section Reports

variable (session : Session) (found : List Diagnostic)

@[simp] theorem reportAll_machine : (session.reportAll found).machine = session.machine := by
  induction found generalizing session with
  | nil => rfl
  | cons first rest ih => exact ih (session.report first)

@[simp] theorem reportAll_diagnostics :
    (session.reportAll found).diagnostics = session.diagnostics ++ found := by
  induction found generalizing session with
  | nil => simp [reportAll]
  | cons first rest ih =>
      have reported := ih (session.report first)
      simpa [reportAll, report, writeReport, writeError] using reported

@[simp] theorem reportAll_runtimeErrors :
    (session.reportAll found).runtimeErrors = session.runtimeErrors := by
  induction found generalizing session with
  | nil => rfl
  | cons first rest ih => exact ih (session.report first)

@[simp] theorem reportAll_hadRuntimeError :
    (session.reportAll found).hadRuntimeError = session.hadRuntimeError := by
  induction found generalizing session with
  | nil => rfl
  | cons first rest ih => exact ih (session.report first)

@[simp] theorem reportAll_hadError :
    (session.reportAll found).hadError = (session.hadError || !found.isEmpty) := by
  induction found generalizing session with
  | nil => simp [reportAll]
  | cons first rest ih =>
      have reported := ih (session.report first)
      simpa [reportAll, report, writeReport, writeError] using reported

theorem reportAll_hadError_eq_false_iff :
    (session.reportAll found).hadError = false ↔ session.hadError = false ∧ found = [] := by
  simp

end Reports

theorem Resembles.reportAll {before after : Session} (resembles : before.Resembles after)
    (found : List Diagnostic) : (before.reportAll found).Resembles (after.reportAll found) := by
  constructor <;> simp [resembles.machine, resembles.diagnostics, resembles.runtimeErrors,
    resembles.hadError, resembles.hadRuntimeError]

/-- What the parser found wrong with a program is added to the record. -/
theorem parse_of_ok (session : Session) {source : Text} {found : List Diagnostic}
    {program : List (Stmt Unit)}
    (parsed : Source.program source = { diagnostics := found, result := .ok program }) :
    ∃ after, session.parse source = .done program after ∧
      (session.reportAll found).Resembles after := by
  simp only [parse, parsed]
  refine ⟨_, rfl, ?_⟩
  have logged := (session.log_resembles "Parsing...").reportAll found
  split
  · exact logged
  · exact logged.trans (log_resembles _ _)

theorem check_of_accepts {session : Session} {source : Text} {program : List (Stmt Unit)}
    (clean : session.hadError = false) (accepts : Source.Accepts source program) :
    ∃ checked, session.Resembles checked ∧
      session.check source = .done (some (Stmt.resolveProgram program)) checked := by
  obtain ⟨after, parsed, resembles⟩ := session.parse_of_ok accepts.parsed
  have noError : after.hadError = false := resembles.hadError.trans clean
  simp only [check, parsed, Outcome.andThen, accepts.faultless]
  have noErrorYet : ((after.log "Resolving...").reportAll []).hadError = false :=
    (log_hadError ..).trans noError
  simp only [noError, noErrorYet]
  exact ⟨_, resembles.trans ((log_resembles _ _).trans (log_resembles _ _)), rfl⟩

/-- Whatever is wrong with a source, the machine is left alone. -/
theorem check_of_not_accepts {session : Session} {source : Text}
    (rejected : ¬ (session.hadError = false ∧ ∃ program, Source.Accepts source program)) :
    ∃ after, after.machine = session.machine ∧
      (session.check source = .done none after ∨
        ∃ reason, session.check source = .fault reason after) := by
  match parsed : Source.program source with
  | { diagnostics := found, result := .error reason } =>
      refine ⟨(session.log "Parsing...").reportAll found, by simp, .inr ⟨reason, ?_⟩⟩
      simp only [check, parse, parsed, Outcome.andThen]
  | { diagnostics := found, result := .ok program } =>
      obtain ⟨after, done, resembles⟩ := session.parse_of_ok parsed
      have machine : after.machine = session.machine := by simp [resembles.machine]
      simp only [check, done, Outcome.andThen]
      by_cases hadError : after.hadError = true
      · rw [if_pos hadError]
        exact ⟨after, machine, .inl rfl⟩
      · rw [if_neg hadError, if_pos]
        · exact ⟨_, by simp [machine], .inl rfl⟩
        · refine Bool.of_not_eq_false fun clean => ?_
          obtain ⟨_, faultless⟩ := (reportAll_hadError_eq_false_iff _ _).mp clean
          have noError := resembles.hadError.symm.trans (Bool.of_not_eq_true hadError)
          obtain ⟨noOlder, rfl⟩ := (reportAll_hadError_eq_false_iff _ _).mp noError
          exact rejected ⟨noOlder, program, parsed, faultless⟩

/-- A session accepts a source only without diagnostics, be they older or of the source. -/
theorem accepts_of_check {session checked : Session} {source : Text}
    {resolved : List ResolvedStmt} (done : session.check source = .done (some resolved) checked) :
    session.hadError = false ∧ session.Resembles checked ∧
      ∃ program, Source.Accepts source program ∧ resolved = Stmt.resolveProgram program := by
  by_cases accepted : session.hadError = false ∧ ∃ program, Source.Accepts source program
  · obtain ⟨clean, program, accepts⟩ := accepted
    obtain ⟨after, resembles, same⟩ := check_of_accepts clean accepts
    cases done.symm.trans same
    exact ⟨clean, resembles, program, accepts, rfl⟩
  · obtain ⟨after, _, none | ⟨reason, fault⟩⟩ := check_of_not_accepts accepted
    · cases done.symm.trans none
    · cases done.symm.trans fault

/-- An accepted source runs on a machine that knows its distances. -/
theorem run_of_accepts {session : Session} {source : Text} {program : List (Stmt Unit)}
    (fuel : Nat) (clean : session.hadError = false) (accepts : Source.Accepts source program) :
    ∃ logged, session.Resembles logged ∧
      session.run fuel source =
        (logged.onMachine (Machine.resolve (Stmt.resolveProgram program))).execute fuel
          (Stmt.resolveProgram program) := by
  obtain ⟨checked, resembles, done⟩ := check_of_accepts clean accepts
  simp only [run, done, Outcome.andThen]
  cases Stmt.resolveProgram program with
  | nil => exact ⟨checked, resembles, rfl⟩
  | cons first rest => exact ⟨_, resembles.trans (log_resembles _ _), rfl⟩

/-- An accepted source that added no error to the record was interpreted to its end. -/
theorem interpret_of_done {session after : Session} {fuel : Nat} {source : Text}
    {program : List (Stmt Unit)} (clean : session.hadError = false)
    (accepts : Source.Accepts source program) (ended : session.run fuel source = .done () after)
    (calm : after.runtimeErrors.length ≤ session.runtimeErrors.length) :
    Machine.interpret fuel (Stmt.resolveProgram program)
        (session.machine.resolve (Stmt.resolveProgram program)) = .ok () after.machine ∧
      Resembles { session with machine := after.machine } after := by
  obtain ⟨logged, resembles, ran⟩ := run_of_accepts fuel clean accepts
  rw [ended, execute, onMachine, resembles.machine] at ran
  generalize Machine.interpret fuel (Stmt.resolveProgram program)
    (session.machine.resolve (Stmt.resolveProgram program)) = result at ran
  cases result with
  | ok _ machine =>
      cases ran
      exact ⟨rfl, resembles.setMachine machine⟩
  | error problem machine =>
      cases ran
      simp only [reportRuntime, writeReport, writeError, resembles.runtimeErrors, List.length_append,
        List.length_singleton] at calm
      exact absurd calm (Nat.not_succ_le_self _)
  | fault | exhausted => cases ran

theorem run_of_not_accepts {session : Session} {source : Text} (fuel : Nat)
    (rejected : ¬ (session.hadError = false ∧ ∃ program, Source.Accepts source program)) :
    ∃ after, after.machine = session.machine ∧
      (session.run fuel source = .done () after ∨
        ∃ reason, session.run fuel source = .fault reason after) := by
  obtain ⟨after, machine, none | ⟨reason, fault⟩⟩ := check_of_not_accepts rejected
  · exact ⟨after, machine, .inl (by simp only [run, none, Outcome.andThen])⟩
  · exact ⟨after, machine, .inr ⟨reason, by simp only [run, fault, Outcome.andThen]⟩⟩

/-- Outside of all scopes there are no distances to be kept. -/
theorem onMachine_resolve_of_global (session : Session) {stmt : ResolvedStmt} {expr : Expr Unit}
    (uses : stmt.uses = (expr.resolve []).uses) :
    session.onMachine (Machine.resolve [stmt]) = session := by
  simp only [onMachine, Machine.resolve, Stmt.locals_singleton_of_global uses, List.nil_append]

theorem evaluate_of_accepts {session : Session} {source : Text} {expr : Expr Unit} (fuel : Nat)
    (clean : session.hadError = false)
    (parsed : Source.expression source = { diagnostics := [], result := .ok (some expr) }) :
    session.evaluate fuel source =
      session.conclude (Machine.evaluate fuel (expr.resolve []) session.machine) := by
  have kept : session.onMachine
      (Machine.resolve [.expression expr.token (expr.resolve [])]) = session :=
    session.onMachine_resolve_of_global rfl
  have noError : ¬ (session.reportAll []).hadError = true := by simp [clean]
  simp only [evaluate, parsed]
  rw [if_neg noError]
  change (session.onMachine _).conclude
    (Machine.evaluate fuel (expr.resolve []) (session.onMachine _).machine) = _
  rw [kept]

theorem evaluate_of_not_accepts {session : Session} {source : Text} (fuel : Nat)
    (rejected : ¬ (session.hadError = false ∧ ∃ expr, Source.expression source =
      { diagnostics := [], result := .ok (some expr) })) :
    let after := session.reportAll (Source.expression source).diagnostics
    (∃ failure, session.evaluate fuel source = .done (.error failure) after) ∨
      ∃ reason, session.evaluate fuel source = .fault reason after := by
  match parsed : Source.expression source with
  | { diagnostics := found, result } =>
      simp only [evaluate, parsed]
      match result with
      | .error reason => exact .inr ⟨reason, rfl⟩
      | .ok none => exact .inl ⟨_, rfl⟩
      | .ok (some expr) =>
          refine .inl ⟨_, if_pos (Bool.of_not_eq_false fun clean => ?_)⟩
          obtain ⟨noOlder, rfl⟩ := (reportAll_hadError_eq_false_iff _ _).mp clean
          exact rejected ⟨noOlder, expr, parsed⟩

end Session

end Loxley
