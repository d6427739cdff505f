import Loxley.Machine.Eval
import Loxley.Program.Outline
import Loxley.Scope
import Loxley.Source

/-!
# Sessions

A session runs one source after the other on the same machine. It collects the errors that were
reported since the last reset, with a flag for each kind, and writes them, with an optional log of
its work, to standard error.
-/

set_option autoImplicit false

namespace Loxley

/-- The statuses with which commands end. -/
inductive ExitStatus where
  | success | usage | badData | noInput | runtimeError | badSettings
deriving DecidableEq, Repr

def ExitStatus.code : ExitStatus → Nat
  | success => 0
  | usage => 64
  | badData => 65
  | noInput => 66
  | runtimeError => 70
  | badSettings => 78

/-- A machine with the errors that were reported on it. -/
structure Session where
  machine : Machine
  diagnostics : List Diagnostic := []
  runtimeErrors : List RuntimeError := []
  hadError : Bool := false
  hadRuntimeError : Bool := false
  /-- Whether the phases of the work are logged. -/
  verbose : Bool := false
  /-- Whether errors and the log are coloured. -/
  coloured : Bool := false
  /-- What has been written to standard error, piece by piece. -/
  errorOutput : Array Text := #[]

/-- How an action of a session ended. -/
inductive Outcome (α : Type) where
  | done (value : α) (session : Session)
  | fault (reason : Fault) (session : Session)
  /-- The fuel did not suffice. -/
  | exhausted

namespace Outcome

variable {α β : Type}

/-- Goes on with the value of an action, if it has one. -/
def andThen (outcome : Outcome α) (next : α → Session → Outcome β) : Outcome β :=
  match outcome with
  | .done value session => next value session
  | .fault reason session => .fault reason session
  | .exhausted => .exhausted

/-- Changes the session at the end of an action, however it ended. -/
def ensuring (outcome : Outcome α) (change : Session → Session) : Outcome α :=
  match outcome with
  | .done value session => .done value (change session)
  | .fault reason session => .fault reason (change session)
  | .exhausted => .exhausted

end Outcome

namespace Session

/-! The texts that switch a terminal to red, to faint letters, and back to normal. -/

def red : Text := "\x1b[31m"

def faint : Text := "\x1b[2m"

def plain : Text := "\x1b[0m"

/-- A session on which nothing has run. -/
def start (readings : Nat → Float) : Session where
  machine := .start readings

/-- Forgets all reported errors. -/
def reset (session : Session) : Session :=
  { session with
    diagnostics := []
    runtimeErrors := []
    hadError := false
    hadRuntimeError := false }

def writeError (text : Text) (session : Session) : Session :=
  { session with errorOutput := session.errorOutput.push text }

/-- Writes a report as a line, in red if the session is coloured. -/
def writeReport (text : Text) (session : Session) : Session :=
  session.writeError
    (if session.coloured then red ++ text ++ plain ++ [Text.newline] else text ++ [Text.newline])

/--
Logs a line if the session is verbose, and only then works out its text. A coloured log is left faint.
-/
@[macro_inline]
def log (text : Text) (session : Session) : Session :=
  if session.verbose then
    session.writeError ((if session.coloured then faint else []) ++ text ++ [Text.newline])
  else session

def report (diagnostic : Diagnostic) (session : Session) : Session :=
  { session with
    diagnostics := session.diagnostics ++ [diagnostic]
    hadError := true }.writeReport diagnostic.text

def reportAll (diagnostics : List Diagnostic) (session : Session) : Session :=
  diagnostics.foldl (fun session diagnostic => session.report diagnostic) session

def reportRuntime (problem : RuntimeError) (session : Session) : Session :=
  { session with
    runtimeErrors := session.runtimeErrors ++ [problem]
    hadRuntimeError := true }.writeReport problem.text

/-- All reported errors, diagnostics first, each on lines of its own. -/
def reportText (session : Session) : Text :=
  Text.join [Text.newline]
    (session.diagnostics.map (·.text) ++ session.runtimeErrors.map (·.text))

def exitStatus (session : Session) : ExitStatus :=
  if session.hadError then .badData
  else if session.hadRuntimeError then .runtimeError
  else .success

def onMachine (change : Machine → Machine) (session : Session) : Session :=
  { session with machine := change session.machine }

/-- Parses a program and reports what is wrong with it. -/
def parse (source : Text) (session : Session) : Outcome (List (Stmt Unit)) :=
  let parsed := Source.program source
  let session := (session.log "Parsing...").reportAll parsed.diagnostics
  match parsed.result with
  | .error reason => .fault reason session
  | .ok program =>
    .done program
      (if session.hadError then session
      else session.log (("AST: " : Text) ++ Stmt.programText program))

/--
Parses a program and analyses its scopes. Gives nothing if any error is on record, be it an older
one.
-/
def check (source : Text) (session : Session) : Outcome (Option (List ResolvedStmt)) :=
  (session.parse source).andThen fun program session =>
    if session.hadError then .done none session
    else
      let session := (session.log "Resolving...").reportAll (Stmt.programFaults program)
      if session.hadError then .done none session
      else
        let resolved := Stmt.resolveProgram program
        .done (some resolved)
          (session.log (("Resolved " : Text) ++ Text.ofNat (Stmt.localCount resolved) ++
            (" local references" : Text)))

/-- Goes on from the end of a computation on the machine, and reports its error. -/
def settle (session : Session) : Result Unit → Outcome Unit
  | .ok _ machine => .done () { session with machine }
  | .error problem machine => .done () ({ session with machine }.reportRuntime problem)
  | .fault reason machine => .fault reason { session with machine }
  | .exhausted => .exhausted

def execute (fuel : Nat) (program : List ResolvedStmt) (session : Session) : Outcome Unit :=
  session.settle (Machine.interpret fuel program session.machine)

/-- Runs a source. Nothing runs if any error is on record; nothing is logged for an empty program. -/
def run (fuel : Nat) (source : Text) (session : Session) : Outcome Unit :=
  (session.check source).andThen fun program session =>
    match program with
    | none => .done () session
    | some [] => .done () session
    | some (first :: rest) =>
      ((session.log "Executing...").onMachine (Machine.resolve (first :: rest))).execute fuel
        (first :: rest)

/-- Why an expression has no value. -/
inductive EvalFailure where
  /-- It could not be parsed; holds all errors on record. -/
  | badSource (report : Text)
  | runtime (problem : RuntimeError)

def EvalFailure.text : EvalFailure → Text
  | .badSource report => ("syntax error:\n" : Text) ++ report
  | .runtime problem => problem.text

/-- Goes on from the end of a computation on the machine, and gives its value or its error. -/
def conclude (session : Session) : Result Value → Outcome (Except EvalFailure Value)
  | .ok value machine => .done (.ok value) { session with machine }
  | .error problem machine => .done (.error (.runtime problem)) { session with machine }
  | .fault reason machine => .fault reason { session with machine }
  | .exhausted => .exhausted

/-- Evaluates a source that is a single expression. An error at run time is given, not reported. -/
def evaluate (fuel : Nat) (source : Text) (session : Session) :
    Outcome (Except EvalFailure Value) :=
  let parsed := Source.expression source
  let session := session.reportAll parsed.diagnostics
  match parsed.result with
  | .error reason => .fault reason session
  | .ok none => .done (.error (.badSource session.reportText)) session
  | .ok (some expr) =>
    if session.hadError then .done (.error (.badSource session.reportText)) session
    else
      let resolved := expr.resolve []
      let session := session.onMachine (Machine.resolve [.expression expr.token resolved])
      session.conclude (Machine.evaluate fuel resolved session.machine)

end Session

end Loxley
