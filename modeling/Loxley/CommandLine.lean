import Loxley.Options
import Loxley.Prompt
import Loxley.Settings

/-!
# The command line

Commands are worked out in steps: their arguments, the settings, the source, and then the work itself.
The files and variables come from a host, so that the same definitions serve a real system and a tree
of files in memory.
-/

set_option autoImplicit false

namespace Loxley

/-- The commands that take options. -/
inductive Command where
  | run | eval | check | outline | interact
deriving DecidableEq, Repr

namespace Command

def name : Command → Text
  | run => "run"
  | eval => "eval"
  | check => "check"
  | outline => "ast"
  | interact => "repl"

def ofName? (text : Text) : Option Command :=
  [run, eval, check, outline, interact].find? (·.name == text)

/-- The options and operands of a command in short. -/
def synopsis : Command → Text
  | run | check => "[-v] [-c config] <file>"
  | eval => "[-v] [-c config] <code>"
  | outline => "[-e] [-c config] <file|expression>"
  | interact => "[-v] [-c config]"

def flags : Command → List Flag
  | outline => [.expression, .settings]
  | _ => [.verbose, .settings]

/-- The number of operands that a command takes. -/
def arity : Command → Nat
  | interact => 0
  | _ => 1

end Command

namespace CommandLine

def usage : Text :=
  "Lox - a small dynamically typed scripting language

Usage:
    lox <command> [arguments]
    lox <file.lox>
    lox

Commands:
    run <file>      Run a .lox script
    eval <code>     Run inline Lox code
    check <file>    Parse and resolve a .lox script without running it
    ast <file>      Print the syntax tree of a .lox script
    repl            Start an interactive prompt (the default)
    help            Show this help message

Flags:
    -v              Log each phase to stderr (run, eval, check)
    -e              Treat the argument of ast as an inline expression
    -c <file>       Read settings from this YAML file (all commands)

Examples:
    lox run examples/fib.lox
    lox eval 'print 1 + 2;'
    lox ast -e '1 + 2 * 3'
    lox check myfile.lox
"

/-- The names under which the help text is shown. -/
def helpNames : List Text := ["help", "-h", "--help"]

/-- The ending of a file name that makes it a command of its own. -/
def scriptEnding : Text := ".lox"

/-- What the arguments ask for. -/
inductive Request where
  | help
  | unknown (name : Text)
  | command (command : Command) (arguments : List Text)

/-- Finds out what is asked for. Nothing at all starts the prompt; a lone script is run. -/
def Request.ofArguments : List Text → Request
  | [] => .command .interact []
  | name :: rest =>
    match Command.ofName? name with
    | some found => .command found rest
    | none =>
      if helpNames.contains name then .help
      else if rest.isEmpty && scriptEnding.isSuffixOf name then .command .run [name]
      else .unknown name

/-- What a finished command leaves behind. -/
structure Report where
  output : Text := []
  errorOutput : Text := []
  status : ExitStatus := .success

/-- How the work of a command goes on or ends. -/
inductive Step where
  | finished (report : Report)
  /-- Lines of input are wanted. -/
  | interactive (settings : Settings) (session : Session)
  | fault (reason : Fault)
  /-- The fuel did not suffice. -/
  | exhausted

/-- The report of a session that ends with a status. -/
def Report.ofSession (session : Session) (status : ExitStatus) : Report where
  output := session.machine.output.toList.flatten
  errorOutput := session.errorOutput.toList.flatten
  status := status

/-- Reports wrong usage of a command. -/
def usageError (command : Command) (problem : Option Options.OptionError) : Report where
  errorOutput :=
    (match problem with
      | some problem => ("Error: " : Text) ++ problem.message ++ [Text.newline]
      | none => []) ++
    ("Usage: lox " : Text) ++ command.name ++ 32 :: command.synopsis ++ [Text.newline]
  status := .usage

/-- The files and variables of the system on which a command runs. -/
structure Host (m : Type → Type) where
  readFile : Text → m (Except FileProblem Text)
  /-- The value of an environment variable, empty if it is not set. -/
  getVariable : Text → m Text
  /-- The readings of the clock, in seconds. -/
  readings : Nat → Float

/-- The variable that holds the path of the settings file. -/
def settingsVariable : Text := "LOX_CONFIG"

/-- The variable that holds the home directory. -/
def homeVariable : Text := "HOME"

/-- Finds and reads the settings. -/
def loadSettings {m : Type → Type} [Monad m] (host : Host m) (given : Text) :
    m (Except Settings.SettingsError Settings) := do
  let configured ← host.getVariable settingsVariable
  let home ← host.getVariable homeVariable
  let place := Settings.place given configured home
  match place.path? with
  | none => return Settings.ofFile place (.ok [])
  | some path => return Settings.ofFile place (← host.readFile path)

/-- A new session with the given options and settings. -/
def newSession (readings : Nat → Float) (options : Options) (settings : Settings) : Session :=
  { (Session.start readings).onMachine (Machine.setCallLimit settings.maxCallDepth) with
    verbose := options.verbose || settings.verbose
    coloured := settings.color.getD false }

/-- The step after an action of a session. -/
def Step.ofOutcome {α : Type} (outcome : Outcome α) (finish : α → Session → Report) : Step :=
  match outcome with
  | .done value session => .finished (finish value session)
  | .fault reason _ => .fault reason
  | .exhausted => .exhausted

def runSource (fuel : Nat) (source : Text) (session : Session) : Step :=
  .ofOutcome (session.run fuel source) fun _ session => .ofSession session session.exitStatus

/-- Checks a source without running it. -/
def checkSource (path source : Text) (session : Session) : Step :=
  .ofOutcome (session.check source) fun _ session =>
    if session.hadError then .ofSession session .badData
    else
      .ofSession
        (session.onMachine (Machine.writeLine (path ++ (": no errors found" : Text)))) .success

/-- Shows the outlines of the statements of a source. -/
def outlineSource (source : Text) (session : Session) : Step :=
  .ofOutcome (session.parse source) fun program session =>
    if session.hadError then .ofSession session .badData
    else
      let lines := program.map fun statement => statement.outline.render
      .ofSession (session.onMachine fun machine => lines.foldl (fun machine line =>
        machine.writeLine line) machine) .success

/-- Shows the outline of an expression. -/
def outlineExpression (source : Text) (session : Session) : Step :=
  let parsed := Source.expression source
  let session := session.reportAll parsed.diagnostics
  match parsed.result with
  | .error reason => .fault reason
  | .ok none => .finished (.ofSession session .badData)
  | .ok (some expr) =>
    if session.hadError then .finished (.ofSession session .badData)
    else
      .finished (.ofSession (session.onMachine (Machine.writeLine expr.outline.render)) .success)

/-- Reads a source file and goes on with its text. -/
def withSource {m : Type → Type} [Monad m] (host : Host m) (path : Text) (next : Text → Step) :
    m Step := do
  match ← host.readFile path with
  | .ok source => return next source
  | .error problem =>
    return .finished
      { errorOutput := ("Error reading file " : Text) ++ path ++ (": " : Text) ++
          problem.report path ++ [Text.newline]
        status := .noInput }

/-- Does the work of a command on its operand. -/
def work {m : Type → Type} [Monad m] (host : Host m) (fuel : Nat) (command : Command)
    (options : Options) (settings : Settings) (operand : Text) : m Step :=
  let session := newSession host.readings options settings
  match command with
  | .run => withSource host operand fun source =>
      runSource fuel source (session.log (("Running " : Text) ++ operand ++ ("..." : Text)))
  | .eval => return runSource fuel operand (session.log (("Evaluating: " : Text) ++ operand))
  | .check => withSource host operand fun source =>
      checkSource operand source
        (session.log (("Checking " : Text) ++ operand ++ ("..." : Text)))
  | .outline =>
    if options.expression then return outlineExpression operand session
    else withSource host operand fun source => outlineSource source session
  | .interact => return .interactive settings session

/-- Carries out a command with its arguments. -/
def runCommand {m : Type → Type} [Monad m] (host : Host m) (fuel : Nat) (command : Command)
    (arguments : List Text) : m Step := do
  match Options.parse command.flags {} arguments with
  | .error problem => return .finished (usageError command (some problem))
  | .ok options =>
    if options.operands.length ≠ command.arity then
      return .finished (usageError command none)
    else
      match ← loadSettings host options.settingsPath with
      | .error problem =>
        return .finished
          { errorOutput := ("Error: " : Text) ++ problem.message ++ [Text.newline]
            status := .badSettings }
      | .ok settings =>
        work host fuel command options settings (options.operands.headD [])

/-- Carries out what the arguments of the program ask for. -/
def start {m : Type → Type} [Monad m] (host : Host m) (fuel : Nat) (arguments : List Text) :
    m Step :=
  match Request.ofArguments arguments with
  | .help => return .finished { output := usage }
  | .unknown name =>
    return .finished
      { errorOutput := ("Unknown command: " : Text) ++ name ++ [Text.newline, Text.newline] ++ usage
        status := .usage }
  | .command command rest => runCommand host fuel command rest

end CommandLine

end Loxley
