import Loxley.Prompt.Conversation

/-!
# The program

Connects the command line with the files, the variables and the terminal of the system.
-/

set_option autoImplicit false

namespace Loxley.Terminal

/-- The steps that a run may take; more than any machine can count. -/
def fuel : Nat := Nat.pow 2 62

def put (stream : IO.FS.Stream) (text : Text) : IO Unit := do
  stream.write ⟨text.toArray⟩
  stream.flush

/-- The reason for which the system refuses a file. -/
def problemOf : IO.Error → FileProblem
  | .noFileOrDirectory _ _ _ => .notFound
  | .permissionDenied _ _ _ => .denied
  | .inappropriateType _ code _ =>
    if code == 21 then .isDirectory else .notDirectory
  | problem => .other (Text.ofString problem.toString)

/-- The file name that bytes stand for. -/
def fileName? (path : Text) : Option String :=
  String.fromUTF8? ⟨path.toArray⟩

def readFile (path : Text) : IO (Except FileProblem Text) := do
  match fileName? path with
  | none => return .error .notFound
  | some name =>
    try
      let content ← IO.FS.readBinFile name
      return .ok content.toList
    catch problem => return .error (problemOf problem)

/-- Writes a file of the system, if that is possible. -/
def writeFile (path content : Text) : IO Unit := do
  match fileName? path with
  | none => return
  | some name =>
    try IO.FS.writeBinFile name ⟨content.toArray⟩
    catch _ => return

/-- The value of an environment variable, empty if it is not set. -/
def getVariable (name : Text) : IO Text := do
  match fileName? name with
  | none => return []
  | some key => return ((← IO.getEnv key).map Text.ofString).getD []

/-- The system as a host, whose clock stands at the time of the start. -/
def systemHost : IO (CommandLine.Host IO) := do
  let now ← IO.monoNanosNow
  return { readFile, getVariable, readings := fun _ => now.toFloat / 1000000000.0 }

/-- Writes what a session has added to its output since an earlier state. -/
def showSince (earlier later : Prompt) : IO Unit := do
  let news (before after : Array Text) : Text := (after.toList.drop before.size).flatten
  put (← IO.getStdout) (news earlier.session.machine.output later.session.machine.output)
  put (← IO.getStderr) (news earlier.session.errorOutput later.session.errorOutput)

/-- Reports a fault and gives the status of the program. -/
def reportFault (reason : Fault) : IO UInt32 := do
  put (← IO.getStderr) (("panic: " : Text) ++ reason.message ++ [Text.newline])
  return 2

/-- Takes lines from standard input until the session ends. -/
partial def converse (settings : Settings) (historyPath : Text) (prompt : Prompt) : IO UInt32 := do
  let asked := prompt.write (prompt.shown settings)
  showSince prompt asked
  let line ← (← IO.getStdin).getLine
  let input : Prompt.Input :=
    match Text.lines (Text.ofString line) with
    | [] => .endOfInput
    | first :: _ => .line first.text
  match asked.take fuel input with
  | .more next =>
    showSince asked next
    converse settings historyPath next
  | .finished last =>
    showSince asked last
    writeFile historyPath last.historyText
    return 0
  | .fault reason last =>
    showSince asked last
    writeFile historyPath last.historyText
    reportFault reason
  | .exhausted => return 2

def run (arguments : List Text) : IO UInt32 := do
  match ← CommandLine.start (← systemHost) fuel arguments with
  | .finished report =>
    put (← IO.getStdout) report.output
    put (← IO.getStderr) report.errorOutput
    return report.status.code.toUInt32
  | .fault reason => reportFault reason
  | .exhausted => return 2
  | .interactive settings session =>
    let historyPath := settings.historyPath (← getVariable CommandLine.homeVariable)
    let history :=
      match ← readFile historyPath with
      | .ok text => Prompt.historyOfText text
      | .error _ => []
    let prompt := Prompt.welcome session history
    showSince { session } prompt
    converse settings historyPath prompt

end Loxley.Terminal

def main (arguments : List String) : IO UInt32 :=
  Loxley.Terminal.run (arguments.map Loxley.Text.ofString)
