import Loxley.Session
import Loxley.Text.Rune

/-!
# The interactive prompt

Lines are collected into entries until strings, parentheses and braces are closed. An entry is a
command, a single expression whose value is shown, or a program.
-/

set_option autoImplicit false

namespace Loxley

namespace Prompt

/-- How much a token changes the number of open parentheses and braces. -/
def nesting (token : Token) : Int :=
  match token.kind with
  | .symbol .leftParen | .symbol .leftBrace => 1
  | .symbol .rightParen | .symbol .rightBrace => -1
  | _ => 0

/-- Whether a source has an unclosed string, or opens more parentheses and braces than it closes. -/
def isIncomplete (source : Text) : Except Fault Bool :=
  let scan := Scan.ofSource source
  match scan.overflow with
  | some numeral => .error (.numeralTooLarge numeral)
  | none =>
    .ok (scan.diagnostics.any (·.problem == .unterminatedString) ||
      0 < scan.tokens.foldr (fun token depth => nesting token + depth) 0)

/-- Whether a source is a single expression without any fault. -/
def isExpression (source : Text) : Except Fault Bool :=
  let parsed := Source.expression source
  match parsed.result with
  | .error reason => .error reason
  | .ok value => .ok (parsed.diagnostics.isEmpty && value.isSome)

/-- The first line of an interactive session. -/
def banner : Text := "Lox REPL. Type :help for help.\n"

/-- The text of the help command. -/
def helpText : Text :=
  "Enter statements or a bare expression to print its value.
Unclosed parentheses, braces and strings continue on the next line.

Commands:
    :help    Show this message
    :env     List global variables
    :quit    Leave the REPL (Ctrl+D also works)
"

/-- The commands of the prompt. -/
inductive Command where
  | quit
  | help
  | globals
  | unknown
deriving DecidableEq, Repr

/-- The command of an entry that starts with a colon. Its first word counts, in either case. -/
def Command.ofText (text : Text) : Command :=
  let word := text.firstWordLower
  if word = (":quit" : Text) ∨ word = (":exit" : Text) then .quit
  else if word = (":help" : Text) then .help
  else if word = (":env" : Text) then .globals
  else .unknown

/-- Carries out an entry. The value of a single expression is shown. -/
def carryOut (fuel : Nat) (source : Text) (session : Session) : Outcome Unit :=
  match isExpression source with
  | .error reason => .fault reason session
  | .ok true =>
    (session.evaluate fuel source).andThen fun value session =>
      match value with
      | .ok value => session.settle (session.machine.print value)
      | .error (.runtime problem) => .done () (session.reportRuntime problem)
      | .error (.badSource _) => .done () session
  | .ok false => session.run fuel source

/-- Carries out an entry and forgets its errors. -/
def runEntry (fuel : Nat) (source : Text) (session : Session) : Outcome Unit :=
  (carryOut fuel source session).ensuring Session.reset

/-- What comes from the person at the prompt. -/
inductive Input where
  | line (text : Text)
  /-- The current entry is abandoned. -/
  | interrupt
  | endOfInput

end Prompt

/-- The state of an interactive session between two inputs. -/
structure Prompt where
  session : Session
  /-- The lines of an entry that is not complete. -/
  pending : Text := []
  /-- Earlier entries, latest first. -/
  history : List Text := []

namespace Prompt

/-- How many entries are remembered. -/
def historyLimit : Nat := 1000

/-- Remembers an entry on one line, unless it repeats the one before it. -/
def remember (entry : Text) (history : List Text) : List Text :=
  let line := entry.map fun byte => if byte == Text.newline then 32 else byte
  if history.head? = some line then history else (line :: history).take historyLimit

/-- What happens after an input. -/
inductive Next where
  /-- Another input is wanted. -/
  | more (prompt : Prompt)
  | finished (prompt : Prompt)
  | fault (reason : Fault) (prompt : Prompt)
  /-- The fuel did not suffice. -/
  | exhausted

/-- Writes to the standard output of the session. -/
def write (text : Text) (prompt : Prompt) : Prompt :=
  { prompt with session := prompt.session.onMachine (Machine.write text) }

/-- Lists the global variables with their types and values, up to one whose value has no text. -/
def showGlobals (prompt : Prompt) : Next :=
  let lines := prompt.session.machine.globalValues.map fun (name, value) =>
    value.text?.map fun text =>
      name ++ (": " : Text) ++ value.typeName ++ (" = " : Text) ++ text ++ [Text.newline]
  let shown := prompt.write ((lines.takeWhile Option.isSome).flatMap (Option.getD · []))
  if lines.all Option.isSome then .more shown else .fault .foreignValue shown

/-- Takes a complete entry. -/
def enter (fuel : Nat) (source : Text) (prompt : Prompt) : Next :=
  let trimmed := source.trimSpace
  if trimmed.isEmpty then .more prompt
  else if trimmed.head? = some 58 then
    match Command.ofText trimmed with
    | .quit => .finished prompt
    | .help => .more (prompt.write helpText)
    | .globals => prompt.showGlobals
    | .unknown => .more (prompt.write "Unknown command. Type :help for help.\n")
  else
    match runEntry fuel source prompt.session with
    | .done _ session =>
      .more { prompt with session, history := remember source prompt.history }
    | .fault reason session => .fault reason { prompt with session }
    | .exhausted => .exhausted

def take (fuel : Nat) (input : Input) (prompt : Prompt) : Next :=
  match input with
  | .endOfInput => .finished (prompt.write [Text.newline])
  | .interrupt => .more { prompt with pending := [] }
  | .line text =>
    let source :=
      if prompt.pending.isEmpty then text else prompt.pending ++ Text.newline :: text
    match isIncomplete source with
    | .error reason => .fault reason prompt
    | .ok true => .more { prompt with pending := source }
    | .ok false => { prompt with pending := [] }.enter fuel source

end Prompt

end Loxley
