import Loxley.CommandLine

/-!
# Conversations

A whole interactive session over given lines of input, and the history file that it leaves behind.
-/

set_option autoImplicit false

namespace Loxley

namespace Text

/-- The most bytes of a line that are taken at once. -/
def lineLimit : Nat := 4096

def carriageReturn : UInt8 := 13

/-- The bytes of a line, given in reverse, without a carriage return at its end. -/
def lineOfReverse : Text → Text
  | [] => []
  | byte :: rest => if byte == carriageReturn then rest.reverse else (byte :: rest).reverse

/-- A line of input. -/
structure Line where
  text : Text
  /-- Whether the line goes on in the next one, for it is too long to be taken at once. -/
  isPart : Bool := false

/--
The lines of a text after some bytes of the first line, given in reverse with their number. A carriage
return before a newline is dropped; a part of a line leaves it to the next part.
-/
def linesFrom (count : Nat) (reversed : Text) : Text → List Line
  | [] => if reversed.isEmpty then [] else [{ text := reversed.reverse }]
  | byte :: rest =>
    if byte == newline then { text := lineOfReverse reversed } :: linesFrom 0 [] rest
    else if count + 1 < lineLimit then linesFrom (count + 1) (byte :: reversed) rest
    else if byte == carriageReturn then
      { text := reversed.reverse, isPart := true } :: linesFrom 1 [byte] rest
    else { text := (byte :: reversed).reverse, isPart := true } :: linesFrom 0 [] rest

def lines (text : Text) : List Line :=
  linesFrom 0 [] text

/-- Whether a text is valid UTF-8. -/
def isValid (text : Text) : Bool :=
  (Rune.ofText text).all fun rune => rune.code != Rune.replacement || rune.bytes.length == 3

end Text

namespace Prompt

/-! ## History -/

/-- The entries of a history file, latest first, up to a line that is too long or not valid. -/
def historyOfText (text : Text) : List Text :=
  let usable := (Text.lines text).takeWhile fun line => !line.isPart && Text.isValid line.text
  (usable.map (·.text)).reverse.take historyLimit

def historyText (prompt : Prompt) : Text :=
  prompt.history.reverse.flatMap (· ++ [Text.newline])

/-! ## The session -/

def shown (settings : Settings) (prompt : Prompt) : Text :=
  if prompt.pending.isEmpty then settings.prompt else settings.continuationPrompt

/-- The start of a session at the prompt, with an earlier history. -/
def welcome (session : Session) (history : List Text) : Prompt :=
  Prompt.write banner { session, history }

/-- Shows the prompt and takes lines until the session ends. -/
def converse (fuel : Nat) (settings : Settings) : List Text → Prompt → Next
  | [], prompt => (prompt.write (prompt.shown settings)).take fuel .endOfInput
  | line :: rest, prompt =>
    match (prompt.write (prompt.shown settings)).take fuel (.line line) with
    | .more next => converse fuel settings rest next
    | last => last

end Prompt

namespace CommandLine

/-- A host with files in memory. -/
def Host.ofTree (tree : FileTree) (environment : Text → Text) (readings : Nat → Float) : Host Id where
  readFile := tree.read
  getVariable := environment
  readings := readings

/-- How a run of the program on files in memory ends. -/
inductive Ending where
  | finished (report : Report) (tree : FileTree)
  | fault (reason : Fault)
  /-- The fuel did not suffice. -/
  | exhausted

/--
Runs the program in a directory with the given environment, arguments and standard input. A session
at the prompt starts with the entries of the history file and writes them back with its own at the
end.
-/
def runIn (tree : FileTree) (environment : Text → Text) (readings : Nat → Float) (fuel : Nat)
    (arguments : List Text) (input : Text) : Ending :=
  match (start (Host.ofTree tree environment readings) fuel arguments).run with
  | .finished report => .finished report tree
  | .fault reason => .fault reason
  | .exhausted => .exhausted
  | .interactive settings session =>
    let path := settings.historyPath (environment homeVariable)
    let history :=
      match tree.read path with
      | .ok text => Prompt.historyOfText text
      | .error _ => []
    let lines := (Text.lines input).map (·.text)
    match Prompt.converse fuel settings lines (Prompt.welcome session history) with
    | .more prompt | .finished prompt =>
      .finished (.ofSession prompt.session .success) (tree.write path prompt.historyText)
    | .fault reason _ => .fault reason
    | .exhausted => .exhausted

end CommandLine

end Loxley
