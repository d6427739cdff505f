import Loxley.Environment
import Loxley.Fault
import Loxley.RuntimeError
import Loxley.Scope

/-!
# The machine

The state in which programs run: the environments, the functions of the host and what the host got
to know, the current scope, the number of active calls, the distances of local variables, and what
has been printed.
-/

set_option autoImplicit false

namespace Loxley

/-- An error in the hands of the host: its text, and the error of a program that it stems from. -/
structure HostError where
  text : Text
  cause : Option RuntimeError := none

/-- What a function gives back to the host. -/
structure HostReply where
  value : Value := .nil
  error : Option HostError := none

/-- What the host gets to know. -/
inductive HostEvent where
  | called (identity : Nat) (arguments : List Value)
  | replied (reply : HostReply)

/--
What a host function does. It may apply functions, and goes on from what each of them gives back and
from all that the host knows by then, latest first.
-/
inductive HostAction where
  | answer (reply : HostReply)
  | apply (callee : Value) (arguments : List Value) (next : List HostEvent → HostReply → HostAction)

/--
A function of the host. What it does may depend on how often it was called before and on all that
the host knows.
-/
structure Native where
  name : Text
  act : Nat → List HostEvent → List Value → HostAction
  calls : Nat := 0

/-- How many calls may be active unless another limit is set. -/
def defaultCallLimit : Nat := 4096

/-- The state of a running program. -/
structure Machine where
  /-- The environments; the first one holds the globals. -/
  heap : Heap
  /-- The environment of the code that is running. -/
  current : EnvironmentId := 0
  /-- How many calls are active. -/
  depth : Nat := 0
  /-- How many calls may be active at once. -/
  callLimit : Nat := defaultCallLimit
  /-- How many closures have been made. -/
  closures : Nat := 0
  natives : Array Native := #[]
  /-- What the host got to know, latest first. -/
  told : List HostEvent := []
  /-- The distances found by scope analysis for all programs so far. -/
  locals : List (NameUse Nat) := []
  /-- What has been written to standard output, piece by piece. -/
  output : Array Text := #[]

namespace Machine

def globals : EnvironmentId := 0

/-- Adds a function to the host's table without binding a name to it. -/
def addNative (native : Native) (machine : Machine) : Machine :=
  { machine with natives := machine.natives.push native }

/-- The reference to the function that is added to the host's table next. -/
def nextNative (machine : Machine) (arity : Int) : Value :=
  .native { identity := machine.natives.size, arity }

def defineGlobal (name : Text) (value : Value) (machine : Machine) : Machine :=
  { machine with heap := machine.heap.define globals name value }

/-- Adds a host function and binds a global variable to it. -/
def defineNative (arity : Int) (native : Native) (machine : Machine) : Machine :=
  let reference := machine.nextNative arity
  (machine.addNative native).defineGlobal native.name reference

/-- The host function that tells the time in seconds, given its successive readings. -/
def clock (readings : Nat → Float) : Native where
  name := "clock"
  act calls _ _ := .answer { value := .number (readings calls) }

/-- A machine on which nothing has run. Only the clock is defined. -/
def start (readings : Nat → Float) : Machine :=
  let empty : Machine := { heap := ({} : Heap).create none }
  empty.defineNative 0 (clock readings)

/-- Sets how many calls may be active at once; a limit below one restores the default. -/
def setCallLimit (limit : Int) (machine : Machine) : Machine :=
  { machine with callLimit := if limit < 1 then defaultCallLimit else limit.toNat }

/-- Keeps the distances of a program. -/
def resolve (program : List (Stmt (Option Nat))) (machine : Machine) : Machine :=
  { machine with locals := Stmt.locals program ++ machine.locals }

def write (text : Text) (machine : Machine) : Machine :=
  { machine with output := machine.output.push text }

def writeLine (text : Text) (machine : Machine) : Machine :=
  machine.write (text ++ [Text.newline])

/-- The global variables with their values, in byte order of their names. -/
def globalValues (machine : Machine) : List (Text × Value) :=
  machine.heap.contents globals

end Machine

/-- How a computation on a machine ended. -/
inductive Result (α : Type) where
  | ok (value : α) (machine : Machine)
  | error (problem : RuntimeError) (machine : Machine)
  | fault (reason : Fault) (machine : Machine)
  /-- The fuel did not suffice. -/
  | exhausted

namespace Result

variable {α β : Type}

/-- Goes on with the value of a computation, if it has one. -/
@[inline] def andThen (result : Result α) (next : α → Machine → Result β) : Result β :=
  match result with
  | .ok value machine => next value machine
  | .error problem machine => .error problem machine
  | .fault reason machine => .fault reason machine
  | .exhausted => .exhausted

/-- Changes the machine at the end of a computation, however it ended. -/
@[inline] def ensuring (result : Result α) (change : Machine → Machine) : Result α :=
  match result with
  | .ok value machine => .ok value (change machine)
  | .error problem machine => .error problem (change machine)
  | .fault reason machine => .fault reason (change machine)
  | .exhausted => .exhausted

/-- Hands the end of a computation to the host, which may go on after an error. -/
@[inline] def reply (result : Result Value) : Result HostReply :=
  match result with
  | .ok value machine => .ok { value } machine
  | .error problem machine =>
    .ok { error := some { text := problem.text, cause := some problem } } machine
  | .fault reason machine => .fault reason machine
  | .exhausted => .exhausted

end Result

end Loxley
