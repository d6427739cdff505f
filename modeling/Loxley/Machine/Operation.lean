import Loxley.Machine

/-!
# Operations on values

The operators of the language, the access to variables, and what host functions do and give back.
-/

set_option autoImplicit false

namespace Loxley

def UnaryOp.apply : UnaryOp → Value → Except Mishap Value
  | .not, operand => .ok (.bool !operand.isTruthy)
  | .negate, .number operand => .ok (.number (-operand))
  | .negate, _ => .error .operandNotNumber

/-- The sum of two numbers, or a string followed by a string or by the text of a number. -/
def Value.add : Value → Value → Except Mishap Value
  | .number left, .number right => .ok (.number (left + right))
  | .string left, .string right => .ok (.string (left ++ right))
  | .string left, .number right => .ok (.string (left ++ Number.display right))
  | _, _ => .error .operandsNotAddable

/-- The value of an operation that needs two numbers. -/
def Value.onNumbers (operation : Float → Float → Except Mishap Value) :
    Value → Value → Except Mishap Value
  | .number left, .number right => operation left right
  | _, _ => .error .operandsNotNumbers

def BinaryOp.apply : BinaryOp → Value → Value → Except Mishap Value
  | .equal, left, right => .ok (.bool (left.same right))
  | .notEqual, left, right => .ok (.bool !(left.same right))
  | .add, left, right => left.add right
  | .subtract, left, right => Value.onNumbers (fun l r => .ok (.number (l - r))) left right
  | .multiply, left, right => Value.onNumbers (fun l r => .ok (.number (l * r))) left right
  | .divide, left, right =>
    Value.onNumbers
      (fun l r => if r == 0 then .error .divisionByZero else .ok (.number (l / r))) left right
  | .greater, left, right => Value.onNumbers (fun l r => .ok (.bool (r < l))) left right
  | .greaterEqual, left, right => Value.onNumbers (fun l r => .ok (.bool (r ≤ l))) left right
  | .less, left, right => Value.onNumbers (fun l r => .ok (.bool (l < r))) left right
  | .lessEqual, left, right => Value.onNumbers (fun l r => .ok (.bool (l ≤ r))) left right

/-- Whether the left operand decides the value of a logical operator. -/
def LogicalOp.isDecidedBy : LogicalOp → Value → Bool
  | .or, left => left.isTruthy
  | .and, left => !left.isTruthy

/-- The type of two operands that the operator compares, but that cannot be compared. -/
def BinaryOp.clash? : BinaryOp → Value → Value → Option Text
  | .equal, .foreign left, .foreign right | .notEqual, .foreign left, .foreign right =>
    left.clash? right
  | _, _, _ => none

/-- The value that a program gets for what a host function gave back. -/
def Value.ofHost (native : Text) : Value → Except Mishap Value
  | .foreign (.integer _ given) => .ok (.number (Number.ofInt given))
  | .foreign (.single given) => .ok (.number given.toFloat)
  | .foreign (.other typeName _) => .error (.unsupportedResult native typeName)
  | value => .ok value

/-- The error of a program for an error of the host at a token. -/
def HostError.at (token : Token) (error : HostError) : RuntimeError :=
  error.cause.getD { token, mishap := .host error.text error.text }

namespace Machine

/-- Ends with a value, or with an error at a token. -/
def finish (machine : Machine) (token : Token) : Except Mishap Value → Result Value
  | .ok value => .ok value machine
  | .error mishap => .error { token, mishap } machine

def operate (machine : Machine) (op : BinaryOp) (token : Token) (left right : Value) :
    Result Value :=
  match op.clash? left right with
  | some typeName => .fault (.incomparable typeName) machine
  | none => machine.finish token (op.apply left right)

/-- Writes a value as a line to standard output. -/
def print (machine : Machine) (value : Value) : Result Unit :=
  match value.text? with
  | some text => .ok () (machine.writeLine text)
  | none => .fault .foreignValue machine

/-- The error for a variable that does not exist. -/
def undefined {α : Type} (machine : Machine) (name : Token) : Result α :=
  .error { token := name, mishap := .undefinedVariable name.lexeme } machine

/-- Reads a variable: a local one at its distance, or else a global one. -/
def read (machine : Machine) (name : Token) : Option Nat → Result Value
  | none =>
    match machine.heap.get? globals name.lexeme with
    | some value => .ok value machine
    | none => machine.undefined name
  | some distance =>
    match machine.heap.getAt machine.current distance name.lexeme with
    | .error reason => .fault reason machine
    | .ok (some value) => .ok value machine
    | .ok none => machine.undefined name

/-- Assigns a variable that exists: a local one at its distance, or else a global one. -/
def assign (machine : Machine) (name : Token) (value : Value) : Option Nat → Result Value
  | none =>
    match machine.heap.owner? globals name.lexeme with
    | some owner =>
      .ok value { machine with heap := machine.heap.define owner name.lexeme value }
    | none => machine.undefined name
  | some distance =>
    match machine.heap.ownerAt machine.current distance name.lexeme with
    | .error reason => .fault reason machine
    | .ok (some owner) =>
      .ok value { machine with heap := machine.heap.define owner name.lexeme value }
    | .ok none => machine.undefined name

/-- Declares a variable in the current environment. -/
def declare (machine : Machine) (name : Token) (value : Value) : Machine :=
  { machine with heap := machine.heap.define machine.current name.lexeme value }

/-- Makes a closure over the current environment and declares it there. -/
def declareFunction (machine : Machine) (name : Token) (parameters : List Token)
    (body : List (Stmt (Option Nat))) : Machine :=
  let closure : Closure :=
    { identity := machine.closures, name, parameters, body, scope := machine.current }
  { machine with
    heap := machine.heap.define machine.current name.lexeme (.function closure)
    closures := machine.closures + 1 }

/-- Enters a new environment inside a given one. -/
def enter (machine : Machine) (enclosing : EnvironmentId) : Machine :=
  let fresh := machine.heap.next
  { machine with heap := machine.heap.create (some enclosing), current := fresh }

/-- Goes back to an earlier environment. -/
def leaveTo (environment : EnvironmentId) (machine : Machine) : Machine :=
  { machine with current := environment }

/-- Declares parameters with the arguments given for them. -/
def bindParameters : List Token → List Value → Machine → Machine
  | parameter :: parameters, argument :: arguments, machine =>
    bindParameters parameters arguments (machine.declare parameter argument)
  | _, _, machine => machine

/-- The name of a host function; other values have none. -/
def nativeName (machine : Machine) : Value → Text
  | .native reference => (machine.natives[reference.identity]?.map (·.name)).getD []
  | _ => []

/-- Counts one more call of a host function, and lets the host know of it. -/
def countCall (identity : Nat) (arguments : List Value) (machine : Machine) : Machine :=
  { machine with
    natives := machine.natives.modify identity fun native =>
      { native with calls := native.calls + 1 }
    told := .called identity arguments :: machine.told }

/-- Lets the host know what a function gave back. -/
def tell (reply : HostReply) (machine : Machine) : Machine :=
  { machine with told := .replied reply :: machine.told }

/--
Ends a call at a token with what the function gave back. Only the values of host functions are
converted.
-/
def conclude (machine : Machine) (token : Token) (callee : Value) (reply : HostReply) : Result Value :=
  match reply.error, callee with
  | some error, _ => .error (error.at token) machine
  | none, .native _ => machine.finish token (reply.value.ofHost (machine.nativeName callee))
  | none, _ => .ok reply.value machine

end Machine

/-- Carries out what a host function does, given how functions are applied. -/
def HostAction.perform (apply : Value → List Value → Machine → Result HostReply) :
    HostAction → Machine → Result HostReply
  | .answer reply, machine => .ok reply machine
  | .apply callee arguments next, machine =>
    (apply callee arguments machine).andThen fun reply machine =>
    (next (machine.tell reply).told reply).perform apply (machine.tell reply)

end Loxley
