import Loxley.Session

/-!
# Lexical scoping without distances

A semantics of programs in which a local scope is a map from names to cells of a store. Executing a
local declaration takes a fresh cell and extends the map for the code after it, and for a function
for its own body too. A closure keeps the map of its declaration. Names that the map lacks are
global.
-/

set_option autoImplicit false

namespace Loxley

namespace Lexical

/-- The place of a local variable in the store. -/
abbrev CellId := Nat

/-- The local variables in sight with their cells, latest first. -/
abbrev Names := List (Text × CellId)

/-- Where code stands: outside of all local scopes, or inside some. -/
inductive Place where
  | top
  | inner (names : Names)

/-- The local variables in sight at a place. -/
def Place.names : Place → Names
  | top => []
  | inner names => names

/-- A function with the names that were in sight at its declaration, itself included. -/
structure Closure where
  identity : Nat
  name : Token
  parameters : List Token
  body : List (Stmt Unit)
  names : Names

/-- Values at run time. -/
inductive Value where
  /-- Anything but a function of the program. -/
  | plain (value : Loxley.Value)
  | function (closure : Closure)

end Lexical

/-- A value as operators see it: a function without its code. -/
def Value.outline : Value → Value
  | .function closure => .function { closure with body := [], scope := Machine.globals }
  | other => other

namespace Lexical

/-- The same of a value in this semantics. -/
def Value.outline : Value → Loxley.Value
  | plain value => value
  | function closure =>
    .function
      { identity := closure.identity
        name := closure.name
        parameters := closure.parameters
        body := []
        scope := Machine.globals }

/-- The state of a running program. -/
structure State where
  /-- The values of the local variables, one cell for each that was ever declared. -/
  cells : Array Value := #[]
  /-- The table of the global variables. -/
  globals : List (Text × Value)
  depth : Nat := 0
  callLimit : Nat := defaultCallLimit
  closures : Nat := 0
  /-- What the clock shows from one call to the next. -/
  readings : Nat → Float
  clockCalls : Nat := 0
  output : Array Text := #[]

/-- How a computation ended. It never gets stuck. -/
inductive Result (α : Type) where
  | ok (value : α) (state : State)
  | error (problem : RuntimeError) (state : State)
  /-- The fuel did not suffice. -/
  | exhausted

namespace Result

variable {α β : Type}

/-- Goes on with the value of a computation, if it has one. -/
def andThen (result : Result α) (next : α → State → Result β) : Result β :=
  match result with
  | .ok value state => next value state
  | .error problem state => .error problem state
  | .exhausted => .exhausted

/-- Changes the state at the end of a computation, however it ended. -/
def ensuring (result : Result α) (change : State → State) : Result α :=
  match result with
  | .ok value state => .ok value (change state)
  | .error problem state => .error problem (change state)
  | .exhausted => .exhausted

end Result

/-- How a statement ended: by itself, with the place of the code after it, or by giving back. -/
inductive Completion where
  | normal (place : Place)
  | returned (value : Value)

namespace Completion

/-- The value of a function whose body ended so. -/
def value : Completion → Value
  | normal _ => .plain .nil
  | returned value => value

/-- The completion of a scope that ended so, seen from the place around it. -/
def leaveTo (place : Place) : Completion → Completion
  | normal _ => normal place
  | returned value => returned value

end Completion

/-- Sets the variable of a name in a table, adding it if it is missing. -/
def setVariable (name : Text) (value : Value) : List (Text × Value) → List (Text × Value)
  | [] => [(name, value)]
  | entry :: others =>
    if entry.1 == name then (name, value) :: others else entry :: setVariable name value others

namespace State

/-- A state in which nothing has run. Only the clock is defined. -/
def start (readings : Nat → Float) : State where
  globals := [("clock", .plain (.native { identity := 0, arity := 0 }))]
  readings

/-- Ends with a plain value, or with an error at a token. -/
def finish (state : State) (token : Token) : Except Mishap Loxley.Value → Result Value
  | .ok value => .ok (.plain value) state
  | .error mishap => .error { token, mishap } state

/-- The error for a variable that does not exist. -/
def undefined {α : Type} (state : State) (name : Token) : Result α :=
  .error { token := name, mishap := .undefinedVariable name.lexeme } state

/-- Reads a variable: a local one in its cell, or else a global one. -/
def read (state : State) (names : Names) (name : Token) : Result Value :=
  match names.lookup name.lexeme with
  | some cell => .ok (state.cells.getD cell (.plain .nil)) state
  | none =>
    match state.globals.lookup name.lexeme with
    | some value => .ok value state
    | none => state.undefined name

/-- Assigns a variable that exists: a local one in its cell, or else a global one. -/
def assign (state : State) (names : Names) (name : Token) (value : Value) : Result Value :=
  match names.lookup name.lexeme with
  | some cell => .ok value { state with cells := state.cells.setIfInBounds cell value }
  | none =>
    match state.globals.lookup name.lexeme with
    | some _ =>
      .ok value { state with globals := setVariable name.lexeme value state.globals }
    | none => state.undefined name

/-- The names in sight once a name is declared, which takes the next cell. -/
def extend (state : State) (name : Token) (names : Names) : Names :=
  (name.lexeme, state.cells.size) :: names

/-- The place of the code after a declaration. -/
def after (state : State) (name : Token) : Place → Place
  | .top => .top
  | .inner names => .inner (state.extend name names)

/-- Declares a variable: a global one at the top, and else a local one in a fresh cell. -/
def declare (state : State) (place : Place) (name : Token) (value : Value) : State :=
  match place with
  | .top => { state with globals := setVariable name.lexeme value state.globals }
  | .inner _ => { state with cells := state.cells.push value }

/-- Makes a closure over the names in sight after its declaration, and declares it. -/
def declareFunction (state : State) (place : Place) (name : Token) (parameters : List Token)
    (body : List (Stmt Unit)) : State :=
  let closure : Closure :=
    { identity := state.closures, name, parameters, body, names := (state.after name place).names }
  { state.declare place name (.function closure) with closures := state.closures + 1 }

/-- Declares parameters with the arguments given for them. -/
def bindParameters : List Token → List Value → Place → State → Place × State
  | parameter :: parameters, argument :: arguments, place, state =>
    bindParameters parameters arguments (state.after parameter place)
      (state.declare place parameter argument)
  | _, _, place, state => (place, state)

/-- Writes a line to standard output. -/
def writeLine (text : Text) (state : State) : State :=
  { state with output := state.output.push (text ++ [Text.newline]) }

/-- The global variables with their values, in byte order of their names. -/
def globalValues (state : State) : List (Text × Value) :=
  ((state.globals.map (·.1)).mergeSort Text.le).filterMap fun name =>
    (state.globals.lookup name).map fun value => (name, value)

end State

open State

mutual

/-- Evaluates an expression. -/
def evaluate : Nat → Names → Expr Unit → State → Result Value
  | 0, _, _, _ => .exhausted
  | fuel + 1, names, expr, state =>
    match expr with
    | .literal _ value => .ok (.plain (.ofLiteral value)) state
    | .group _ inner => evaluate fuel names inner state
    | .unary op token operand =>
      (evaluate fuel names operand state).andThen fun value state =>
      state.finish token (op.apply value.outline)
    | .binary op token left right =>
      (evaluate fuel names left state).andThen fun leftValue state =>
      (evaluate fuel names right state).andThen fun rightValue state =>
      state.finish token (op.apply leftValue.outline rightValue.outline)
    | .logical op _ left right =>
      (evaluate fuel names left state).andThen fun value state =>
      if op.isDecidedBy value.outline then .ok value state else evaluate fuel names right state
    | .ident name _ => state.read names name
    | .assign name _ value =>
      (evaluate fuel names value state).andThen fun value state =>
      state.assign names name value
    | .call paren callee arguments =>
      (evaluate fuel names callee state).andThen fun callee state =>
      (evaluateAll fuel names arguments state).andThen fun arguments state =>
      call fuel paren callee arguments state

/-- Evaluates expressions from left to right. -/
def evaluateAll : Nat → Names → List (Expr Unit) → State → Result (List Value)
  | 0, _, _, _ => .exhausted
  | _ + 1, _, [], state => .ok [] state
  | fuel + 1, names, first :: rest, state =>
    (evaluate fuel names first state).andThen fun value state =>
    (evaluateAll fuel names rest state).andThen fun values state =>
    .ok (value :: values) state

/-- Calls a value at the closing parenthesis of a call, after the same checks as on the machine. -/
def call : Nat → Token → Value → List Value → State → Result Value
  | 0, _, _, _, _ => .exhausted
  | fuel + 1, paren, callee, arguments, state =>
    match callee.outline.arity? with
    | none => .error { token := paren, mishap := .notCallable } state
    | some arity =>
      if (arguments.length : Int) ≠ arity then
        .error { token := paren, mishap := .wrongArity arity arguments.length } state
      else if state.callLimit ≤ state.depth then
        .error { token := paren, mishap := .callsTooDeep } state
      else
        (apply fuel callee arguments { state with depth := state.depth + 1 }).ensuring
          fun after => { after with depth := state.depth }

/-- Applies a function. Its parameters extend its own copy of the names that it has kept. -/
def apply : Nat → Value → List Value → State → Result Value
  | 0, _, _, _ => .exhausted
  | fuel + 1, .function closure, arguments, state =>
    let (place, state) :=
      bindParameters closure.parameters arguments (.inner closure.names) state
    (executeAll fuel place closure.body state).andThen fun completion state =>
    .ok completion.value state
  /- The only function of the host is the clock. -/
  | _ + 1, .plain _, _, state =>
    .ok (.plain (.number (state.readings state.clockCalls)))
      { state with clockCalls := state.clockCalls + 1 }

/-- Executes a statement. -/
def execute : Nat → Place → Stmt Unit → State → Result Completion
  | 0, _, _, _ => .exhausted
  | fuel + 1, place, stmt, state =>
    match stmt with
    | .expression _ value =>
      (evaluate fuel place.names value state).andThen fun _ state => .ok (.normal place) state
    | .print _ value =>
      (evaluate fuel place.names value state).andThen fun value state =>
      -- All values have a text, as the clock gives back nothing but numbers.
      .ok (.normal place) (state.writeLine (value.outline.text?.getD []))
    | .declare name none =>
      .ok (.normal (state.after name place)) (state.declare place name (.plain .nil))
    | .declare name (some initializer) =>
      (evaluate fuel place.names initializer state).andThen fun value state =>
      .ok (.normal (state.after name place)) (state.declare place name value)
    | .block _ body =>
      (executeAll fuel (.inner place.names) body state).andThen fun completion state =>
      .ok (completion.leaveTo place) state
    | .ifThen _ test consequent =>
      (evaluate fuel place.names test state).andThen fun value state =>
      if value.outline.isTruthy then execute fuel place consequent state
      else .ok (.normal place) state
    | .ifElse _ test consequent alternative =>
      (evaluate fuel place.names test state).andThen fun value state =>
      if value.outline.isTruthy then execute fuel place consequent state
      else execute fuel place alternative state
    | .loop keyword test body =>
      (evaluate fuel place.names test state).andThen fun value state =>
      if value.outline.isTruthy then
        (executeAll fuel (.inner place.names) [body] state).andThen fun completion state =>
          match completion with
          | .returned value => .ok (.returned value) state
          | .normal _ => execute fuel place (.loop keyword test body) state
      else .ok (.normal place) state
    | .function name parameters body =>
      .ok (.normal (state.after name place)) (state.declareFunction place name parameters body)
    | .giveBack _ none => .ok (.returned (.plain .nil)) state
    | .giveBack _ (some value) =>
      (evaluate fuel place.names value state).andThen fun value state =>
      .ok (.returned value) state

/-- Executes statements in order, each at the place that those before it leave. -/
def executeAll : Nat → Place → List (Stmt Unit) → State → Result Completion
  | 0, _, _, _ => .exhausted
  | _ + 1, place, [], state => .ok (.normal place) state
  | fuel + 1, place, first :: rest, state =>
    (execute fuel place first state).andThen fun completion state =>
      match completion with
      | .returned value => .ok (.returned value) state
      | .normal place => executeAll fuel place rest state

end

/-- Executes the statements of a program in order, up to the first error. -/
def interpret (fuel : Nat) : List (Stmt Unit) → State → Result Unit
  | [], state => .ok () state
  | first :: rest, state =>
    (execute fuel .top first state).andThen fun _ state => interpret fuel rest state

end Lexical

end Loxley
