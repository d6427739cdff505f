import Loxley.Machine.Operation

/-!
# Running programs

The meaning of expressions, statements and calls as changes of the machine. Every step of the
recursion uses up fuel, so that programs that never end run out of it instead.
-/

set_option autoImplicit false

namespace Loxley

/-- How a statement ended: by itself, or by giving back a value from the function it is in. -/
inductive Completion where
  | normal
  | returned (value : Value)

namespace Completion

/-- The value of a function whose body ended so. -/
def value : Completion → Value
  | normal => .nil
  | returned value => value

end Completion

/-- Expressions in which every name has its distance. -/
abbrev ResolvedExpr := Expr (Option Nat)

/-- Statements in which every name has its distance. -/
abbrev ResolvedStmt := Stmt (Option Nat)

namespace Machine

mutual

def evaluate : Nat → ResolvedExpr → Machine → Result Value
  | 0, _, _ => .exhausted
  | fuel + 1, expr, machine =>
    match expr with
    | .literal _ value => .ok (.ofLiteral value) machine
    | .group _ inner => evaluate fuel inner machine
    | .unary op token operand =>
      (evaluate fuel operand machine).andThen fun value machine =>
      machine.finish token (op.apply value)
    | .binary op token left right =>
      (evaluate fuel left machine).andThen fun leftValue machine =>
      (evaluate fuel right machine).andThen fun rightValue machine =>
      machine.operate op token leftValue rightValue
    | .logical op _ left right =>
      (evaluate fuel left machine).andThen fun value machine =>
      if op.isDecidedBy value then .ok value machine else evaluate fuel right machine
    | .ident name reference => machine.read name reference
    | .assign name reference value =>
      (evaluate fuel value machine).andThen fun value machine =>
      machine.assign name value reference
    | .call paren callee arguments =>
      (evaluate fuel callee machine).andThen fun callee machine =>
      (evaluateAll fuel arguments machine).andThen fun arguments machine =>
      call fuel paren callee arguments machine

/-- Evaluates expressions from left to right. -/
def evaluateAll : Nat → List ResolvedExpr → Machine → Result (List Value)
  | 0, _, _ => .exhausted
  | _ + 1, [], machine => .ok [] machine
  | fuel + 1, first :: rest, machine =>
    (evaluate fuel first machine).andThen fun value machine =>
    (evaluateAll fuel rest machine).andThen fun values machine =>
    .ok (value :: values) machine

/--
Calls a value at the closing parenthesis of a call. It must be a function, the number of arguments
must be right, and there must be room for one more active call, in this order.
-/
def call : Nat → Token → Value → List Value → Machine → Result Value
  | 0, _, _, _, _ => .exhausted
  | fuel + 1, paren, callee, arguments, machine =>
    match callee.arity? with
    | none => .error { token := paren, mishap := .notCallable } machine
    | some arity =>
      if (arguments.length : Int) ≠ arity then
        .error { token := paren, mishap := .wrongArity arity arguments.length } machine
      else if machine.callLimit ≤ machine.depth then
        .error { token := paren, mishap := .callsTooDeep } machine
      else
        let depth := machine.depth
        ((apply fuel callee arguments { machine with depth := depth + 1 }).andThen
          fun reply machine => machine.conclude paren callee reply).ensuring
          fun machine => { machine with depth := depth }

/-- Applies a function without any of the checks of a call. -/
def apply : Nat → Value → List Value → Machine → Result HostReply
  | 0, _, _, _ => .exhausted
  | fuel + 1, callee, arguments, machine =>
    match callee with
    | .function closure =>
      if arguments.length < closure.parameters.length then .fault .badApplication machine
      else
        let previous := machine.current
        ((executeAll fuel closure.body
            (bindParameters closure.parameters arguments (machine.enter closure.scope))).andThen
          fun completion machine => .ok completion.value machine).reply.ensuring
          (leaveTo previous)
    | .native reference =>
      match machine.natives[reference.identity]? with
      | none => .fault .badApplication machine
      | some native =>
        (native.act native.calls machine.told arguments).perform (apply fuel)
          (machine.countCall reference.identity arguments)
    | _ => .fault .badApplication machine

def execute : Nat → ResolvedStmt → Machine → Result Completion
  | 0, _, _ => .exhausted
  | fuel + 1, stmt, machine =>
    match stmt with
    | .expression _ value =>
      (evaluate fuel value machine).andThen fun _ machine => .ok .normal machine
    | .print _ value =>
      (evaluate fuel value machine).andThen fun value machine =>
      (machine.print value).andThen fun _ machine => .ok .normal machine
    | .declare name none => .ok .normal (machine.declare name .nil)
    | .declare name (some initializer) =>
      (evaluate fuel initializer machine).andThen fun value machine =>
      .ok .normal (machine.declare name value)
    | .block _ body =>
      let previous := machine.current
      (executeAll fuel body (machine.enter previous)).ensuring (leaveTo previous)
    | .ifThen _ test consequent =>
      (evaluate fuel test machine).andThen fun value machine =>
      if value.isTruthy then execute fuel consequent machine else .ok .normal machine
    | .ifElse _ test consequent alternative =>
      (evaluate fuel test machine).andThen fun value machine =>
      if value.isTruthy then execute fuel consequent machine
      else execute fuel alternative machine
    | .loop keyword test body =>
      (evaluate fuel test machine).andThen fun value machine =>
      if value.isTruthy then
        let previous := machine.current
        ((executeAll fuel [body] (machine.enter previous)).ensuring (leaveTo previous)).andThen
          fun completion machine =>
            match completion with
            | .returned value => .ok (.returned value) machine
            | .normal => execute fuel (.loop keyword test body) machine
      else .ok .normal machine
    | .function name parameters body => .ok .normal (machine.declareFunction name parameters body)
    | .giveBack _ none => .ok (.returned .nil) machine
    | .giveBack _ (some value) =>
      (evaluate fuel value machine).andThen fun value machine => .ok (.returned value) machine

/-- Executes statements in order, up to the first one that gives back a value. -/
def executeAll : Nat → List ResolvedStmt → Machine → Result Completion
  | 0, _, _ => .exhausted
  | _ + 1, [], machine => .ok .normal machine
  | fuel + 1, first :: rest, machine =>
    (execute fuel first machine).andThen fun completion machine =>
      match completion with
      | .returned value => .ok (.returned value) machine
      | .normal => executeAll fuel rest machine

end

/-- Executes the statements of a program in order, up to the first error. -/
def interpret (fuel : Nat) : List ResolvedStmt → Machine → Result Unit
  | [], machine => .ok () machine
  | first :: rest, machine =>
    (execute fuel first machine).andThen fun _ machine => interpret fuel rest machine

end Machine

end Loxley
