import Loxley.Parser.Basic
import Loxley.Program

/-!
# Parsing expressions

Recursive descent from the loosest rule, assignment, through the strengths of the operators down to
calls and primary expressions. Every recursive rule takes fuel.
-/

set_option autoImplicit false

namespace Loxley.Parser

/-- How many parameters or arguments a function may have. -/
def maxArguments : Nat := 255

/-- The connective of a kind of token, if it has the given strength. -/
def connectiveOf (strength : Nat) (kind : TokenKind) : Option Connective :=
  (Connective.ofKind? kind).filter (·.strength == strength)

/-- The value of a token that is an expression by itself. -/
def constant? (token : Token) : Option Literal :=
  match token.kind with
  | .keyword .falseWord => some (.bool false)
  | .keyword .trueWord => some (.bool true)
  | .keyword .nilWord => some .nil
  | .number | .string => some token.literal
  | _ => none

mutual

/--
An assignment or anything tighter. Assignment is right-associative; a target other than a bare name
is reported, and the target is then the result.
-/
def expression : Nat → Parser (Expr Unit)
  | 0 => exhausted
  | fuel + 1 => do
    let target ← chain fuel 1
    match ← accept (.symbol .equal) with
    | none => pure target
    | some equals =>
      let value ← expression fuel
      match target with
      | .ident name reference => pure (.assign name reference value)
      | _ => do
        report equals .invalidAssignmentTarget
        pure target

/-- Operands joined by connectives of at least the given strength. -/
def chain : Nat → Nat → Parser (Expr Unit)
  | 0, _ => exhausted
  | fuel + 1, strength =>
    if strength ≤ Connective.tightest then do
      let first ← chain fuel (strength + 1)
      chainRest fuel strength first
    else unary fuel

/-- The rest of a chain after its leftmost part; connectives of one strength lean left. -/
def chainRest : Nat → Nat → Expr Unit → Parser (Expr Unit)
  | 0, _, _ => exhausted
  | fuel + 1, strength, left => do
    match ← acceptBy (connectiveOf strength) with
    | none => pure left
    | some (token, connective) =>
      let right ← chain fuel (strength + 1)
      chainRest fuel strength (.connect connective token left right)

/-- Unary operators before a call. -/
def unary : Nat → Parser (Expr Unit)
  | 0 => exhausted
  | fuel + 1 => do
    match ← acceptBy UnaryOp.ofKind? with
    | some (token, op) =>
      let operand ← unary fuel
      pure (.unary op token operand)
    | none =>
      let callee ← primary fuel
      callRest fuel callee

/-- Argument lists after a callee. -/
def callRest : Nat → Expr Unit → Parser (Expr Unit)
  | 0, _ => exhausted
  | fuel + 1, callee => do
    match ← accept (.symbol .leftParen) with
    | none => pure callee
    | some _ =>
      let arguments ← if ← nextIs (.symbol .rightParen) then pure [] else argumentsFrom fuel 0
      let paren ← require (.symbol .rightParen) .parenAfterArguments
      callRest fuel (.call paren callee arguments)

/-- Arguments separated by commas, after the given number of earlier ones. -/
def argumentsFrom : Nat → Nat → Parser (List (Expr Unit))
  | 0, _ => exhausted
  | fuel + 1, earlier => do
    if maxArguments ≤ earlier then reportHere .tooManyArguments
    let first ← expression fuel
    match ← accept (.symbol .comma) with
    | none => pure [first]
    | some _ =>
      let others ← argumentsFrom fuel (earlier + 1)
      pure (first :: others)

/-- Literals, names and parenthesized expressions. -/
def primary : Nat → Parser (Expr Unit)
  | 0 => exhausted
  | fuel + 1 => fun cursor =>
    match cursor.rest with
    | [] => fail .expression cursor
    | token :: rest =>
      match constant? token with
      | some value => .ok (.literal token value) [] { cursor with rest }
      | none =>
        if token.kind = .identifier then .ok (.ident token ()) [] { cursor with rest }
        else if token.kind = .symbol .leftParen then
          (do
            let inner ← expression fuel
            let _ ← require (.symbol .rightParen) .parenAfterExpression
            pure (.group token inner) : Parser (Expr Unit)) { cursor with rest }
        else fail .expression cursor

end

/-- An expression and nothing after it. -/
def wholeExpression (fuel : Nat) : Parser (Expr Unit) := do
  let value ← expression fuel
  if ← atEnd then pure value else fail .endOfExpression

end Loxley.Parser
