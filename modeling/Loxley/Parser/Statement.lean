import Loxley.Parser.Expression
import Loxley.Token.Lexer

/-!
# Parsing programs

Declarations and statements. A declaration that gives up is left out, and parsing goes on with the
next statement.
-/

set_option autoImplicit false

namespace Loxley.Parser

/-- An expression, unless the next token is of a kind that stands for its absence. -/
def optionalExpression (fuel : Nat) (absent : TokenKind) : Parser (Option (Expr Unit)) := do
  if ← nextIs absent then pure none
  else
    let value ← expression fuel
    pure (some value)

/-- An expression and its semicolon. -/
def expressionStatement (fuel : Nat) : Parser (Stmt Unit) := do
  let value ← expression fuel
  let _ ← require (.symbol .semicolon) .semicolonAfterExpression
  pure (.expression value.token value)

/-- A variable declaration after its keyword. -/
def variableDeclaration (fuel : Nat) : Parser (Stmt Unit) := do
  let name ← require .identifier .variableName
  match ← accept (.symbol .equal) with
  | none =>
    let _ ← require (.symbol .semicolon) .semicolonAfterVariable
    pure (.declare name none)
  | some _ =>
    let value ← expression fuel
    let _ ← require (.symbol .semicolon) .semicolonAfterVariable
    pure (.declare name (some value))

def printStatement (fuel : Nat) (keyword : Token) : Parser (Stmt Unit) := do
  let value ← expression fuel
  let _ ← require (.symbol .semicolon) .semicolonAfterValue
  pure (.print keyword value)

def returnStatement (fuel : Nat) (keyword : Token) : Parser (Stmt Unit) := do
  let value ← optionalExpression fuel (.symbol .semicolon)
  let _ ← require (.symbol .semicolon) .semicolonAfterReturnValue
  pure (.giveBack keyword value)

/-- A conditional after its keyword. An `else` belongs to the nearest conditional before it. -/
def ifStatement (fuel : Nat) (branch : Parser (Stmt Unit)) (keyword : Token) :
    Parser (Stmt Unit) := do
  let _ ← require (.symbol .leftParen) .parenAfterIf
  let test ← expression fuel
  let _ ← require (.symbol .rightParen) .parenAfterIfCondition
  let consequent ← branch
  match ← accept (.keyword .elseWord) with
  | none => pure (.ifThen keyword test consequent)
  | some _ =>
    let alternative ← branch
    pure (.ifElse keyword test consequent alternative)

def whileStatement (fuel : Nat) (branch : Parser (Stmt Unit)) (keyword : Token) :
    Parser (Stmt Unit) := do
  let _ ← require (.symbol .leftParen) .parenAfterWhile
  let test ← expression fuel
  let _ ← require (.symbol .rightParen) .parenAfterCondition
  let body ← branch
  pure (.loop keyword test body)

/-- The first clause of a `for` loop, with its semicolon. -/
def forInitializer (fuel : Nat) : Parser (Option (Stmt Unit)) := do
  match ← accept (.symbol .semicolon) with
  | some _ => pure none
  | none =>
    match ← accept (.keyword .varWord) with
    | some _ =>
      let first ← variableDeclaration fuel
      pure (some first)
    | none =>
      let first ← expressionStatement fuel
      pure (some first)

def forStatement (fuel : Nat) (branch : Parser (Stmt Unit)) (keyword : Token) :
    Parser (Stmt Unit) := do
  let _ ← require (.symbol .leftParen) .parenAfterFor
  let initializer ← forInitializer fuel
  let test ← optionalExpression fuel (.symbol .semicolon)
  let _ ← require (.symbol .semicolon) .semicolonAfterLoopCondition
  let increment ← optionalExpression fuel (.symbol .rightParen)
  let _ ← require (.symbol .rightParen) .parenAfterForClauses
  let body ← branch
  pure (.forLoop keyword initializer test increment body)

/-- Parameter names separated by commas, after the given number of earlier ones. -/
def parametersFrom : Nat → Nat → Parser (List Token)
  | 0, _ => exhausted
  | fuel + 1, earlier => do
    if maxArguments ≤ earlier then reportHere .tooManyParameters
    let first ← require .identifier .parameterName
    match ← accept (.symbol .comma) with
    | none => pure [first]
    | some _ =>
      let others ← parametersFrom fuel (earlier + 1)
      pure (first :: others)

def functionDeclaration (fuel : Nat) (block : Parser (List (Stmt Unit))) : Parser (Stmt Unit) := do
  let name ← require .identifier .functionName
  let _ ← require (.symbol .leftParen) .parenAfterFunctionName
  let parameters ← if ← nextIs (.symbol .rightParen) then pure [] else parametersFrom fuel 0
  let _ ← require (.symbol .rightParen) .parenAfterParameters
  let _ ← require (.symbol .leftBrace) .braceBeforeBody
  let body ← block
  pure (.function name parameters body)

/-- The ways in which a statement starts with a word or brace of its own. -/
inductive StatementForm where
  | forLoop | conditional | print | giveBack | whileLoop | block
deriving DecidableEq

/-- The form of statement that a kind of token starts. -/
def StatementForm.ofKind? : TokenKind → Option StatementForm
  | .keyword .forWord => some .forLoop
  | .keyword .ifWord => some .conditional
  | .keyword .printWord => some .print
  | .keyword .returnWord => some .giveBack
  | .keyword .whileWord => some .whileLoop
  | .symbol .leftBrace => some .block
  | _ => none

mutual

/-- A declaration or statement; nothing if it gave up. -/
def declaration : Nat → Parser (Option (Stmt Unit))
  | 0 => exhausted
  | fuel + 1 => recovering do
    match ← accept (.keyword .funWord) with
    | some _ => functionDeclaration fuel (block fuel)
    | none =>
      match ← accept (.keyword .varWord) with
      | some _ => variableDeclaration fuel
      | none => statement fuel

/-- A statement that is not a declaration. -/
def statement : Nat → Parser (Stmt Unit)
  | 0 => exhausted
  | fuel + 1 => do
    match ← acceptBy StatementForm.ofKind? with
    | none => expressionStatement fuel
    | some (token, .forLoop) => forStatement fuel (statement fuel) token
    | some (token, .conditional) => ifStatement fuel (statement fuel) token
    | some (token, .print) => printStatement fuel token
    | some (token, .giveBack) => returnStatement fuel token
    | some (token, .whileLoop) => whileStatement fuel (statement fuel) token
    | some (token, .block) =>
      let body ← block fuel
      pure (.block token body)

/-- Declarations up to and including a closing brace. -/
def block : Nat → Parser (List (Stmt Unit))
  | 0 => exhausted
  | fuel + 1 => do
    if (← nextIs (.symbol .rightBrace)) || (← atEnd) then
      let _ ← require (.symbol .rightBrace) .braceAfterBlock
      pure []
    else
      let first ← declaration fuel
      let others ← block fuel
      pure (first.toList ++ others)

end

/-- Declarations up to the end. -/
def program : Nat → Parser (List (Stmt Unit))
  | 0 => exhausted
  | fuel + 1 => do
    if ← atEnd then pure []
    else
      let first ← declaration fuel
      let others ← program fuel
      pure (first.toList ++ others)

/-- Enough fuel for a token stream: no rule descends further between two tokens. -/
def fuelFor (cursor : Cursor) : Nat :=
  20 * (cursor.rest.length + 1)

end Parser

/-- What was found in a source, and what was wrong with it. -/
structure Parsed (α : Type) where
  value : α
  diagnostics : List Diagnostic

/-- Parses a whole program. Statements that gave up are left out. -/
def Cursor.program (cursor : Cursor) : Parsed (List (Stmt Unit)) :=
  match Parser.program (Parser.fuelFor cursor) cursor with
  | .ok value diagnostics _ => { value, diagnostics }
  | .failed diagnostics _ => { value := [], diagnostics }
  | .exhausted => { value := [], diagnostics := [] }

/-- Parses a single expression up to the end; nothing if it gave up. -/
def Cursor.expression (cursor : Cursor) : Parsed (Option (Expr Unit)) :=
  match Parser.wholeExpression (Parser.fuelFor cursor) cursor with
  | .ok value diagnostics _ => { value := some value, diagnostics }
  | .failed diagnostics _ => { value := none, diagnostics }
  | .exhausted => { value := none, diagnostics := [] }

end Loxley
