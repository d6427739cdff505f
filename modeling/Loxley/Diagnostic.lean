import Loxley.Token

/-!
# Diagnostics

Faults in the source that are found before anything runs, each with the line and, where there is one,
the token to blame.
-/

set_option autoImplicit false

namespace Loxley

/-- What the grammar required at the offending token. -/
inductive Expectation where
  | expression
  | endOfExpression
  | variableName
  | functionName
  | parameterName
  | parenAfterFor
  | semicolonAfterLoopCondition
  | parenAfterForClauses
  | parenAfterIf
  | parenAfterIfCondition
  | parenAfterWhile
  | parenAfterCondition
  | semicolonAfterValue
  | semicolonAfterReturnValue
  | semicolonAfterVariable
  | semicolonAfterExpression
  | parenAfterFunctionName
  | parenAfterParameters
  | braceBeforeBody
  | braceAfterBlock
  | parenAfterArguments
  | parenAfterExpression
deriving DecidableEq, Repr

namespace Expectation

def wording : Expectation → Text
  | expression => "expression"
  | endOfExpression => "end of expression"
  | variableName => "variable name"
  | functionName => "function name"
  | parameterName => "parameter name"
  | parenAfterFor => "'(' after 'for'"
  | semicolonAfterLoopCondition => "';' after loop condition"
  | parenAfterForClauses => "')' after for clauses"
  | parenAfterIf => "'(' after 'if'"
  | parenAfterIfCondition => "')' after if condition"
  | parenAfterWhile => "'(' after 'while'"
  | parenAfterCondition => "')' after condition"
  | semicolonAfterValue => "';' after value"
  | semicolonAfterReturnValue => "';' after return value"
  | semicolonAfterVariable => "';' after variable declaration"
  | semicolonAfterExpression => "';' after expression"
  | parenAfterFunctionName => "'(' after function name"
  | parenAfterParameters => "')' after parameters"
  | braceBeforeBody => "'\x7b' before function body"
  | braceAfterBlock => "'\x7d' after block"
  | parenAfterArguments => "')' after arguments"
  | parenAfterExpression => "')' after expression"

end Expectation

/-- The causes of diagnostics. -/
inductive Problem where
  | unexpectedCharacter
  | unterminatedString
  | expected (expectation : Expectation)
  | tooManyParameters
  | tooManyArguments
  | invalidAssignmentTarget
  | readInOwnInitializer
  | alreadyDeclared
  | returnAtTopLevel
  /-- A complaint in the words of the embedding program. -/
  | custom (message : Text)
deriving DecidableEq

namespace Problem

def message : Problem → Text
  | unexpectedCharacter => "Unexpected character."
  | unterminatedString => "Unterminated string."
  | expected expectation => ("Expect " : Text) ++ expectation.wording ++ ("." : Text)
  | tooManyParameters => "Can't have more than 255 parameters."
  | tooManyArguments => "Can't have more than 255 arguments."
  | invalidAssignmentTarget => "Invalid assignment target."
  | readInOwnInitializer => "Can't read local variable in its own initializer."
  | alreadyDeclared => "Already a variable with this name in this scope."
  | returnAtTopLevel => "Can't return from top-level code."
  | custom message => message

end Problem

/-- How a diagnostic points into its line. -/
inductive Place where
  | somewhere
  | atEnd
  | atLexeme (lexeme : Text)
deriving DecidableEq

/-- A fault with its location. -/
structure Diagnostic where
  line : Int
  place : Place
  problem : Problem
deriving DecidableEq

namespace Diagnostic

/-- A fault on a line, with no token to blame. -/
def onLine (line : Int) (problem : Problem) : Diagnostic where
  line
  place := .somewhere
  problem

def atToken (token : Token) (problem : Problem) : Diagnostic where
  line := token.line
  place := if token.kind = .endOfFile then .atEnd else .atLexeme token.lexeme
  problem

def text (diagnostic : Diagnostic) : Text :=
  let place : Text :=
    match diagnostic.place with
    | .somewhere => ""
    | .atEnd => " at end"
    | .atLexeme lexeme => (" at '" : Text) ++ lexeme ++ ("'" : Text)
  ("[line " : Text) ++ Text.ofInt diagnostic.line ++ ("] Error" : Text) ++ place ++ (": " : Text) ++
    diagnostic.problem.message

end Diagnostic

end Loxley
