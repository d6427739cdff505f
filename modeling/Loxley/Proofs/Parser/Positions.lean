import Loxley.Parser.Statement

/-!
# Parsing at positions

The rules of the parser once more, over a list of tokens and a current position in it. Looking at the
current or the previous token can go outside of the list, which is a reply of its own. Besides values
and diagnostics, a walk over the tokens leaves the events on its way: each move, each throw and catch
of a syntax error, and where each declaration starts and stops.
-/

set_option autoImplicit false

namespace Loxley

/-- What happens on a walk over tokens. -/
inductive Event where
  /-- The current position changes to this one. -/
  | moved (position : Nat)
  | threw (diagnostic : Diagnostic)
  | caught
  | declared (start stop : Nat)
deriving DecidableEq

/-- How a walk ends. -/
inductive Trip (α : Type) where
  | ok (value : α) (diagnostics : List Diagnostic) (events : List Event) (current : Nat)
  /-- A syntax error is on its way to the enclosing declaration. -/
  | thrown (diagnostics : List Diagnostic) (events : List Event) (current : Nat)
  /-- There is no token at a position that was looked at. -/
  | outside
  | exhausted

namespace Trip

variable {α : Type}

/-- The trip after an earlier one. -/
def after (diagnostics : List Diagnostic) (events : List Event) : Trip α → Trip α
  | ok value others more current => ok value (diagnostics ++ others) (events ++ more) current
  | thrown others more current => thrown (diagnostics ++ others) (events ++ more) current
  | outside => outside
  | exhausted => exhausted

@[simp] theorem after_nil (trip : Trip α) : trip.after [] [] = trip := by
  cases trip <;> rfl

end Trip

/-- A walk over tokens from a position. -/
def Walk (α : Type) : Type :=
  List Token → Nat → Trip α

namespace Walk

variable {α β : Type}

/-- Gives a value and stays. -/
def give (value : α) : Walk α :=
  fun _ current => .ok value [] [] current

/-- Goes on from where a walk ended with a value. -/
def andThen (first : Walk α) (next : α → Walk β) : Walk β :=
  fun tokens current =>
    match first tokens current with
    | .ok value diagnostics events current =>
      (next value tokens current).after diagnostics events
    | .thrown diagnostics events current => .thrown diagnostics events current
    | .outside => .outside
    | .exhausted => .exhausted

instance : Monad Walk where
  pure := give
  bind := andThen

def exhausted : Walk α :=
  fun _ _ => .exhausted

/-! ## Single steps -/

/-- The token at a position. -/
def tokenAt (position : Nat) : Walk Token :=
  fun tokens current =>
    match tokens[position]? with
    | some token => .ok token [] [] current
    | none => .outside

/-- The current token. -/
def peek : Walk Token :=
  fun tokens current => tokenAt current tokens current

/-- The token before the current one. -/
def previous : Walk Token :=
  fun tokens current =>
    match current with
    | 0 => .outside
    | position + 1 => tokenAt position tokens current

def move : Walk Unit :=
  fun _ current => .ok () [] [.moved (current + 1)] (current + 1)

def report (token : Token) (problem : Problem) : Walk Unit :=
  fun _ current => .ok () [.atToken token problem] [] current

/-- Throws an error that has been reported. -/
def throwing (diagnostic : Diagnostic) : Walk α :=
  fun _ current => .thrown [] [.threw diagnostic] current

/-! ## Steps over tokens -/

def atEnd : Walk Bool := do
  let token ← peek
  pure (token.kind == .endOfFile)

/-- Moves on unless at the end, and gives the previous token. -/
def advance : Walk Token := do
  if ← atEnd then previous
  else
    move
    previous

def nextIs (kind : TokenKind) : Walk Bool := do
  if ← atEnd then pure false
  else
    let token ← peek
    pure (token.kind == kind)

def acceptBy (choose : TokenKind → Option α) : Walk (Option (Token × α)) := do
  if ← atEnd then pure none
  else
    let next ← peek
    match choose next.kind with
    | none => pure none
    | some choice =>
      let token ← advance
      pure (some (token, choice))

def accept (kind : TokenKind) : Walk (Option Token) := do
  if ← nextIs kind then
    let token ← advance
    pure (some token)
  else pure none

def reportHere (problem : Problem) : Walk Unit := do
  let token ← peek
  report token problem

def fail (expectation : Expectation) : Walk α := do
  let token ← peek
  report token (.expected expectation)
  throwing (.atToken token (.expected expectation))

def require (kind : TokenKind) (expectation : Expectation) : Walk Token := do
  if ← nextIs kind then advance else fail expectation

/-- Moves on to the start of the next statement, in a number of steps that may be too few. -/
def skipOn : Nat → Walk Unit
  | 0 => exhausted
  | steps + 1 => do
    if ← atEnd then pure ()
    else
      let last ← previous
      if last.kind = .symbol .semicolon then pure ()
      else
        let next ← peek
        if Parser.startsStatement next.kind then pure ()
        else
          let _ ← advance
          skipOn steps

def synchronize : Walk Unit :=
  fun tokens current =>
    (do
      let _ ← advance
      skipOn (tokens.length + 1) : Walk Unit) tokens current

/-- Catches a syntax error. -/
def catching (rule : Walk α) (handler : Walk Unit) : Walk (Option α) :=
  fun tokens current =>
    match rule tokens current with
    | .ok value diagnostics events current => .ok (some value) diagnostics events current
    | .thrown diagnostics events current =>
      ((do
        handler
        pure none : Walk (Option α)) tokens current).after diagnostics (events ++ [.caught])
    | .outside => .outside
    | .exhausted => .exhausted

/-- Keeps a record of where a rule starts and stops. -/
def recording (rule : Walk α) : Walk α :=
  fun tokens current =>
    match rule tokens current with
    | .ok value diagnostics events stop =>
      .ok value diagnostics (events ++ [.declared current stop]) stop
    | trip => trip

/-! ## Expressions -/

mutual

def expression : Nat → Walk (Expr Unit)
  | 0 => exhausted
  | fuel + 1 => do
    let target ← chain fuel 1
    match ← accept (.symbol .equal) with
    | none => pure target
    | some equals =>
      let value ← expression fuel
      match target with
      | .ident name reference => pure (.assign name reference value)
      | _ => do
        report equals .invalidAssignmentTarget
        pure target

def chain : Nat → Nat → Walk (Expr Unit)
  | 0, _ => exhausted
  | fuel + 1, strength =>
    if strength ≤ Connective.tightest then do
      let first ← chain fuel (strength + 1)
      chainRest fuel strength first
    else unary fuel

def chainRest : Nat → Nat → Expr Unit → Walk (Expr Unit)
  | 0, _, _ => exhausted
  | fuel + 1, strength, left => do
    match ← acceptBy (Parser.connectiveOf strength) with
    | none => pure left
    | some (token, connective) =>
      let right ← chain fuel (strength + 1)
      chainRest fuel strength (.connect connective token left right)

def unary : Nat → Walk (Expr Unit)
  | 0 => exhausted
  | fuel + 1 => do
    match ← acceptBy UnaryOp.ofKind? with
    | some (token, op) =>
      let operand ← unary fuel
      pure (.unary op token operand)
    | none =>
      let callee ← primary fuel
      callRest fuel callee

def callRest : Nat → Expr Unit → Walk (Expr Unit)
  | 0, _ => exhausted
  | fuel + 1, callee => do
    match ← accept (.symbol .leftParen) with
    | none => pure callee
    | some _ =>
      let arguments ← if ← nextIs (.symbol .rightParen) then pure [] else argumentsFrom fuel 0
      let paren ← require (.symbol .rightParen) .parenAfterArguments
      callRest fuel (.call paren callee arguments)

def argumentsFrom : Nat → Nat → Walk (List (Expr Unit))
  | 0, _ => exhausted
  | fuel + 1, earlier => do
    if Parser.maxArguments ≤ earlier then reportHere .tooManyArguments
    let first ← expression fuel
    match ← accept (.symbol .comma) with
    | none => pure [first]
    | some _ =>
      let others ← argumentsFrom fuel (earlier + 1)
      pure (first :: others)

def primary : Nat → Walk (Expr Unit)
  | 0 => exhausted
  | fuel + 1 => do
    if ← atEnd then fail .expression
    else
      let next ← peek
      match Parser.constant? next with
      | some value =>
        let token ← advance
        pure (.literal token value)
      | none =>
        if next.kind = .identifier then
          let token ← advance
          pure (.ident token ())
        else if next.kind = .symbol .leftParen then
          let token ← advance
          let inner ← expression fuel
          let _ ← require (.symbol .rightParen) .parenAfterExpression
          pure (.group token inner)
        else fail .expression

end

/-- An expression and nothing after it; nothing after a syntax error. -/
def wholeExpression (fuel : Nat) : Walk (Option (Expr Unit)) :=
  catching (do
    let value ← expression fuel
    if ← atEnd then pure value else fail .endOfExpression) (pure ())

/-! ## Statements -/

def optionalExpression (fuel : Nat) (absent : TokenKind) : Walk (Option (Expr Unit)) := do
  if ← nextIs absent then pure none
  else
    let value ← expression fuel
    pure (some value)

def expressionStatement (fuel : Nat) : Walk (Stmt Unit) := do
  let value ← expression fuel
  let _ ← require (.symbol .semicolon) .semicolonAfterExpression
  pure (.expression value.token value)

def variableDeclaration (fuel : Nat) : Walk (Stmt Unit) := do
  let name ← require .identifier .variableName
  match ← accept (.symbol .equal) with
  | none =>
    let _ ← require (.symbol .semicolon) .semicolonAfterVariable
    pure (.declare name none)
  | some _ =>
    let value ← expression fuel
    let _ ← require (.symbol .semicolon) .semicolonAfterVariable
    pure (.declare name (some value))

def printStatement (fuel : Nat) (keyword : Token) : Walk (Stmt Unit) := do
  let value ← expression fuel
  let _ ← require (.symbol .semicolon) .semicolonAfterValue
  pure (.print keyword value)

def returnStatement (fuel : Nat) (keyword : Token) : Walk (Stmt Unit) := do
  let value ← optionalExpression fuel (.symbol .semicolon)
  let _ ← require (.symbol .semicolon) .semicolonAfterReturnValue
  pure (.giveBack keyword value)

def ifStatement (fuel : Nat) (branch : Walk (Stmt Unit)) (keyword : Token) :
    Walk (Stmt Unit) := do
  let _ ← require (.symbol .leftParen) .parenAfterIf
  let test ← expression fuel
  let _ ← require (.symbol .rightParen) .parenAfterIfCondition
  let consequent ← branch
  match ← accept (.keyword .elseWord) with
  | none => pure (.ifThen keyword test consequent)
  | some _ =>
    let alternative ← branch
    pure (.ifElse keyword test consequent alternative)

def whileStatement (fuel : Nat) (branch : Walk (Stmt Unit)) (keyword : Token) :
    Walk (Stmt Unit) := do
  let _ ← require (.symbol .leftParen) .parenAfterWhile
  let test ← expression fuel
  let _ ← require (.symbol .rightParen) .parenAfterCondition
  let body ← branch
  pure (.loop keyword test body)

def forInitializer (fuel : Nat) : Walk (Option (Stmt Unit)) := do
  match ← accept (.symbol .semicolon) with
  | some _ => pure none
  | none =>
    match ← accept (.keyword .varWord) with
    | some _ =>
      let first ← variableDeclaration fuel
      pure (some first)
    | none =>
      let first ← expressionStatement fuel
      pure (some first)

def forStatement (fuel : Nat) (branch : Walk (Stmt Unit)) (keyword : Token) :
    Walk (Stmt Unit) := do
  let _ ← require (.symbol .leftParen) .parenAfterFor
  let initializer ← forInitializer fuel
  let test ← optionalExpression fuel (.symbol .semicolon)
  let _ ← require (.symbol .semicolon) .semicolonAfterLoopCondition
  let increment ← optionalExpression fuel (.symbol .rightParen)
  let _ ← require (.symbol .rightParen) .parenAfterForClauses
  let body ← branch
  pure (.forLoop keyword initializer test increment body)

def parametersFrom : Nat → Nat → Walk (List Token)
  | 0, _ => exhausted
  | fuel + 1, earlier => do
    if Parser.maxArguments ≤ earlier then reportHere .tooManyParameters
    let first ← require .identifier .parameterName
    match ← accept (.symbol .comma) with
    | none => pure [first]
    | some _ =>
      let others ← parametersFrom fuel (earlier + 1)
      pure (first :: others)

def functionDeclaration (fuel : Nat) (block : Walk (List (Stmt Unit))) : Walk (Stmt Unit) := do
  let name ← require .identifier .functionName
  let _ ← require (.symbol .leftParen) .parenAfterFunctionName
  let parameters ← if ← nextIs (.symbol .rightParen) then pure [] else parametersFrom fuel 0
  let _ ← require (.symbol .rightParen) .parenAfterParameters
  let _ ← require (.symbol .leftBrace) .braceBeforeBody
  let body ← block
  pure (.function name parameters body)

mutual

def declaration : Nat → Walk (Option (Stmt Unit))
  | 0 => exhausted
  | fuel + 1 => recording (catching (do
      match ← accept (.keyword .funWord) with
      | some _ => functionDeclaration fuel (block fuel)
      | none =>
        match ← accept (.keyword .varWord) with
        | some _ => variableDeclaration fuel
        | none => statement fuel) synchronize)

def statement : Nat → Walk (Stmt Unit)
  | 0 => exhausted
  | fuel + 1 => do
    match ← acceptBy Parser.StatementForm.ofKind? with
    | none => expressionStatement fuel
    | some (token, .forLoop) => forStatement fuel (statement fuel) token
    | some (token, .conditional) => ifStatement fuel (statement fuel) token
    | some (token, .print) => printStatement fuel token
    | some (token, .giveBack) => returnStatement fuel token
    | some (token, .whileLoop) => whileStatement fuel (statement fuel) token
    | some (token, .block) =>
      let body ← block fuel
      pure (.block token body)

def block : Nat → Walk (List (Stmt Unit))
  | 0 => exhausted
  | fuel + 1 => do
    if (← nextIs (.symbol .rightBrace)) || (← atEnd) then
      let _ ← require (.symbol .rightBrace) .braceAfterBlock
      pure []
    else
      let first ← declaration fuel
      let others ← block fuel
      pure (first.toList ++ others)

end

def program : Nat → Walk (List (Stmt Unit))
  | 0 => exhausted
  | fuel + 1 => do
    if ← atEnd then pure []
    else
      let first ← declaration fuel
      let others ← program fuel
      pure (first.toList ++ others)

end Walk

end Loxley
