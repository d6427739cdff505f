import Loxley.Proofs.Accepted
import Loxley.Proofs.Lexer

/-!
# Programs further down

The same program a number of lines further down. Scope analysis looks at the names and not at the
lines of tokens, so it gives the same distances and the same faults there.
-/

set_option autoImplicit false

namespace Loxley

section Trees

variable {Reference : Type}

mutual

/-- The same expression a number of lines further down. -/
def Expr.down (lines : Nat) : Expr Reference → Expr Reference
  | .literal token value => .literal (token.down lines) value
  | .group paren inner => .group (paren.down lines) (inner.down lines)
  | .unary op token operand => .unary op (token.down lines) (operand.down lines)
  | .binary op token left right =>
    .binary op (token.down lines) (left.down lines) (right.down lines)
  | .logical op token left right =>
    .logical op (token.down lines) (left.down lines) (right.down lines)
  | .ident name reference => .ident (name.down lines) reference
  | .assign name reference value => .assign (name.down lines) reference (value.down lines)
  | .call paren callee arguments =>
    .call (paren.down lines) (callee.down lines) (Expr.downAll lines arguments)

/-- The same expressions a number of lines further down. -/
def Expr.downAll (lines : Nat) : List (Expr Reference) → List (Expr Reference)
  | [] => []
  | first :: rest => first.down lines :: Expr.downAll lines rest

end

mutual

/-- The same statement a number of lines further down. -/
def Stmt.down (lines : Nat) : Stmt Reference → Stmt Reference
  | .expression token value => .expression (token.down lines) (value.down lines)
  | .print keyword value => .print (keyword.down lines) (value.down lines)
  | .declare name initializer => .declare (name.down lines) (initializer.map (Expr.down lines))
  | .block brace body => .block (brace.down lines) (Stmt.downAll lines body)
  | .ifThen keyword test consequent =>
    .ifThen (keyword.down lines) (test.down lines) (consequent.down lines)
  | .ifElse keyword test consequent alternative =>
    .ifElse (keyword.down lines) (test.down lines) (consequent.down lines) (alternative.down lines)
  | .loop keyword test body => .loop (keyword.down lines) (test.down lines) (body.down lines)
  | .function name parameters body =>
    .function (name.down lines) (parameters.map (Token.down lines)) (Stmt.downAll lines body)
  | .giveBack keyword value => .giveBack (keyword.down lines) (value.map (Expr.down lines))

/-- The same statements a number of lines further down. -/
def Stmt.downAll (lines : Nat) : List (Stmt Reference) → List (Stmt Reference)
  | [] => []
  | first :: rest => first.down lines :: Stmt.downAll lines rest

end

variable (lines : Nat)

@[simp] theorem Token.kind_down (token : Token) : (token.down lines).kind = token.kind := rfl

@[simp] theorem Token.lexeme_down (token : Token) : (token.down lines).lexeme = token.lexeme := rfl

@[simp] theorem Token.down_zero (token : Token) : token.down 0 = token := by
  simp [Token.down]

theorem Diagnostic.down_atToken (token : Token) (problem : Problem) :
    (Diagnostic.atToken token problem).down lines = .atToken (token.down lines) problem := rfl

@[simp] theorem Expr.token_down (expr : Expr Reference) :
    (expr.down lines).token = expr.token.down lines := by
  cases expr <;> rfl

@[simp] theorem Expr.connect_down (connective : Connective) (token : Token)
    (left right : Expr Reference) :
    (Expr.connect connective token left right).down lines =
      Expr.connect connective (token.down lines) (left.down lines) (right.down lines) := by
  cases connective <;> rfl

@[simp] theorem Expr.length_downAll (exprs : List (Expr Reference)) :
    (Expr.downAll lines exprs).length = exprs.length := by
  induction exprs with
  | nil => rfl
  | cons first rest ih => simp [Expr.downAll, ih]

@[simp] theorem Stmt.forLoop_down (keyword : Token) (initializer : Option (Stmt Reference))
    (test increment : Option (Expr Reference)) (body : Stmt Reference) :
    (Stmt.forLoop keyword initializer test increment body).down lines =
      Stmt.forLoop (keyword.down lines) (initializer.map (Stmt.down lines))
        (test.map (Expr.down lines)) (increment.map (Expr.down lines)) (body.down lines) := by
  cases initializer <;> cases test <;> cases increment <;> rfl

mutual

theorem Expr.down_zero (expr : Expr Reference) : expr.down 0 = expr := by
  cases expr with
  | literal | ident => simp [Expr.down]
  | group paren inner => simp [Expr.down, Expr.down_zero inner]
  | unary op token operand => simp [Expr.down, Expr.down_zero operand]
  | binary op token left right | logical op token left right =>
      simp [Expr.down, Expr.down_zero left, Expr.down_zero right]
  | assign name reference value => simp [Expr.down, Expr.down_zero value]
  | call paren callee arguments =>
      simp [Expr.down, Expr.down_zero callee, Expr.downAll_zero arguments]

theorem Expr.downAll_zero (exprs : List (Expr Reference)) : Expr.downAll 0 exprs = exprs := by
  cases exprs with
  | nil => rfl
  | cons first rest => simp [Expr.downAll, Expr.down_zero first, Expr.downAll_zero rest]

end

theorem Expr.map_down_zero (expr : Option (Expr Reference)) : expr.map (Expr.down 0) = expr := by
  cases expr with
  | none => rfl
  | some expr => exact congrArg some expr.down_zero

mutual

theorem Stmt.down_zero (stmt : Stmt Reference) : stmt.down 0 = stmt := by
  cases stmt with
  | expression token value | print token value => simp [Stmt.down, value.down_zero]
  | declare token value | giveBack token value => simp [Stmt.down, Expr.map_down_zero]
  | block brace body => simp [Stmt.down, Stmt.downAll_zero body]
  | ifThen keyword test consequent =>
      simp [Stmt.down, test.down_zero, Stmt.down_zero consequent]
  | ifElse keyword test consequent alternative =>
      simp [Stmt.down, test.down_zero, Stmt.down_zero consequent, Stmt.down_zero alternative]
  | loop keyword test body => simp [Stmt.down, test.down_zero, Stmt.down_zero body]
  | function name parameters body =>
      have same : Token.down 0 = id := funext Token.down_zero
      simp [Stmt.down, same, Stmt.downAll_zero body]

theorem Stmt.downAll_zero (stmts : List (Stmt Reference)) : Stmt.downAll 0 stmts = stmts := by
  cases stmts with
  | nil => rfl
  | cons first rest => simp [Stmt.downAll, Stmt.down_zero first, Stmt.downAll_zero rest]

end

mutual

/-- The tokens that an expression carries. -/
def Expr.tokens : Expr Reference → List Token
  | .literal token _ => [token]
  | .group paren inner => paren :: inner.tokens
  | .unary _ token operand => token :: operand.tokens
  | .binary _ token left right => token :: (left.tokens ++ right.tokens)
  | .logical _ token left right => token :: (left.tokens ++ right.tokens)
  | .ident name _ => [name]
  | .assign name _ value => name :: value.tokens
  | .call paren callee arguments => paren :: (callee.tokens ++ Expr.tokensAll arguments)

/-- The tokens that expressions carry. -/
def Expr.tokensAll : List (Expr Reference) → List Token
  | [] => []
  | first :: rest => first.tokens ++ Expr.tokensAll rest

end

mutual

/-- The tokens that a statement carries. -/
def Stmt.tokens : Stmt Reference → List Token
  | .expression token value => token :: value.tokens
  | .print keyword value => keyword :: value.tokens
  | .declare name initializer => name :: initializer.toList.flatMap Expr.tokens
  | .block brace body => brace :: Stmt.tokensAll body
  | .ifThen keyword test consequent => keyword :: (test.tokens ++ consequent.tokens)
  | .ifElse keyword test consequent alternative =>
    keyword :: (test.tokens ++ consequent.tokens ++ alternative.tokens)
  | .loop keyword test body => keyword :: (test.tokens ++ body.tokens)
  | .function name parameters body => name :: (parameters ++ Stmt.tokensAll body)
  | .giveBack keyword value => keyword :: value.toList.flatMap Expr.tokens

/-- The tokens that statements carry. -/
def Stmt.tokensAll : List (Stmt Reference) → List Token
  | [] => []
  | first :: rest => first.tokens ++ Stmt.tokensAll rest

end

end Trees

section Scoping

mutual

@[simp] theorem Expr.tokens_resolve (scopes : Scopes) (expr : Expr Unit) :
    (expr.resolve scopes).tokens = expr.tokens := by
  cases expr with
  | literal | ident => rfl
  | group paren inner => simp [Expr.resolve, Expr.tokens, Expr.tokens_resolve scopes inner]
  | unary op token operand => simp [Expr.resolve, Expr.tokens, Expr.tokens_resolve scopes operand]
  | binary op token left right | logical op token left right =>
      simp [Expr.resolve, Expr.tokens, Expr.tokens_resolve scopes left,
        Expr.tokens_resolve scopes right]
  | assign name reference value =>
      simp [Expr.resolve, Expr.tokens, Expr.tokens_resolve scopes value]
  | call paren callee arguments =>
      simp [Expr.resolve, Expr.tokens, Expr.tokens_resolve scopes callee,
        Expr.tokensAll_resolveAll scopes arguments]

theorem Expr.tokensAll_resolveAll (scopes : Scopes) (exprs : List (Expr Unit)) :
    Expr.tokensAll (Expr.resolveAll scopes exprs) = Expr.tokensAll exprs := by
  cases exprs with
  | nil => rfl
  | cons first rest =>
      simp [Expr.resolveAll, Expr.tokensAll, Expr.tokens_resolve scopes first,
        Expr.tokensAll_resolveAll scopes rest]

end

theorem Expr.flatMap_tokens_resolve (scopes : Scopes) (expr : Option (Expr Unit)) :
    (expr.map (Expr.resolve scopes)).toList.flatMap Expr.tokens =
      expr.toList.flatMap Expr.tokens := by
  cases expr with
  | none => rfl
  | some expr => simp

mutual

theorem Stmt.tokens_resolve (scopes : Scopes) (stmt : Stmt Unit) :
    (stmt.resolve scopes).tokens = stmt.tokens := by
  cases stmt with
  | expression token value | print token value => simp [Stmt.resolve, Stmt.tokens]
  | declare token value | giveBack token value =>
      simp only [Stmt.resolve, Stmt.tokens, Expr.flatMap_tokens_resolve]
  | block brace body => simp [Stmt.resolve, Stmt.tokens, Stmt.tokensAll_resolveAll _ body]
  | ifThen keyword test consequent =>
      simp [Stmt.resolve, Stmt.tokens, Stmt.tokens_resolve scopes consequent]
  | ifElse keyword test consequent alternative =>
      simp [Stmt.resolve, Stmt.tokens, Stmt.tokens_resolve scopes consequent,
        Stmt.tokens_resolve _ alternative]
  | loop keyword test body => simp [Stmt.resolve, Stmt.tokens, Stmt.tokens_resolve _ body]
  | function name parameters body =>
      simp [Stmt.resolve, Stmt.tokens, Stmt.tokensAll_resolveAll _ body]

theorem Stmt.tokensAll_resolveAll (scopes : Scopes) (stmts : List (Stmt Unit)) :
    Stmt.tokensAll (Stmt.resolveAll scopes stmts) = Stmt.tokensAll stmts := by
  cases stmts with
  | nil => rfl
  | cons first rest =>
      simp [Stmt.resolveAll, Stmt.tokensAll, Stmt.tokens_resolve scopes first,
        Stmt.tokensAll_resolveAll _ rest]

end

variable (lines : Nat)

mutual

theorem Expr.resolve_down (scopes : Scopes) (expr : Expr Unit) :
    (expr.down lines).resolve scopes = (expr.resolve scopes).down lines := by
  cases expr with
  | literal | ident => rfl
  | group paren inner => simp [Expr.down, Expr.resolve, Expr.resolve_down scopes inner]
  | unary op token operand => simp [Expr.down, Expr.resolve, Expr.resolve_down scopes operand]
  | binary op token left right | logical op token left right =>
      simp [Expr.down, Expr.resolve, Expr.resolve_down scopes left, Expr.resolve_down scopes right]
  | assign name reference value =>
      simp [Expr.down, Expr.resolve, Expr.resolve_down scopes value]
  | call paren callee arguments =>
      simp [Expr.down, Expr.resolve, Expr.resolve_down scopes callee,
        Expr.resolveAll_downAll scopes arguments]

theorem Expr.resolveAll_downAll (scopes : Scopes) (exprs : List (Expr Unit)) :
    Expr.resolveAll scopes (Expr.downAll lines exprs) =
      Expr.downAll lines (Expr.resolveAll scopes exprs) := by
  cases exprs with
  | nil => rfl
  | cons first rest =>
      simp [Expr.downAll, Expr.resolveAll, Expr.resolve_down scopes first,
        Expr.resolveAll_downAll scopes rest]

end

theorem Expr.map_resolve_down (scopes : Scopes) (expr : Option (Expr Unit)) :
    (expr.map (Expr.down lines)).map (Expr.resolve scopes) =
      (expr.map (Expr.resolve scopes)).map (Expr.down lines) := by
  cases expr with
  | none => rfl
  | some expr => exact congrArg some (expr.resolve_down lines scopes)

@[simp] theorem Scopes.enterFunction_down (parameters : List Token) (scopes : Scopes) :
    scopes.enterFunction (parameters.map (Token.down lines)) = scopes.enterFunction parameters := by
  simp [Scopes.enterFunction, List.foldl_map]

@[simp] theorem Stmt.extend_down (scopes : Scopes) (stmt : Stmt Unit) :
    (stmt.down lines).extend scopes = stmt.extend scopes := by
  cases stmt with
  | expression | print | declare | block | loop | function | giveBack => rfl
  | ifThen keyword test consequent => exact Stmt.extend_down scopes consequent
  | ifElse keyword test consequent alternative =>
      simp only [Stmt.down, Stmt.extend, Stmt.extend_down scopes consequent,
        Stmt.extend_down _ alternative]

mutual

theorem Stmt.resolve_down (scopes : Scopes) (stmt : Stmt Unit) :
    (stmt.down lines).resolve scopes = (stmt.resolve scopes).down lines := by
  cases stmt with
  | expression token value | print token value =>
      simp [Stmt.down, Stmt.resolve, Expr.resolve_down]
  | declare token value | giveBack token value =>
      simp only [Stmt.down, Stmt.resolve, Expr.map_resolve_down, Token.lexeme_down]
  | block brace body => simp [Stmt.down, Stmt.resolve, Stmt.resolveAll_downAll _ body]
  | ifThen keyword test consequent =>
      simp [Stmt.down, Stmt.resolve, Expr.resolve_down, Stmt.resolve_down scopes consequent]
  | ifElse keyword test consequent alternative =>
      simp [Stmt.down, Stmt.resolve, Expr.resolve_down, Stmt.resolve_down scopes consequent,
        Stmt.resolve_down _ alternative]
  | loop keyword test body =>
      simp [Stmt.down, Stmt.resolve, Expr.resolve_down, Stmt.resolve_down _ body]
  | function name parameters body =>
      simp [Stmt.down, Stmt.resolve, Stmt.resolveAll_downAll _ body]

theorem Stmt.resolveAll_downAll (scopes : Scopes) (stmts : List (Stmt Unit)) :
    Stmt.resolveAll scopes (Stmt.downAll lines stmts) =
      Stmt.downAll lines (Stmt.resolveAll scopes stmts) := by
  cases stmts with
  | nil => rfl
  | cons first rest =>
      simp [Stmt.downAll, Stmt.resolveAll, Stmt.resolve_down scopes first,
        Stmt.resolveAll_downAll _ rest]

end

theorem Scopes.pendingRead_down (scopes : Scopes) (name : Token) :
    scopes.pendingRead (name.down lines) =
      (scopes.pendingRead name).map (Diagnostic.down lines) := by
  cases scopes with
  | nil => rfl
  | cons innermost outer =>
      by_cases isPending : innermost.isPending name.lexeme = true
      · simp [Scopes.pendingRead, isPending, Diagnostic.down_atToken]
      · simp [Scopes.pendingRead, isPending]

theorem Scopes.duplicate_down (scopes : Scopes) (name : Token) :
    scopes.duplicate (name.down lines) = (scopes.duplicate name).map (Diagnostic.down lines) := by
  cases scopes with
  | nil => rfl
  | cons innermost outer =>
      by_cases declared : innermost.declares name.lexeme = true
      · simp [Scopes.duplicate, declared, Diagnostic.down_atToken]
      · simp [Scopes.duplicate, declared]

theorem Scopes.parameterFaults_down (parameters : List Token) (scopes : Scopes) :
    Scopes.parameterFaults (parameters.map (Token.down lines)) scopes =
      (Scopes.parameterFaults parameters scopes).map (Diagnostic.down lines) := by
  induction parameters generalizing scopes with
  | nil => rfl
  | cons first rest ih =>
      simp [Scopes.parameterFaults, ih, Scopes.duplicate_down]

mutual

theorem Expr.faults_down (scopes : Scopes) (expr : Expr Unit) :
    (expr.down lines).faults scopes = (expr.faults scopes).map (Diagnostic.down lines) := by
  cases expr with
  | literal => rfl
  | ident name reference => exact scopes.pendingRead_down lines name
  | group paren inner => exact Expr.faults_down scopes inner
  | unary op token operand => exact Expr.faults_down scopes operand
  | binary op token left right | logical op token left right =>
      simp [Expr.down, Expr.faults, Expr.faults_down scopes left, Expr.faults_down scopes right]
  | assign name reference value => exact Expr.faults_down scopes value
  | call paren callee arguments =>
      simp [Expr.down, Expr.faults, Expr.faults_down scopes callee,
        Expr.faultsAll_downAll scopes arguments]

theorem Expr.faultsAll_downAll (scopes : Scopes) (exprs : List (Expr Unit)) :
    Expr.faultsAll scopes (Expr.downAll lines exprs) =
      (Expr.faultsAll scopes exprs).map (Diagnostic.down lines) := by
  cases exprs with
  | nil => rfl
  | cons first rest =>
      simp [Expr.downAll, Expr.faultsAll, Expr.faults_down scopes first,
        Expr.faultsAll_downAll scopes rest]

end

theorem Expr.flatMap_faults_down (scopes : Scopes) (expr : Option (Expr Unit)) :
    (expr.map (Expr.down lines)).toList.flatMap (Expr.faults scopes) =
      (expr.toList.flatMap (Expr.faults scopes)).map (Diagnostic.down lines) := by
  cases expr with
  | none => rfl
  | some expr => simp [Expr.faults_down]

mutual

theorem Stmt.faults_down (inFunction : Bool) (scopes : Scopes) (stmt : Stmt Unit) :
    (stmt.down lines).faults inFunction scopes =
      (stmt.faults inFunction scopes).map (Diagnostic.down lines) := by
  cases stmt with
  | expression token value | print token value => exact value.faults_down lines scopes
  | declare name initializer =>
      simp [Stmt.down, Stmt.faults, Scopes.duplicate_down, Expr.flatMap_faults_down]
  | block brace body => exact Stmt.faultsAll_downAll inFunction _ body
  | ifThen keyword test consequent =>
      simp [Stmt.down, Stmt.faults, Expr.faults_down, Stmt.faults_down inFunction scopes consequent]
  | ifElse keyword test consequent alternative =>
      simp [Stmt.down, Stmt.faults, Expr.faults_down, Stmt.faults_down inFunction scopes consequent,
        Stmt.faults_down inFunction _ alternative]
  | loop keyword test body =>
      simp [Stmt.down, Stmt.faults, Expr.faults_down, Stmt.faults_down inFunction _ body]
  | function name parameters body =>
      simp [Stmt.down, Stmt.faults, Scopes.duplicate_down, Scopes.parameterFaults_down,
        Stmt.faultsAll_downAll true _ body]
  | giveBack keyword value =>
      simp only [Stmt.down, Stmt.faults, Expr.flatMap_faults_down, List.map_append]
      cases inFunction <;> rfl

theorem Stmt.faultsAll_downAll (inFunction : Bool) (scopes : Scopes) (stmts : List (Stmt Unit)) :
    Stmt.faultsAll inFunction scopes (Stmt.downAll lines stmts) =
      (Stmt.faultsAll inFunction scopes stmts).map (Diagnostic.down lines) := by
  cases stmts with
  | nil => rfl
  | cons first rest =>
      simp [Stmt.downAll, Stmt.faultsAll, Stmt.faults_down inFunction scopes first,
        Stmt.faultsAll_downAll inFunction _ rest]

end

end Scoping

end Loxley
