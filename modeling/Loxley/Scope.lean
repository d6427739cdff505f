import Loxley.Diagnostic
import Loxley.Program

/-!
# Scope analysis

Before a program runs, every name is given the number of scopes between its use and the innermost
enclosing local scope that declares it, or nothing if it is global. Blocks, function bodies and loop
bodies open a scope each. Faults in declarations are collected separately and do not influence the
distances.
-/

set_option autoImplicit false

namespace Loxley

/-- The names declared so far in one local scope, latest first, each with whether it can be read. -/
abbrev Scope := List (Text × Bool)

/-- The local scopes around a point of the program, innermost first. -/
abbrev Scopes := List Scope

namespace Scope

def declares (scope : Scope) (name : Text) : Bool :=
  (scope.lookup name).isSome

/-- Whether a scope declares a name whose initializer is still being read. -/
def isPending (scope : Scope) (name : Text) : Bool :=
  scope.lookup name == some false

end Scope

namespace Scopes

/-- How many scopes lie between the innermost one and the nearest one that declares a name. -/
def distance? (scopes : Scopes) (name : Text) : Option Nat :=
  scopes.findIdx? (·.declares name)

/-- Declares a name in the innermost scope. Globals are not tracked. -/
def declare (name : Text) (ready : Bool) : Scopes → Scopes
  | [] => []
  | innermost :: outer => ((name, ready) :: innermost) :: outer

/-- The fault in declaring a name that the innermost scope already declares. -/
def duplicate (name : Token) : Scopes → List Diagnostic
  | [] => []
  | innermost :: _ =>
    if innermost.declares name.lexeme then [.atToken name .alreadyDeclared] else []

/-- The fault in reading a name inside its own initializer. -/
def pendingRead (name : Token) : Scopes → List Diagnostic
  | [] => []
  | innermost :: _ =>
    if innermost.isPending name.lexeme then [.atToken name .readInOwnInitializer] else []

/-- The scopes inside a function body, where the parameters are declared first. -/
def enterFunction (parameters : List Token) (scopes : Scopes) : Scopes :=
  parameters.foldl (fun inner parameter => inner.declare parameter.lexeme true) ([] :: scopes)

/-- The faults in declaring parameters, from the first to the last. -/
def parameterFaults : List Token → Scopes → List Diagnostic
  | [], _ => []
  | parameter :: others, scopes =>
    scopes.duplicate parameter ++ parameterFaults others (scopes.declare parameter.lexeme true)

end Scopes

mutual

/-- Gives every name in an expression its distance. -/
def Expr.resolve (scopes : Scopes) : Expr Unit → Expr (Option Nat)
  | .literal token value => .literal token value
  | .group paren inner => .group paren (inner.resolve scopes)
  | .unary op token operand => .unary op token (operand.resolve scopes)
  | .binary op token left right => .binary op token (left.resolve scopes) (right.resolve scopes)
  | .logical op token left right => .logical op token (left.resolve scopes) (right.resolve scopes)
  | .ident name _ => .ident name (scopes.distance? name.lexeme)
  | .assign name _ value => .assign name (scopes.distance? name.lexeme) (value.resolve scopes)
  | .call paren callee arguments =>
    .call paren (callee.resolve scopes) (Expr.resolveAll scopes arguments)

def Expr.resolveAll (scopes : Scopes) : List (Expr Unit) → List (Expr (Option Nat))
  | [] => []
  | first :: rest => first.resolve scopes :: Expr.resolveAll scopes rest

end

mutual

/-- The faults in an expression, in the order of its evaluation. -/
def Expr.faults (scopes : Scopes) : Expr Unit → List Diagnostic
  | .literal _ _ => []
  | .group _ inner => inner.faults scopes
  | .unary _ _ operand => operand.faults scopes
  | .binary _ _ left right => left.faults scopes ++ right.faults scopes
  | .logical _ _ left right => left.faults scopes ++ right.faults scopes
  | .ident name _ => scopes.pendingRead name
  | .assign _ _ value => value.faults scopes
  | .call _ callee arguments => callee.faults scopes ++ Expr.faultsAll scopes arguments

def Expr.faultsAll (scopes : Scopes) : List (Expr Unit) → List Diagnostic
  | [] => []
  | first :: rest => first.faults scopes ++ Expr.faultsAll scopes rest

end

/-- The scopes after a statement, which may have declared a name in the innermost one. -/
def Stmt.extend (scopes : Scopes) : Stmt Unit → Scopes
  | .declare name _ => scopes.declare name.lexeme true
  | .function name _ _ => scopes.declare name.lexeme true
  | .ifThen _ _ consequent => consequent.extend scopes
  | .ifElse _ _ consequent alternative => alternative.extend (consequent.extend scopes)
  | .expression _ _ | .print _ _ | .block _ _ | .loop _ _ _ | .giveBack _ _ => scopes

mutual

/--
Gives every name in a statement its distance. A variable is declared before its own initializer and
a function before its own body; the test of a loop lies outside the scope of its body.
-/
def Stmt.resolve (scopes : Scopes) : Stmt Unit → Stmt (Option Nat)
  | .expression token value => .expression token (value.resolve scopes)
  | .print keyword value => .print keyword (value.resolve scopes)
  | .declare name initializer =>
    .declare name (initializer.map (Expr.resolve (scopes.declare name.lexeme false)))
  | .block brace body => .block brace (Stmt.resolveAll ([] :: scopes) body)
  | .ifThen keyword test consequent =>
    .ifThen keyword (test.resolve scopes) (consequent.resolve scopes)
  | .ifElse keyword test consequent alternative =>
    .ifElse keyword (test.resolve scopes) (consequent.resolve scopes)
      (alternative.resolve (consequent.extend scopes))
  | .loop keyword test body => .loop keyword (test.resolve scopes) (body.resolve ([] :: scopes))
  | .function name parameters body =>
    .function name parameters
      (Stmt.resolveAll ((scopes.declare name.lexeme true).enterFunction parameters) body)
  | .giveBack keyword value => .giveBack keyword (value.map (Expr.resolve scopes))

def Stmt.resolveAll (scopes : Scopes) : List (Stmt Unit) → List (Stmt (Option Nat))
  | [] => []
  | first :: rest => first.resolve scopes :: Stmt.resolveAll (first.extend scopes) rest

end

mutual

/-- The faults in a statement, in the order of its text. -/
def Stmt.faults (inFunction : Bool) (scopes : Scopes) : Stmt Unit → List Diagnostic
  | .expression _ value => value.faults scopes
  | .print _ value => value.faults scopes
  | .declare name initializer =>
    scopes.duplicate name ++
      (initializer.toList.flatMap (Expr.faults (scopes.declare name.lexeme false)))
  | .block _ body => Stmt.faultsAll inFunction ([] :: scopes) body
  | .ifThen _ test consequent => test.faults scopes ++ consequent.faults inFunction scopes
  | .ifElse _ test consequent alternative =>
    test.faults scopes ++ consequent.faults inFunction scopes ++
      alternative.faults inFunction (consequent.extend scopes)
  | .loop _ test body => test.faults scopes ++ body.faults inFunction ([] :: scopes)
  | .function name parameters body =>
    scopes.duplicate name ++
      Scopes.parameterFaults parameters ([] :: scopes.declare name.lexeme true) ++
      Stmt.faultsAll true ((scopes.declare name.lexeme true).enterFunction parameters) body
  | .giveBack keyword value =>
    (if inFunction then [] else [.atToken keyword .returnAtTopLevel]) ++
      value.toList.flatMap (Expr.faults scopes)

def Stmt.faultsAll (inFunction : Bool) (scopes : Scopes) : List (Stmt Unit) → List Diagnostic
  | [] => []
  | first :: rest =>
    first.faults inFunction scopes ++ Stmt.faultsAll inFunction (first.extend scopes) rest

end

def Stmt.resolveProgram (program : List (Stmt Unit)) : List (Stmt (Option Nat)) :=
  Stmt.resolveAll [] program

def Stmt.programFaults (program : List (Stmt Unit)) : List Diagnostic :=
  Stmt.faultsAll false [] program

/-- Whether a name is used to read or to assign its variable. -/
inductive Usage where
  | read
  | assign
deriving DecidableEq, Repr

/-- A use of a name, with what is known about its variable. -/
structure NameUse (Reference : Type) where
  usage : Usage
  name : Token
  reference : Reference

section Uses

variable {Reference : Type}

mutual

/-- The uses of names in an expression; an assignment comes before the uses in its value. -/
def Expr.uses : Expr Reference → List (NameUse Reference)
  | .literal _ _ => []
  | .group _ inner => inner.uses
  | .unary _ _ operand => operand.uses
  | .binary _ _ left right => left.uses ++ right.uses
  | .logical _ _ left right => left.uses ++ right.uses
  | .ident name reference => [{ usage := .read, name, reference }]
  | .assign name reference value => { usage := .assign, name, reference } :: value.uses
  | .call _ callee arguments => callee.uses ++ Expr.usesAll arguments

def Expr.usesAll : List (Expr Reference) → List (NameUse Reference)
  | [] => []
  | first :: rest => first.uses ++ Expr.usesAll rest

end

mutual

/-- The uses of names in a statement, in the order of its text. -/
def Stmt.uses : Stmt Reference → List (NameUse Reference)
  | .expression _ value => value.uses
  | .print _ value => value.uses
  | .declare _ initializer => initializer.toList.flatMap Expr.uses
  | .block _ body => Stmt.usesAll body
  | .ifThen _ test consequent => test.uses ++ consequent.uses
  | .ifElse _ test consequent alternative => test.uses ++ consequent.uses ++ alternative.uses
  | .loop _ test body => test.uses ++ body.uses
  | .function _ _ body => Stmt.usesAll body
  | .giveBack _ value => value.toList.flatMap Expr.uses

def Stmt.usesAll : List (Stmt Reference) → List (NameUse Reference)
  | [] => []
  | first :: rest => first.uses ++ Stmt.usesAll rest

end

end Uses

/-- The uses of names in a program that refer to local variables, with their distances. -/
def Stmt.locals (program : List (Stmt (Option Nat))) : List (NameUse Nat) :=
  (Stmt.usesAll program).filterMap fun use =>
    use.reference.map fun distance => { use with reference := distance }

def Stmt.localCount (program : List (Stmt (Option Nat))) : Nat :=
  (Stmt.locals program).length

end Loxley
