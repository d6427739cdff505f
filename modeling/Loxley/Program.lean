import Loxley.Token

/-!
# Programs

Expressions and statements. Every node keeps the token that errors at it are blamed on. The type
parameter is what is known about the variable that a name refers to: nothing after parsing, and the
distance to its scope after scope analysis.
-/

set_option autoImplicit false

namespace Loxley

/-- Operators with one operand. -/
inductive UnaryOp where
  | not
  | negate
deriving DecidableEq, Repr

/-- Operators that evaluate both operands. -/
inductive BinaryOp where
  | equal | notEqual | less | lessEqual | greater | greaterEqual
  | add | subtract | multiply | divide
deriving DecidableEq, Repr

/-- Operators that evaluate the right operand only if the left one does not decide. -/
inductive LogicalOp where
  | and
  | or
deriving DecidableEq, Repr

/-- The operators between two operands. -/
inductive Connective where
  | binary (op : BinaryOp)
  | logical (op : LogicalOp)
deriving DecidableEq, Repr

def UnaryOp.ofKind? : TokenKind → Option UnaryOp
  | .symbol .bang => some .not
  | .symbol .minus => some .negate
  | _ => none

namespace Connective

def ofKind? : TokenKind → Option Connective
  | .keyword .orWord => some (.logical .or)
  | .keyword .andWord => some (.logical .and)
  | .symbol .equalEqual => some (.binary .equal)
  | .symbol .bangEqual => some (.binary .notEqual)
  | .symbol .less => some (.binary .less)
  | .symbol .lessEqual => some (.binary .lessEqual)
  | .symbol .greater => some (.binary .greater)
  | .symbol .greaterEqual => some (.binary .greaterEqual)
  | .symbol .plus => some (.binary .add)
  | .symbol .minus => some (.binary .subtract)
  | .symbol .star => some (.binary .multiply)
  | .symbol .slash => some (.binary .divide)
  | _ => none

/-- How tightly an operator binds its operands: a higher strength binds more tightly. -/
def strength : Connective → Nat
  | .logical .or => 1
  | .logical .and => 2
  | .binary .equal | .binary .notEqual => 3
  | .binary .less | .binary .lessEqual | .binary .greater | .binary .greaterEqual => 4
  | .binary .add | .binary .subtract => 5
  | .binary .multiply | .binary .divide => 6

/-- The greatest strength of an operator between operands. -/
def tightest : Nat := 6

end Connective

inductive Expr (Reference : Type) where
  | literal (token : Token) (value : Literal)
  /-- An expression in parentheses, with the opening one. -/
  | group (paren : Token) (inner : Expr Reference)
  | unary (op : UnaryOp) (token : Token) (operand : Expr Reference)
  | binary (op : BinaryOp) (token : Token) (left right : Expr Reference)
  | logical (op : LogicalOp) (token : Token) (left right : Expr Reference)
  /-- A use of the variable that a name token names. -/
  | ident (name : Token) (reference : Reference)
  | assign (name : Token) (reference : Reference) (value : Expr Reference)
  /-- A call, with the closing parenthesis. -/
  | call (paren : Token) (callee : Expr Reference) (arguments : List (Expr Reference))

namespace Expr

variable {Reference : Type}

def token : Expr Reference → Token
  | literal token _ => token
  | group paren _ => paren
  | unary _ token _ => token
  | binary _ token _ _ => token
  | logical _ token _ _ => token
  | ident name _ => name
  | assign name _ _ => name
  | call paren _ _ => paren

def connect (connective : Connective) (token : Token) (left right : Expr Reference) :
    Expr Reference :=
  match connective with
  | .binary op => binary op token left right
  | .logical op => logical op token left right

end Expr

inductive Stmt (Reference : Type) where
  /-- An expression evaluated for its effects. -/
  | expression (token : Token) (value : Expr Reference)
  | print (keyword : Token) (value : Expr Reference)
  /-- A variable declaration; without an initializer the variable starts as nil. -/
  | declare (name : Token) (initializer : Option (Expr Reference))
  | block (brace : Token) (body : List (Stmt Reference))
  | ifThen (keyword : Token) (test : Expr Reference) (consequent : Stmt Reference)
  | ifElse (keyword : Token) (test : Expr Reference) (consequent alternative : Stmt Reference)
  | loop (keyword : Token) (test : Expr Reference) (body : Stmt Reference)
  | function (name : Token) (parameters : List Token) (body : List (Stmt Reference))
  | giveBack (keyword : Token) (value : Option (Expr Reference))

namespace Stmt

variable {Reference : Type}

def token : Stmt Reference → Token
  | expression token _ => token
  | print keyword _ => keyword
  | declare name _ => name
  | block brace _ => brace
  | ifThen keyword _ _ => keyword
  | ifElse keyword _ _ _ => keyword
  | loop keyword _ _ => keyword
  | function name _ _ => name
  | giveBack keyword _ => keyword

/-- The body of a `for` loop followed by its increment, in a block of their own. -/
def withIncrement (keyword : Token) (body : Stmt Reference) :
    Option (Expr Reference) → Stmt Reference
  | none => body
  | some increment => block keyword [body, expression keyword increment]

/--
A `for` loop in terms of a `while` loop: the initializer and the loop share a block, and the
increment ends the body. A missing test is always true. All nodes made here carry the keyword.
-/
def forLoop (keyword : Token) (initializer : Option (Stmt Reference))
    (test increment : Option (Expr Reference)) (body : Stmt Reference) : Stmt Reference :=
  let condition := test.getD (.literal keyword (.bool true))
  let whole := loop keyword condition (withIncrement keyword body increment)
  match initializer with
  | none => whole
  | some first => block keyword [first, whole]

end Stmt

end Loxley
