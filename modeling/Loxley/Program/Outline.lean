import Loxley.Datum
import Loxley.Program

/-!
# Programs as symbolic data

The outline of a syntax tree is a datum that shows everything but its lines and punctuation.
-/

set_option autoImplicit false

namespace Loxley

variable {Reference : Type}

def Literal.outline : Literal → Datum
  | .nil => .symbol "nil"
  | .bool value => .symbol (Literal.boolText value)
  | .number value => .headed "number" [.number (Number.display value)]
  | .string value => .headed "string" [.string value]

mutual

def Expr.outline : Expr Reference → Datum
  | .literal _ value => value.outline
  | .group _ inner => .headed "group" [inner.outline]
  | .unary _ token operand => .headed "unary" [.string token.lexeme, operand.outline]
  | .binary _ token left right =>
    .headed "binary" [.string token.lexeme, left.outline, right.outline]
  | .logical _ token left right =>
    .headed "logical" [.string token.lexeme, left.outline, right.outline]
  | .ident name _ => .headed "ident" [.string name.lexeme]
  | .assign name _ value => .headed "assign" [.string name.lexeme, value.outline]
  | .call _ callee arguments => .headed "call" (callee.outline :: Expr.outlines arguments)

def Expr.outlines : List (Expr Reference) → List Datum
  | [] => []
  | first :: rest => first.outline :: Expr.outlines rest

end

mutual

def Stmt.outline : Stmt Reference → Datum
  | .expression _ value => .headed "expr" [value.outline]
  | .print _ value => .headed "print" [value.outline]
  | .declare name initializer =>
    .headed "var" (.string name.lexeme :: (initializer.map Expr.outline).toList)
  | .block _ body => .headed "block" (Stmt.outlines body)
  | .ifThen _ test consequent => .headed "if" [test.outline, consequent.outline]
  | .ifElse _ test consequent alternative =>
    .headed "if" [test.outline, consequent.outline, alternative.outline]
  | .loop _ test body => .headed "while" [test.outline, body.outline]
  | .function name parameters body =>
    .headed "fun" (.string name.lexeme ::
      .list (parameters.map fun parameter => .string parameter.lexeme) :: Stmt.outlines body)
  | .giveBack _ value => .headed "return" (value.map Expr.outline).toList

def Stmt.outlines : List (Stmt Reference) → List Datum
  | [] => []
  | first :: rest => first.outline :: Stmt.outlines rest

end

/-- The outlines of a program's statements, each on a line of its own. -/
def Stmt.programText (program : List (Stmt Reference)) : Text :=
  Text.join [Text.newline] (program.map fun statement => statement.outline.render)

end Loxley
