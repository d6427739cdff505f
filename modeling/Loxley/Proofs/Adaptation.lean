import Loxley.Machine.Eval
import Loxley.Proofs.Lines

/-!
# Code adapted to its place

The same code may stand at different places. Then its tokens stand elsewhere, and its variables are
at other distances, but it has the same shape.
-/

set_option autoImplicit false

namespace Loxley

/-- How code is adapted to the place where it stands. -/
structure Adaptation (Place : Type) where
  token : Place → Token → Token
  reference : Place → Option Nat → Option Nat
  /-- The place of the code in a scope of its own. -/
  inner : Place → Place
  lexeme_token : ∀ place token', (token place token').lexeme = token'.lexeme

section Adapting

variable {Place : Type} (adaptation : Adaptation Place)

mutual

def Expr.adapt (place : Place) : ResolvedExpr → ResolvedExpr
  | .literal token value => .literal (adaptation.token place token) value
  | .group paren inner => .group (adaptation.token place paren) (inner.adapt place)
  | .unary op token operand => .unary op (adaptation.token place token) (operand.adapt place)
  | .binary op token left right =>
    .binary op (adaptation.token place token) (left.adapt place) (right.adapt place)
  | .logical op token left right =>
    .logical op (adaptation.token place token) (left.adapt place) (right.adapt place)
  | .ident name reference =>
    .ident (adaptation.token place name) (adaptation.reference place reference)
  | .assign name reference value =>
    .assign (adaptation.token place name) (adaptation.reference place reference)
      (value.adapt place)
  | .call paren callee arguments =>
    .call (adaptation.token place paren) (callee.adapt place) (Expr.adaptAll place arguments)

def Expr.adaptAll (place : Place) : List ResolvedExpr → List ResolvedExpr
  | [] => []
  | first :: rest => first.adapt place :: Expr.adaptAll place rest

end

mutual

def Stmt.adapt (place : Place) : ResolvedStmt → ResolvedStmt
  | .expression token value =>
    .expression (adaptation.token place token) (value.adapt adaptation place)
  | .print keyword value => .print (adaptation.token place keyword) (value.adapt adaptation place)
  | .declare name initializer =>
    .declare (adaptation.token place name) (initializer.map (Expr.adapt adaptation place))
  | .block brace body =>
    .block (adaptation.token place brace) (Stmt.adaptAll (adaptation.inner place) body)
  | .ifThen keyword test consequent =>
    .ifThen (adaptation.token place keyword) (test.adapt adaptation place)
      (consequent.adapt place)
  | .ifElse keyword test consequent alternative =>
    .ifElse (adaptation.token place keyword) (test.adapt adaptation place)
      (consequent.adapt place) (alternative.adapt place)
  | .loop keyword test body =>
    .loop (adaptation.token place keyword) (test.adapt adaptation place)
      (body.adapt (adaptation.inner place))
  | .function name parameters body =>
    .function (adaptation.token place name) (parameters.map (adaptation.token place))
      (Stmt.adaptAll (adaptation.inner place) body)
  | .giveBack keyword value =>
    .giveBack (adaptation.token place keyword) (value.map (Expr.adapt adaptation place))

def Stmt.adaptAll (place : Place) : List ResolvedStmt → List ResolvedStmt
  | [] => []
  | first :: rest => first.adapt place :: Stmt.adaptAll place rest

end

end Adapting

/-! ## Places where code is as it was -/

/-- Places where nothing has to be adapted, with the places inside them. -/
structure Adaptation.Fixes {Place : Type} (adaptation : Adaptation Place) (fixed : Place → Prop) :
    Prop where
  token : ∀ place, fixed place → adaptation.token place = id
  reference : ∀ place, fixed place → adaptation.reference place = id
  inner : ∀ place, fixed place → fixed (adaptation.inner place)

section Fixing

variable {Place : Type} {adaptation : Adaptation Place} {fixed : Place → Prop}

mutual

theorem Expr.adapt_of_fixes (fixes : adaptation.Fixes fixed) {place : Place}
    (holds : fixed place) (expr : ResolvedExpr) : expr.adapt adaptation place = expr := by
  cases expr with
  | literal token value => simp only [Expr.adapt, fixes.token place holds, id]
  | group paren inner =>
      simp only [Expr.adapt, fixes.token place holds, id, inner.adapt_of_fixes fixes holds]
  | unary op token operand =>
      simp only [Expr.adapt, fixes.token place holds, id, operand.adapt_of_fixes fixes holds]
  | binary op token left right | logical op token left right =>
      simp only [Expr.adapt, fixes.token place holds, id, left.adapt_of_fixes fixes holds,
        right.adapt_of_fixes fixes holds]
  | ident name reference =>
      simp only [Expr.adapt, fixes.token place holds, fixes.reference place holds, id]
  | assign name reference value =>
      simp only [Expr.adapt, fixes.token place holds, fixes.reference place holds, id,
        value.adapt_of_fixes fixes holds]
  | call paren callee arguments =>
      simp only [Expr.adapt, fixes.token place holds, id, callee.adapt_of_fixes fixes holds,
        Expr.adaptAll_of_fixes fixes holds arguments]

theorem Expr.adaptAll_of_fixes (fixes : adaptation.Fixes fixed) {place : Place}
    (holds : fixed place) (exprs : List ResolvedExpr) :
    Expr.adaptAll adaptation place exprs = exprs := by
  cases exprs with
  | nil => rfl
  | cons first rest =>
      simp only [Expr.adaptAll, first.adapt_of_fixes fixes holds,
        Expr.adaptAll_of_fixes fixes holds rest]

end

theorem Expr.map_adapt_of_fixes (fixes : adaptation.Fixes fixed) {place : Place}
    (holds : fixed place) (expr : Option ResolvedExpr) :
    expr.map (Expr.adapt adaptation place) = expr := by
  cases expr with
  | none => rfl
  | some expr => exact congrArg some (expr.adapt_of_fixes fixes holds)

mutual

theorem Stmt.adapt_of_fixes (fixes : adaptation.Fixes fixed) {place : Place}
    (holds : fixed place) (stmt : ResolvedStmt) : stmt.adapt adaptation place = stmt := by
  cases stmt with
  | expression token value | print token value =>
      simp only [Stmt.adapt, fixes.token place holds, id, value.adapt_of_fixes fixes holds]
  | declare token value | giveBack token value =>
      simp only [Stmt.adapt, fixes.token place holds, id, Expr.map_adapt_of_fixes fixes holds]
  | block brace body =>
      simp only [Stmt.adapt, fixes.token place holds, id,
        Stmt.adaptAll_of_fixes fixes (fixes.inner place holds) body]
  | ifThen keyword test consequent =>
      simp only [Stmt.adapt, fixes.token place holds, id, test.adapt_of_fixes fixes holds,
        consequent.adapt_of_fixes fixes holds]
  | ifElse keyword test consequent alternative =>
      simp only [Stmt.adapt, fixes.token place holds, id, test.adapt_of_fixes fixes holds,
        consequent.adapt_of_fixes fixes holds, alternative.adapt_of_fixes fixes holds]
  | loop keyword test body =>
      simp only [Stmt.adapt, fixes.token place holds, id, test.adapt_of_fixes fixes holds,
        body.adapt_of_fixes fixes (fixes.inner place holds)]
  | function name parameters body =>
      simp only [Stmt.adapt, fixes.token place holds, id, List.map_id,
        Stmt.adaptAll_of_fixes fixes (fixes.inner place holds) body]

theorem Stmt.adaptAll_of_fixes (fixes : adaptation.Fixes fixed) {place : Place}
    (holds : fixed place) (stmts : List ResolvedStmt) :
    Stmt.adaptAll adaptation place stmts = stmts := by
  cases stmts with
  | nil => rfl
  | cons first rest =>
      simp only [Stmt.adaptAll, first.adapt_of_fixes fixes holds,
        Stmt.adaptAll_of_fixes fixes holds rest]

end

end Fixing

/-- Code that stays as it is everywhere. -/
def Adaptation.none : Adaptation Unit where
  token _ := id
  reference _ := id
  inner := id
  lexeme_token _ _ := rfl

theorem Adaptation.none_fixes : Adaptation.none.Fixes fun _ => True :=
  ⟨fun _ _ => rfl, fun _ _ => rfl, fun _ _ => trivial⟩

end Loxley
