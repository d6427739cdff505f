import Loxley.Proofs.Adaptation

/-!
# Code with wider distances

Where further environments lie between those of the scopes around some code, its variables are
further away. Widening the distances of analysed code is the same as analysing it with further
scopes.
-/

set_option autoImplicit false

namespace Loxley

/-- How many further environments lie after each environment of a chain. -/
abbrev Gaps := List Nat

namespace Gaps

/-- How far away the environment at a distance is, with the gaps up to it. -/
def reach : Gaps → Nat → Nat
  | _, 0 => 0
  | [], distance + 1 => distance + 1
  | gap :: gaps, distance + 1 => reach gaps distance + gap + 1

@[simp] theorem reach_zero (gaps : Gaps) : gaps.reach 0 = 0 := by
  cases gaps <;> rfl

@[simp] theorem reach_nil (distance : Nat) : Gaps.reach [] distance = distance := by
  cases distance <;> rfl

@[simp] theorem reach_cons_succ (gap : Nat) (gaps : Gaps) (distance : Nat) :
    Gaps.reach (gap :: gaps) (distance + 1) = gaps.reach distance + gap + 1 := rfl

/-- No further environments at all. -/
def Closed (gaps : Gaps) : Prop :=
  ∀ distance, gaps.reach distance = distance

theorem closed_nil : Closed [] := reach_nil

theorem Closed.enter {gaps : Gaps} (closed : gaps.Closed) : Closed (0 :: gaps) := by
  intro distance
  cases distance with
  | zero => exact reach_zero _
  | succ distance => rw [reach_cons_succ, closed distance]

end Gaps

/-- Code whose variables are further away. What it encloses itself lies close together. -/
def Adaptation.widening : Adaptation Gaps where
  token _ := id
  reference gaps := Option.map gaps.reach
  inner gaps := 0 :: gaps
  lexeme_token _ _ := rfl

@[simp] theorem Adaptation.token_widening (gaps : Gaps) : widening.token gaps = id := rfl

@[simp] theorem Adaptation.reference_widening (gaps : Gaps) :
    widening.reference gaps = Option.map gaps.reach := rfl

@[simp] theorem Adaptation.inner_widening (gaps : Gaps) : widening.inner gaps = 0 :: gaps := rfl

abbrev Expr.widen (gaps : Gaps) (expr : ResolvedExpr) : ResolvedExpr :=
  expr.adapt .widening gaps

abbrev Stmt.widen (gaps : Gaps) (stmt : ResolvedStmt) : ResolvedStmt :=
  stmt.adapt .widening gaps

abbrev Stmt.widenAll (gaps : Gaps) (stmts : List ResolvedStmt) : List ResolvedStmt :=
  Stmt.adaptAll .widening gaps stmts

/-- Without gaps, code stays as it is. -/
theorem Adaptation.widening_fixes : Adaptation.widening.Fixes Gaps.Closed where
  token _ _ := rfl
  reference gaps closed := by
    have same : gaps.reach = id := funext closed
    rw [Adaptation.reference_widening, same, Option.map_id]
  inner _ closed := closed.enter

/-! ## Analysis with further scopes -/

/-- Other scopes, among which those of the same names lie further away. -/
structure Scopes.Widens (gaps : Gaps) (scopes wider : Scopes) : Prop where
  distance : ∀ name, wider.distance? name = (scopes.distance? name).map gaps.reach
  isEmpty : wider.isEmpty = scopes.isEmpty

namespace Scopes.Widens

variable {gaps : Gaps} {scopes wider : Scopes}

theorem of_closed (closed : gaps.Closed) (scopes : Scopes) : Widens gaps scopes scopes := by
  refine ⟨fun name => ?_, rfl⟩
  have same : gaps.reach = id := funext closed
  rw [same, Option.map_id, id]

theorem enter (widens : Widens gaps scopes wider) :
    Widens (0 :: gaps) ([] :: scopes) ([] :: wider) := by
  refine ⟨fun name => ?_, rfl⟩
  rw [distance?_enter, distance?_enter, widens.distance]
  cases scopes.distance? name <;> simp

theorem declare (widens : Widens gaps scopes wider) (name : Text) (ready : Bool) :
    Widens gaps (scopes.declare name ready) (wider.declare name ready) := by
  refine ⟨fun sought => ?_, by simp [widens.isEmpty]⟩
  by_cases same : sought = name
  · subst sought
    cases shape : scopes with
    | nil =>
        have alsoNil : wider = [] := List.isEmpty_iff.mp (widens.isEmpty.trans (by simp [shape]))
        simp [alsoNil]
    | cons innermost outer =>
        have isLocal : wider ≠ [] := by
          intro missing
          have impossible := widens.isEmpty
          simp [missing, shape] at impossible
        rw [distance?_declare_self isLocal, distance?_declare_self (by simp)]
        simp
  · rw [distance?_declare_of_ne same, distance?_declare_of_ne same, widens.distance]

theorem enterFunction (widens : Widens gaps scopes wider) (parameters : List Token) :
    Widens (0 :: gaps) (scopes.enterFunction parameters) (wider.enterFunction parameters) := by
  have bound : ∀ inner other : Scopes, Widens (0 :: gaps) inner other →
      Widens (0 :: gaps)
        (parameters.foldl (fun inner parameter => inner.declare parameter.lexeme true) inner)
        (parameters.foldl (fun inner parameter => inner.declare parameter.lexeme true) other) := by
    induction parameters with
    | nil => exact fun _ _ same => same
    | cons parameter others ih =>
        exact fun inner other same => ih _ _ (same.declare parameter.lexeme true)
  exact bound _ _ widens.enter

theorem extend (widens : Widens gaps scopes wider) (stmt : Stmt Unit) :
    Widens gaps (stmt.extend scopes) (stmt.extend wider) := by
  fun_induction Stmt.extend scopes stmt generalizing wider with
  | case1 scopes name initializer => exact widens.declare name.lexeme true
  | case2 scopes name parameters body => exact widens.declare name.lexeme true
  | case3 scopes keyword test consequent ih => exact ih widens
  | case4 scopes keyword test consequent alternative ihConsequent ihAlternative =>
      exact ihAlternative (ihConsequent widens)
  | case5 | case6 | case7 | case8 | case9 => exact widens

end Scopes.Widens

mutual

theorem Expr.widen_resolve {gaps : Gaps} {scopes wider : Scopes}
    (widens : Scopes.Widens gaps scopes wider) (expr : Expr Unit) :
    (expr.resolve scopes).widen gaps = expr.resolve wider := by
  cases expr with
  | literal token value => rfl
  | group paren inner => simp [Expr.resolve, Expr.adapt, inner.widen_resolve widens]
  | unary op token operand => simp [Expr.resolve, Expr.adapt, operand.widen_resolve widens]
  | binary op token left right | logical op token left right =>
      simp [Expr.resolve, Expr.adapt, left.widen_resolve widens, right.widen_resolve widens]
  | ident name reference => simp [Expr.resolve, Expr.adapt, widens.distance]
  | assign name reference value =>
      simp [Expr.resolve, Expr.adapt, widens.distance, value.widen_resolve widens]
  | call paren callee arguments =>
      simp [Expr.resolve, Expr.adapt, callee.widen_resolve widens,
        Expr.widenAll_resolveAll widens arguments]

theorem Expr.widenAll_resolveAll {gaps : Gaps} {scopes wider : Scopes}
    (widens : Scopes.Widens gaps scopes wider) (exprs : List (Expr Unit)) :
    Expr.adaptAll .widening gaps (Expr.resolveAll scopes exprs) = Expr.resolveAll wider exprs := by
  cases exprs with
  | nil => rfl
  | cons first rest =>
      simp [Expr.resolveAll, Expr.adaptAll, first.widen_resolve widens,
        Expr.widenAll_resolveAll widens rest]

end

theorem Expr.map_widen_resolve {gaps : Gaps} {scopes wider : Scopes}
    (widens : Scopes.Widens gaps scopes wider) (expr : Option (Expr Unit)) :
    (expr.map (Expr.resolve scopes)).map (Expr.adapt .widening gaps) =
      expr.map (Expr.resolve wider) := by
  cases expr with
  | none => rfl
  | some expr => exact congrArg some (expr.widen_resolve widens)

mutual

theorem Stmt.widen_resolve {gaps : Gaps} {scopes wider : Scopes}
    (widens : Scopes.Widens gaps scopes wider) (stmt : Stmt Unit) :
    (stmt.resolve scopes).widen gaps = stmt.resolve wider := by
  cases stmt with
  | expression token value | print token value =>
      simp [Stmt.resolve, Stmt.adapt, value.widen_resolve widens]
  | declare name initializer =>
      simp only [Stmt.resolve, Stmt.adapt, Adaptation.token_widening, id,
        Expr.map_widen_resolve (widens.declare name.lexeme false)]
  | block brace body =>
      simp [Stmt.resolve, Stmt.adapt, Stmt.widenAll_resolveAll widens.enter body]
  | ifThen keyword test consequent =>
      simp [Stmt.resolve, Stmt.adapt, test.widen_resolve widens, consequent.widen_resolve widens]
  | ifElse keyword test consequent alternative =>
      simp [Stmt.resolve, Stmt.adapt, test.widen_resolve widens, consequent.widen_resolve widens,
        alternative.widen_resolve (widens.extend consequent)]
  | loop keyword test body =>
      simp [Stmt.resolve, Stmt.adapt, test.widen_resolve widens, body.widen_resolve widens.enter]
  | function name parameters body =>
      simp [Stmt.resolve, Stmt.adapt,
        Stmt.widenAll_resolveAll ((widens.declare name.lexeme true).enterFunction parameters) body]
  | giveBack keyword value =>
      simp only [Stmt.resolve, Stmt.adapt, Adaptation.token_widening, id,
        Expr.map_widen_resolve widens]

theorem Stmt.widenAll_resolveAll {gaps : Gaps} {scopes wider : Scopes}
    (widens : Scopes.Widens gaps scopes wider) (stmts : List (Stmt Unit)) :
    Stmt.widenAll gaps (Stmt.resolveAll scopes stmts) = Stmt.resolveAll wider stmts := by
  cases stmts with
  | nil => rfl
  | cons first rest =>
      simp [Stmt.resolveAll, Stmt.adaptAll, first.widen_resolve widens,
        Stmt.widenAll_resolveAll (widens.extend first) rest]

end

end Loxley
