import Loxley.Prompt
import Loxley.Proofs.Production.Agreement
import Loxley.Proofs.Words

/-!
# How entries are routed

Whatever the productions derive closes as many parentheses and braces as it opens. An expression has
neither semicolons nor closing braces, and a declaration has at least one. So a source that reads as
a program is neither held back for another line nor taken for an expression, and a source that is
taken for an expression does not read as a program.
-/

set_option autoImplicit false

namespace Loxley

namespace Prompt

/-! ## Nesting -/

/-- How many more parentheses and braces some tokens open than they close. -/
def depth (tokens : List Token) : Int :=
  tokens.foldr (fun token depth => nesting token + depth) 0

@[simp] theorem depth_nil : depth [] = 0 := rfl

@[simp] theorem depth_cons (token : Token) (tokens : List Token) :
    depth (token :: tokens) = nesting token + depth tokens := rfl

@[simp] theorem depth_append (first second : List Token) :
    depth (first ++ second) = depth first + depth second := by
  induction first with
  | nil => simp
  | cons token rest ih => simp [ih, Int.add_assoc]

/-- The marks with which declarations end. -/
def endsDeclaration : TokenKind → Bool
  | .symbol .semicolon | .symbol .rightBrace => true
  | _ => false

/-- Tokens among which no declaration ends. -/
def Unended (tokens : List Token) : Prop :=
  ∀ token ∈ tokens, endsDeclaration token.kind = false

@[simp] theorem unended_nil : Unended [] := by simp [Unended]

@[simp] theorem unended_cons {token : Token} {tokens : List Token} :
    Unended (token :: tokens) ↔ endsDeclaration token.kind = false ∧ Unended tokens :=
  List.forall_mem_cons

@[simp] theorem unended_append {first second : List Token} :
    Unended (first ++ second) ↔ Unended first ∧ Unended second :=
  List.forall_mem_append

end Prompt

namespace Production

open Prompt (depth nesting endsDeclaration Unended)

theorem Constant.settled {token : Token} {value : Literal} (stands : Constant token value) :
    nesting token = 0 ∧ endsDeclaration token.kind = false := by
  cases stands with
  | trueWord isConstant | falseWord isConstant | nilWord isConstant | number isConstant
  | string isConstant => simp [nesting, endsDeclaration, isConstant]

theorem Expression.settled {tier : Tier} {tokens : List Token} {value : Expr Unit}
    (derived : Expression tier tokens value) : depth tokens = 0 ∧ Unended tokens := by
  refine @Expression.rec (fun _ tokens _ _ => depth tokens = 0 ∧ Unended tokens)
    (fun tokens _ _ => depth tokens = 0 ∧ Unended tokens)
    ?tighter ?assign ?logical ?binary ?unary ?call ?constant ?name ?group ?none ?last ?more
    tier tokens value derived
  case tighter => exact fun _ _ settled => settled
  case assign =>
    intro name equals tokens value isName isEquals _ settled
    simp [nesting, endsDeclaration, isName, isEquals, settled]
  case logical =>
    intro op next token first second left right _ spelled _ _ settledLeft settledRight
    cases op <;>
      simp [nesting, endsDeclaration, spelled, LogicalOp.kind, settledLeft, settledRight]
  case binary =>
    intro op next token first second left right _ spelled _ _ settledLeft settledRight
    cases op <;>
      simp [nesting, endsDeclaration, spelled, BinaryOp.kind, settledLeft, settledRight]
  case unary =>
    intro op token tokens operand spelled _ settled
    cases op <;> simp [nesting, endsDeclaration, spelled, UnaryOp.kind, settled]
  case call =>
    intro opening closing first second callee arguments _ opens _ _ closes settledCallee
      settledArguments
    simp [nesting, endsDeclaration, opens, closes, settledCallee, settledArguments]
  case constant => exact fun stands => by simp [stands.settled]
  case name => exact fun isName => by simp [nesting, endsDeclaration, isName]
  case group =>
    intro opening closing tokens inner opens _ closes settled
    simp [nesting, endsDeclaration, opens, closes, settled]
  case none => simp
  case last => exact fun _ settled => settled
  case more =>
    intro tokens rest comma value second others _ separates _ settledFirst settledRest
    simp [nesting, endsDeclaration, separates, settledFirst, settledRest]

theorem ExprStmt.settled {tokens : List Token} {stmt : Stmt Unit}
    (derived : ExprStmt tokens stmt) : depth tokens = 0 ∧ ¬ Unended tokens := by
  obtain ⟨evaluated, ends⟩ := derived
  simp [nesting, endsDeclaration, ends, evaluated.settled]

theorem VarDecl.settled {tokens : List Token} {stmt : Stmt Unit} (derived : VarDecl tokens stmt) :
    depth tokens = 0 ∧ ¬ Unended tokens := by
  cases derived with
  | bare isVar isName ends => simp [nesting, endsDeclaration, isVar, isName, ends]
  | initialized isVar isName isEquals assigned ends =>
      simp [nesting, endsDeclaration, isVar, isName, isEquals, assigned.settled, ends]

theorem Optional.depth_eq_zero {tokens : List Token} {value : Option (Expr Unit)}
    (derived : Optional tokens value) : depth tokens = 0 := by
  cases derived with
  | absent => rfl
  | present given => exact given.settled.1

theorem Initializer.depth_eq_zero {tokens : List Token} {initializer : Option (Stmt Unit)}
    (derived : Initializer tokens initializer) : depth tokens = 0 := by
  cases derived with
  | absent ends => simp [nesting, ends]
  | declare declared => exact declared.settled.1
  | expression evaluated => exact evaluated.settled.1

theorem Parameters.depth_eq_zero {tokens parameters : List Token}
    (derived : Parameters tokens parameters) : depth tokens = 0 := by
  induction derived with
  | none => rfl
  | last isName => simp [nesting, isName]
  | next isName separates _ settled => simp [nesting, isName, separates, settled]

/-- A program is balanced, and unless it is empty, some declaration ends in it. -/
theorem Program.settled {tokens : List Token} {stmts : List (Stmt Unit)}
    (derived : Program tokens stmts) : depth tokens = 0 ∧ (tokens = [] ∨ ¬ Unended tokens) := by
  refine @Program.rec (fun tokens _ _ => depth tokens = 0 ∧ ¬ Unended tokens)
    (fun _ tokens _ _ => depth tokens = 0 ∧ ¬ Unended tokens)
    (fun tokens _ _ => depth tokens = 0 ∧ (tokens = [] ∨ ¬ Unended tokens))
    ?funDecl ?varDecl ?statement ?forStmt ?ifThen ?ifElse ?printStmt ?returnStmt ?whileStmt ?block
    ?exprStmt ?nil ?cons tokens stmts derived
  case funDecl =>
    intro keyword name opening closing brace last tokens body parameters stmts isFun isName opens
      named _ closes starts _ ends settled
    simp [nesting, endsDeclaration, isFun, isName, opens, named.depth_eq_zero, closes, starts,
      settled.1, ends]
  case varDecl => exact fun declared => declared.settled
  case statement => exact fun _ settled => settled
  case forStmt =>
    intro dangling keyword opening semicolon closing start condition step branch initializer test
      increment body stmt isFor opens initialized tested ends stepped closes _ _ settled
    simp [nesting, endsDeclaration, isFor, opens, initialized.depth_eq_zero, tested.depth_eq_zero,
      ends, stepped.depth_eq_zero, closes, settled]
  case ifThen =>
    intro dangling keyword opening closing condition branch test consequent isIf opens tested closes
      _ settled
    simp [nesting, endsDeclaration, isIf, opens, tested.settled, closes, settled]
  case ifElse =>
    intro dangling keyword opening closing other condition first second test consequent alternative
      isIf opens tested closes _ isElse _ settledFirst settledSecond
    simp [nesting, endsDeclaration, isIf, opens, tested.settled, closes, settledFirst, isElse,
      settledSecond]
  case printStmt =>
    intro keyword semicolon tokens value isPrint printed ends
    simp [nesting, endsDeclaration, isPrint, printed.settled, ends]
  case returnStmt =>
    intro keyword semicolon tokens value isReturn given ends
    simp [nesting, endsDeclaration, isReturn, given.depth_eq_zero, ends]
  case whileStmt =>
    intro dangling keyword opening closing condition branch test body isWhile opens tested closes _
      settled
    simp [nesting, endsDeclaration, isWhile, opens, tested.settled, closes, settled]
  case block =>
    intro brace last tokens body starts _ ends settled
    simp [nesting, endsDeclaration, starts, settled.1, ends]
  case exprStmt => exact fun evaluated => evaluated.settled
  case nil => exact ⟨rfl, .inl rfl⟩
  case cons =>
    intro first rest stmt stmts _ _ settledFirst settledRest
    simp [settledFirst, settledRest.1]

/-- No tokens are both a program and an expression. -/
theorem Program.not_expression {tokens : List Token} {stmts : List (Stmt Unit)}
    (derived : Program tokens stmts) (value : Expr Unit) :
    ¬ Expression .assignment tokens value := by
  intro expression
  rcases derived.settled.2 with rfl | ended
  · obtain ⟨first, rest, ⟨⟩, _⟩ := (expression_iff.mp expression).starts
  · exact ended expression.settled.2

end Production

namespace Prompt

variable {source : Text} {words : List Token}

theorem isIncomplete_of_words (isSource : Source.Words source words) :
    isIncomplete source = .ok (decide (0 < depth words)) := by
  obtain ⟨finish, isEnd, scanned⟩ := isSource.scanned
  have counted : depth (words ++ [finish]) = depth words := by simp [nesting, isEnd]
  simp only [isIncomplete, scanned, List.any_nil, Bool.false_or]
  rw [← counted]
  rfl

theorem isExpression_of_words (isSource : Source.Words source words) :
    ∃ answer, isExpression source = .ok answer := by
  obtain ⟨finish, parses⟩ := isSource.parse
  exact ⟨_, by simp only [isExpression, Source.expression, parses Cursor.expression]; rfl⟩

theorem isExpression_eq_true_iff (source : Text) :
    isExpression source = .ok true ↔
      ∃ expr, Source.expression source = { diagnostics := [], result := .ok (some expr) } := by
  match parsed : Source.expression source with
  | { diagnostics := found, result := .error reason } => simp [isExpression, parsed]
  | { diagnostics := found, result := .ok none } => simp [isExpression, parsed]
  | { diagnostics := found, result := .ok (some expr) } => simp [isExpression, parsed]

/--
A source that reads as a program without a diagnostic is neither held back nor taken for an
expression. A source that is taken for an expression is not held back, and as a program it leads to
a diagnostic.
-/
theorem sources_route_one_way (source : Text) :
    (∀ program, Source.program source = { diagnostics := [], result := .ok program } →
      isIncomplete source = .ok false ∧ isExpression source = .ok false) ∧
    (isExpression source = .ok true →
      isIncomplete source = .ok false ∧
        ∃ found program, Source.program source = { diagnostics := found, result := .ok program } ∧
          found ≠ []) := by
  constructor
  · intro program parsed
    obtain ⟨words, isSource, derived⟩ := (Source.program_eq_iff source program).mp parsed
    have isProgram := Production.program_iff.mpr derived
    refine ⟨by rw [isIncomplete_of_words isSource, isProgram.settled.1]; rfl, ?_⟩
    obtain ⟨answer, answered⟩ := isExpression_of_words isSource
    cases answer with
    | false => exact answered
    | true =>
        obtain ⟨expr, read⟩ := (isExpression_eq_true_iff source).mp answered
        obtain ⟨others, sameSource, expression⟩ := (Source.expression_eq_iff source expr).mp read
        rw [isSource.unique sameSource] at expression
        exact absurd (Production.expression_iff.mpr expression) (isProgram.not_expression expr)
  · intro answered
    obtain ⟨expr, read⟩ := (isExpression_eq_true_iff source).mp answered
    obtain ⟨words, isSource, derived⟩ := (Source.expression_eq_iff source expr).mp read
    have isExpr := Production.expression_iff.mpr derived
    refine ⟨by rw [isIncomplete_of_words isSource, isExpr.settled.1]; rfl, ?_⟩
    obtain ⟨finish, parses⟩ := isSource.parse
    refine ⟨_, _, parses Cursor.program, fun clean => ?_⟩
    have program := (Cursor.program_eq_iff { rest := words, finish } _).mp (by rw [← clean])
    exact (Production.program_iff.mpr program).not_expression expr isExpr

def countdown : Text := "fun down(n) \x7b while (n) \x7b print (n); n = n - 1; \x7d \x7d"

def applied : Text := "down // the function\n((2) + (1))"

theorem countdown_routes_one_way :
    (∃ program, Source.program countdown = { diagnostics := [], result := .ok program } ∧
      isIncomplete countdown = .ok false ∧ isExpression countdown = .ok false) ∧
    isExpression applied = .ok true ∧ isIncomplete applied = .ok false ∧
      ∃ found program, Source.program applied = { diagnostics := found, result := .ok program } ∧
        found ≠ [] := by
  obtain ⟨program, accepts⟩ := (Source.isAccepted_iff countdown).mp (by decide +kernel)
  have isExpr : isExpression applied = .ok true := by decide +kernel
  exact ⟨⟨program, accepts.parsed, (sources_route_one_way countdown).1 program accepts.parsed⟩,
    isExpr, (sources_route_one_way applied).2 isExpr⟩

end Prompt

end Loxley
