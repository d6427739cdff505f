import Loxley.Proofs.Grammar
import Loxley.Proofs.Parser.Progress

/-!
# The parser keeps to the grammar

Whatever a rule reads without a diagnostic is derived by the grammar. A statement that could still
take an `else` is not followed by one.
-/

set_option autoImplicit false

namespace Loxley

namespace Parser

open Grammar

variable {α : Type}

/-- The tokens that a rule takes without a diagnostic derive the value that it gives. -/
def Reads (derives : List Token → α → Prop) (rule : Parser α) : Prop :=
  ∀ ⦃cursor stopped : Cursor⦄ ⦃value : α⦄, rule cursor = .ok value [] stopped →
    ∃ tokens, cursor.rest = tokens ++ stopped.rest ∧ derives tokens value

theorem reads_exhausted (derives : List Token → α → Prop) :
    Reads derives (exhausted : Parser α) := by
  intro cursor stopped value parsed
  cases parsed

/-- The kind of token that starts a form of statement. -/
def StatementForm.kind : StatementForm → TokenKind
  | forLoop => .keyword .forWord
  | conditional => .keyword .ifWord
  | print => .keyword .printWord
  | giveBack => .keyword .returnWord
  | whileLoop => .keyword .whileWord
  | block => .symbol .leftBrace

theorem StatementForm.ofKind?_eq_some {kind : TokenKind} {form : StatementForm} :
    StatementForm.ofKind? kind = some form ↔ kind = form.kind := by
  constructor
  · intro formed
    unfold StatementForm.ofKind? at formed
    split at formed <;> cases formed <;> rfl
  · rintro rfl
    cases form <;> rfl

/-- The rules for expressions keep to the grammar, for an amount of fuel. -/
structure ReadsExpr (fuel : Nat) : Prop where
  expression : Reads Expression (expression fuel)
  chain : ∀ strength, Reads (Chain strength) (chain fuel strength)
  chainRest : ∀ strength left, Reads (Operands strength left) (chainRest fuel strength left)
  unary : Reads Unary (unary fuel)
  callRest : ∀ callee, Reads (Calls callee) (callRest fuel callee)
  argumentsFrom : ∀ earlier, Reads
    (fun tokens arguments => Arguments tokens arguments ∧ earlier + arguments.length ≤ maxArguments)
    (argumentsFrom fuel earlier)
  primary : Reads Primary (primary fuel)

namespace ReadsExpr

variable {fuel : Nat}

private theorem expression_succ (ih : ReadsExpr fuel) :
    Reads Expression (Parser.expression (fuel + 1)) := by
  intro cursor stopped value parsed
  obtain ⟨target, position, parsedTarget, remaining⟩ := bind_eq_ok_nil parsed
  obtain ⟨first, shape, chained⟩ := ih.chain 1 parsedTarget
  rcases accept_bind_eq_ok_nil remaining with
    ⟨_, finished⟩ | ⟨equals, further, equalsShape, isEquals, remaining⟩
  · cases finished
    exact ⟨first, shape, .chain chained⟩
  · obtain ⟨assigned, position, parsedValue, remaining⟩ := bind_eq_ok_nil remaining
    obtain ⟨tokens, valueShape, derived⟩ := ih.expression parsedValue
    simp only at valueShape
    cases target with
    | ident name reference =>
        cases remaining
        obtain ⟨rfl, isName⟩ := chained.eq_name
        exact ⟨name :: equals :: tokens, by simp [shape, equalsShape, valueShape],
          .assign isName isEquals derived⟩
    | literal _ _ | group _ _ | unary _ _ _ | binary _ _ _ _ | logical _ _ _ _ | assign _ _ _
    | call _ _ _ =>
        obtain ⟨_, _, reported, _⟩ := bind_eq_ok_nil remaining
        cases reported

private theorem chain_succ (ih : ReadsExpr fuel) (strength : Nat) :
    Reads (Chain strength) (Parser.chain (fuel + 1) strength) := by
  intro cursor stopped value parsed
  unfold Parser.chain at parsed
  split at parsed
  · next within =>
      obtain ⟨left, position, parsedLeft, remaining⟩ := bind_eq_ok_nil parsed
      obtain ⟨first, shape, leftmost⟩ := ih.chain (strength + 1) parsedLeft
      obtain ⟨rest, restShape, others⟩ := ih.chainRest strength left remaining
      exact ⟨first ++ rest, by simp [shape, restShape], .operands within leftmost others⟩
  · next beyond =>
      obtain ⟨tokens, shape, operand⟩ := ih.unary parsed
      exact ⟨tokens, shape, .unary (Nat.lt_of_not_le beyond) operand⟩

private theorem chainRest_succ (ih : ReadsExpr fuel) (strength : Nat) (left : Expr Unit) :
    Reads (Operands strength left) (Parser.chainRest (fuel + 1) strength left) := by
  intro cursor stopped value parsed
  rcases acceptBy_bind_eq_ok_nil parsed with
    finished | ⟨token, further, connective, shape, chosen, remaining⟩
  · cases finished
    exact ⟨[], rfl, .none⟩
  · obtain ⟨denoted, same⟩ := Option.filter_eq_some_iff.mp chosen
    obtain ⟨right, position, parsedRight, remaining⟩ := bind_eq_ok_nil remaining
    obtain ⟨operand, operandShape, chained⟩ := ih.chain (strength + 1) parsedRight
    obtain ⟨rest, restShape, others⟩ := ih.chainRest strength _ remaining
    simp only at operandShape
    exact ⟨token :: (operand ++ rest), by simp [shape, operandShape, restShape],
      .next denoted (eq_of_beq same) chained others⟩

private theorem unary_succ (ih : ReadsExpr fuel) : Reads Unary (Parser.unary (fuel + 1)) := by
  intro cursor stopped value parsed
  rcases acceptBy_bind_eq_ok_nil parsed with
    remaining | ⟨token, further, op, shape, denoted, remaining⟩
  · obtain ⟨callee, position, parsedCallee, remaining⟩ := bind_eq_ok_nil remaining
    obtain ⟨first, shape, primary⟩ := ih.primary parsedCallee
    obtain ⟨rest, restShape, called⟩ := ih.callRest callee remaining
    exact ⟨first ++ rest, by simp [shape, restShape], .calls primary called⟩
  · obtain ⟨operand, position, parsedOperand, finished⟩ := bind_eq_ok_nil remaining
    obtain ⟨tokens, operandShape, operated⟩ := ih.unary parsedOperand
    cases finished
    exact ⟨token :: tokens, by simpa [shape] using operandShape, .operator denoted operated⟩

private theorem callRest_succ (ih : ReadsExpr fuel) (callee : Expr Unit) :
    Reads (Calls callee) (Parser.callRest (fuel + 1) callee) := by
  intro cursor stopped value parsed
  rcases accept_bind_eq_ok_nil parsed with
    ⟨_, finished⟩ | ⟨opening, further, shape, opens, remaining⟩
  · cases finished
    exact ⟨[], rfl, .none⟩
  · obtain ⟨isEmpty, position, looked, remaining⟩ := bind_eq_ok_nil remaining
    cases looked
    split at remaining
    · obtain ⟨arguments, position, none, remaining⟩ := bind_eq_ok_nil remaining
      cases none
      obtain ⟨closing, rest, closingShape, closes, remaining⟩ := require_bind_eq_ok_nil remaining
      obtain ⟨tokens, restShape, others⟩ := ih.callRest _ remaining
      simp only at closingShape restShape
      exact ⟨opening :: closing :: tokens, by simp [shape, closingShape, restShape],
        .empty opens closes others⟩
    · obtain ⟨arguments, position, parsedArguments, remaining⟩ := bind_eq_ok_nil remaining
      obtain ⟨tokens, argumentsShape, passed, few⟩ := ih.argumentsFrom 0 parsedArguments
      obtain ⟨closing, rest, closingShape, closes, remaining⟩ := require_bind_eq_ok_nil remaining
      obtain ⟨later, restShape, others⟩ := ih.callRest _ remaining
      simp only at argumentsShape restShape
      exact ⟨opening :: (tokens ++ closing :: later),
        by simp [shape, argumentsShape, closingShape, restShape],
        .given opens passed (by rwa [Nat.zero_add] at few) closes others⟩

private theorem argumentsFrom_succ (ih : ReadsExpr fuel) (earlier : Nat) :
    Reads (fun tokens arguments =>
        Arguments tokens arguments ∧ earlier + arguments.length ≤ maxArguments)
      (Parser.argumentsFrom (fuel + 1) earlier) := by
  intro cursor stopped value parsed
  unfold Parser.argumentsFrom at parsed
  split at parsed
  · obtain ⟨_, _, reported, _⟩ := bind_eq_ok_nil parsed
    cases reported
  · next few =>
      obtain ⟨first, position, parsedFirst, remaining⟩ := bind_eq_ok_nil parsed
      obtain ⟨tokens, shape, argument⟩ := ih.expression parsedFirst
      rcases accept_bind_eq_ok_nil remaining with
        ⟨_, finished⟩ | ⟨comma, further, commaShape, separates, remaining⟩
      · cases finished
        exact ⟨tokens, shape, .last argument, Nat.lt_of_not_le few⟩
      · obtain ⟨others, position, parsedOthers, finished⟩ := bind_eq_ok_nil remaining
        obtain ⟨rest, restShape, passed, bounded⟩ := ih.argumentsFrom _ parsedOthers
        cases finished
        simp only at restShape
        refine ⟨tokens ++ comma :: rest, by simp [shape, commaShape, restShape],
          .next argument separates passed, ?_⟩
        rw [List.length_cons]
        omega

private theorem primary_succ (ih : ReadsExpr fuel) :
    Reads Primary (Parser.primary (fuel + 1)) := by
  intro cursor stopped value parsed
  unfold Parser.primary at parsed
  cases shape : cursor.rest with
  | nil => simp [shape, fail] at parsed
  | cons token rest =>
      simp only [shape] at parsed
      split at parsed
      · next isConstant =>
          cases parsed
          exact ⟨[token], rfl, .constant isConstant⟩
      · split at parsed
        · next isName =>
            cases parsed
            exact ⟨[token], rfl, .name isName⟩
        · split at parsed
          · next opens =>
              obtain ⟨inner, position, parsedInner, remaining⟩ := bind_eq_ok_nil parsed
              obtain ⟨tokens, innerShape, enclosed⟩ := ih.expression parsedInner
              obtain ⟨closing, further, closingShape, closes, finished⟩ :=
                require_bind_eq_ok_nil remaining
              cases finished
              simp only at innerShape
              exact ⟨token :: (tokens ++ [closing]), by simp [innerShape, closingShape],
                .group opens enclosed closes⟩
          · cases parsed

end ReadsExpr

theorem readsExpr (fuel : Nat) : ReadsExpr fuel := by
  induction fuel with
  | zero => constructor <;> intros <;> exact reads_exhausted _
  | succ fuel ih =>
      exact ⟨ih.expression_succ, ih.chain_succ, ih.chainRest_succ, ih.unary_succ, ih.callRest_succ,
        ih.argumentsFrom_succ, ih.primary_succ⟩

section Statements

variable {fuel : Nat}

private theorem reads_optionalExpression (fuel : Nat) (absent : TokenKind) :
    Reads Optional (optionalExpression fuel absent) := by
  intro cursor stopped value parsed
  obtain ⟨isAbsent, position, looked, remaining⟩ := bind_eq_ok_nil parsed
  cases looked
  split at remaining
  · cases remaining
    exact ⟨[], rfl, .absent⟩
  · obtain ⟨expr, position, parsedExpr, finished⟩ := bind_eq_ok_nil remaining
    obtain ⟨tokens, shape, expression⟩ := (readsExpr fuel).expression parsedExpr
    cases finished
    exact ⟨tokens, shape, .present expression⟩

private theorem reads_expressionStatement (fuel : Nat) :
    Reads ExpressionStatement (expressionStatement fuel) := by
  intro cursor stopped value parsed
  obtain ⟨expr, position, parsedExpr, remaining⟩ := bind_eq_ok_nil parsed
  obtain ⟨tokens, shape, expression⟩ := (readsExpr fuel).expression parsedExpr
  obtain ⟨semicolon, further, endShape, ends, finished⟩ := require_bind_eq_ok_nil remaining
  cases finished
  exact ⟨tokens ++ [semicolon], by simp [shape, endShape], .intro expression ends⟩

private theorem reads_variableDeclaration (fuel : Nat) :
    Reads Variable (variableDeclaration fuel) := by
  intro cursor stopped value parsed
  obtain ⟨name, further, shape, isName, remaining⟩ := require_bind_eq_ok_nil parsed
  rcases accept_bind_eq_ok_nil remaining with
    ⟨_, remaining⟩ | ⟨equals, later, equalsShape, isEquals, remaining⟩
  · obtain ⟨semicolon, rest, endShape, ends, finished⟩ := require_bind_eq_ok_nil remaining
    cases finished
    simp only at endShape
    exact ⟨[name, semicolon], by simp [shape, endShape], .bare isName ends⟩
  · obtain ⟨expr, position, parsedExpr, remaining⟩ := bind_eq_ok_nil remaining
    obtain ⟨tokens, exprShape, expression⟩ := (readsExpr fuel).expression parsedExpr
    obtain ⟨semicolon, rest, endShape, ends, finished⟩ := require_bind_eq_ok_nil remaining
    cases finished
    simp only at equalsShape exprShape
    exact ⟨name :: equals :: (tokens ++ [semicolon]),
      by simp [shape, equalsShape, exprShape, endShape],
      .initialized isName isEquals expression ends⟩

private theorem reads_forInitializer (fuel : Nat) : Reads Initializer (forInitializer fuel) := by
  intro cursor stopped value parsed
  rcases accept_bind_eq_ok_nil parsed with
    ⟨_, remaining⟩ | ⟨semicolon, further, shape, ends, finished⟩
  · rcases accept_bind_eq_ok_nil remaining with
      ⟨_, remaining⟩ | ⟨keyword, further, shape, isVar, remaining⟩
    · obtain ⟨first, position, parsedFirst, finished⟩ := bind_eq_ok_nil remaining
      obtain ⟨tokens, shape, evaluated⟩ := reads_expressionStatement fuel parsedFirst
      cases finished
      exact ⟨tokens, shape, .expression evaluated⟩
    · obtain ⟨first, position, parsedFirst, finished⟩ := bind_eq_ok_nil remaining
      obtain ⟨tokens, firstShape, declared⟩ := reads_variableDeclaration fuel parsedFirst
      cases finished
      simp only at firstShape
      exact ⟨keyword :: tokens, by simp [shape, firstShape], .declare isVar declared⟩
  · cases finished
    exact ⟨[semicolon], shape, .absent ends⟩

private theorem reads_parametersFrom (fuel earlier : Nat) :
    Reads (fun tokens parameters =>
        Parameters tokens parameters ∧ earlier + parameters.length ≤ maxArguments)
      (parametersFrom fuel earlier) := by
  induction fuel generalizing earlier with
  | zero => exact reads_exhausted _
  | succ fuel ih =>
      intro cursor stopped value parsed
      unfold parametersFrom at parsed
      split at parsed
      · obtain ⟨_, _, reported, _⟩ := bind_eq_ok_nil parsed
        cases reported
      · next few =>
          obtain ⟨name, further, shape, isName, remaining⟩ := require_bind_eq_ok_nil parsed
          rcases accept_bind_eq_ok_nil remaining with
            ⟨_, finished⟩ | ⟨comma, later, commaShape, separates, remaining⟩
          · cases finished
            exact ⟨[name], shape, .last isName, Nat.lt_of_not_le few⟩
          · obtain ⟨others, position, parsedOthers, finished⟩ := bind_eq_ok_nil remaining
            obtain ⟨rest, restShape, named, bounded⟩ := ih _ parsedOthers
            cases finished
            simp only at commaShape restShape
            refine ⟨name :: comma :: rest, by simp [shape, commaShape, restShape],
              .next isName separates named, ?_⟩
            rw [List.length_cons]
            omega

/-- What follows a statement is no `else` that the statement could take. -/
def NoElse (isOpen : Bool) (rest : List Token) : Prop :=
  isOpen = true → ∀ token ∈ rest.head?, token.kind ≠ .keyword .elseWord

theorem noElse_false (rest : List Token) : NoElse false rest :=
  by rintro ⟨⟩

/-- Where at most so many tokens are left, a rule reads statements, each up to the last `else`. -/
def ReadsStatement (bound : Nat) (rule : Parser (Stmt Unit)) : Prop :=
  ∀ ⦃cursor stopped : Cursor⦄ ⦃stmt : Stmt Unit⦄, cursor.rest.length ≤ bound →
    rule cursor = .ok stmt [] stopped →
    ∃ tokens isOpen, cursor.rest = tokens ++ stopped.rest ∧ Statement isOpen tokens stmt ∧
      NoElse isOpen stopped.rest

/-- Where at most so many tokens are left, a rule reads declarations up to a closing brace. -/
def ReadsBlock (bound : Nat) (rule : Parser (List (Stmt Unit))) : Prop :=
  ∀ ⦃cursor stopped : Cursor⦄ ⦃stmts : List (Stmt Unit)⦄, cursor.rest.length ≤ bound →
    rule cursor = .ok stmts [] stopped →
    ∃ tokens last, cursor.rest = tokens ++ last :: stopped.rest ∧
      last.kind = .symbol .rightBrace ∧ Declarations tokens stmts

/-- Where at most so many tokens are left, a rule reads a declaration, and gives nothing else. -/
def ReadsDeclaration (bound : Nat) (rule : Parser (Option (Stmt Unit))) : Prop :=
  ∀ ⦃cursor stopped : Cursor⦄ ⦃given : Option (Stmt Unit)⦄, cursor.rest.length ≤ bound →
    rule cursor = .ok given [] stopped →
    ∃ tokens stmt, cursor.rest = tokens ++ stopped.rest ∧ given = some stmt ∧
      Declaration tokens stmt

variable {bound : Nat}

/-- Statements that follow some tokens are within the same bound. -/
private theorem within_of_shape {tokens earlier rest : List Token} (within : tokens.length ≤ bound)
    (shape : tokens = earlier ++ rest) : rest.length ≤ bound := by
  rw [shape, List.length_append] at within
  omega

private theorem reads_condition {β : Type} {first second : Expectation}
    {next : Expr Unit → Parser β} {cursor stopped : Cursor} {value : β}
    (parsed : (do
      let _ ← require (.symbol .leftParen) first
      let test ← expression fuel
      let _ ← require (.symbol .rightParen) second
      next test) cursor = .ok value [] stopped) :
    ∃ opening condition closing test, ∃ position : Cursor,
      cursor.rest = (opening :: (condition ++ [closing])) ++ position.rest ∧
      opening.kind = .symbol .leftParen ∧ Expression condition test ∧
      closing.kind = .symbol .rightParen ∧ next test position = .ok value [] stopped := by
  obtain ⟨opening, further, shape, opens, remaining⟩ := require_bind_eq_ok_nil parsed
  obtain ⟨test, position, parsedTest, remaining⟩ := bind_eq_ok_nil remaining
  obtain ⟨condition, testShape, tested⟩ := (readsExpr fuel).expression parsedTest
  obtain ⟨closing, inside, closingShape, closes, remaining⟩ := require_bind_eq_ok_nil remaining
  simp only at testShape
  exact ⟨opening, condition, closing, test, _, by simp [shape, testShape, closingShape], opens,
    tested, closes, remaining⟩

private theorem readsStatement_ifStatement {branch : Parser (Stmt Unit)}
    (branches : ReadsStatement bound branch) {keyword : Token}
    (isIf : keyword.kind = .keyword .ifWord) {cursor stopped : Cursor} {stmt : Stmt Unit}
    (within : cursor.rest.length ≤ bound)
    (parsed : ifStatement fuel branch keyword cursor = .ok stmt [] stopped) :
    ∃ tokens isOpen, cursor.rest = tokens ++ stopped.rest ∧
      Statement isOpen (keyword :: tokens) stmt ∧ NoElse isOpen stopped.rest := by
  obtain ⟨opening, condition, closing, test, inside, shape, opens, tested, closes, remaining⟩ :=
    reads_condition parsed
  obtain ⟨consequent, position, parsedBranch, remaining⟩ := bind_eq_ok_nil remaining
  obtain ⟨first, firstOpen, firstShape, stated, noElse⟩ :=
    branches (within_of_shape within shape) parsedBranch
  rcases accept_bind_eq_ok_nil remaining with
    ⟨others, finished⟩ | ⟨other, rest, otherShape, isElse, remaining⟩
  · cases finished
    exact ⟨opening :: (condition ++ closing :: first), true, by simp [shape, firstShape],
      .ifThen isIf opens tested closes stated, fun _ => others⟩
  · obtain ⟨alternative, position', parsedOther, finished⟩ := bind_eq_ok_nil remaining
    -- The first branch is followed by `else`, so it is not open.
    have firstClosed : firstOpen = false := by
      cases firstOpen with
      | false => rfl
      | true => exact absurd isElse (noElse rfl other (by simp [otherShape]))
    subst firstClosed
    have wholeShape : cursor.rest =
        (opening :: (condition ++ closing :: (first ++ [other]))) ++ rest := by
      simp [shape, firstShape, otherShape]
    obtain ⟨second, secondOpen, secondShape, otherwise, noElse⟩ :=
      branches (within_of_shape within wholeShape) parsedOther
    cases finished
    simp only at secondShape
    exact ⟨opening :: (condition ++ closing :: (first ++ other :: second)), secondOpen,
      by simp [wholeShape, secondShape],
      .ifElse isIf opens tested closes stated isElse otherwise, noElse⟩

private theorem readsStatement_whileStatement {branch : Parser (Stmt Unit)}
    (branches : ReadsStatement bound branch) {keyword : Token}
    (isWhile : keyword.kind = .keyword .whileWord) {cursor stopped : Cursor} {stmt : Stmt Unit}
    (within : cursor.rest.length ≤ bound)
    (parsed : whileStatement fuel branch keyword cursor = .ok stmt [] stopped) :
    ∃ tokens isOpen, cursor.rest = tokens ++ stopped.rest ∧
      Statement isOpen (keyword :: tokens) stmt ∧ NoElse isOpen stopped.rest := by
  obtain ⟨opening, condition, closing, test, inside, shape, opens, tested, closes, remaining⟩ :=
    reads_condition parsed
  obtain ⟨body, position, parsedBody, finished⟩ := bind_eq_ok_nil remaining
  obtain ⟨tokens, isOpen, bodyShape, stated, noElse⟩ :=
    branches (within_of_shape within shape) parsedBody
  cases finished
  exact ⟨opening :: (condition ++ closing :: tokens), isOpen, by simp [shape, bodyShape],
    .whileLoop isWhile opens tested closes stated, noElse⟩

private theorem readsStatement_forStatement {branch : Parser (Stmt Unit)}
    (branches : ReadsStatement bound branch) {keyword : Token}
    (isFor : keyword.kind = .keyword .forWord) {cursor stopped : Cursor} {stmt : Stmt Unit}
    (within : cursor.rest.length ≤ bound)
    (parsed : forStatement fuel branch keyword cursor = .ok stmt [] stopped) :
    ∃ tokens isOpen, cursor.rest = tokens ++ stopped.rest ∧
      Statement isOpen (keyword :: tokens) stmt ∧ NoElse isOpen stopped.rest := by
  obtain ⟨opening, further, shape, opens, remaining⟩ := require_bind_eq_ok_nil parsed
  obtain ⟨initializer, position, parsedStart, remaining⟩ := bind_eq_ok_nil remaining
  obtain ⟨start, startShape, initialized⟩ := reads_forInitializer fuel parsedStart
  obtain ⟨test, position', parsedTest, remaining⟩ := bind_eq_ok_nil remaining
  obtain ⟨condition, testShape, tested⟩ := reads_optionalExpression fuel _ parsedTest
  obtain ⟨semicolon, later, endShape, ends, remaining⟩ := require_bind_eq_ok_nil remaining
  obtain ⟨increment, position'', parsedStep, remaining⟩ := bind_eq_ok_nil remaining
  obtain ⟨step, stepShape, stepped⟩ := reads_optionalExpression fuel _ parsedStep
  obtain ⟨closing, inside, closingShape, closes, remaining⟩ := require_bind_eq_ok_nil remaining
  obtain ⟨body, last, parsedBody, finished⟩ := bind_eq_ok_nil remaining
  simp only at startShape stepShape
  have headShape : cursor.rest =
      (opening :: (start ++ (condition ++ semicolon :: (step ++ [closing])))) ++ inside := by
    simp [shape, startShape, testShape, endShape, stepShape, closingShape]
  obtain ⟨tokens, isOpen, bodyShape, stated, noElse⟩ :=
    branches (within_of_shape within headShape) parsedBody
  cases finished
  simp only at bodyShape
  exact ⟨opening :: (start ++ (condition ++ semicolon :: (step ++ closing :: tokens))), isOpen,
    by simp [headShape, bodyShape],
    .forLoop isFor opens initialized tested ends stepped closes stated, noElse⟩

private theorem readsDeclaration_functionDeclaration {block : Parser (List (Stmt Unit))}
    (blocks : ReadsBlock bound block) {keyword : Token}
    (isFun : keyword.kind = .keyword .funWord) {cursor stopped : Cursor} {stmt : Stmt Unit}
    (within : cursor.rest.length ≤ bound)
    (parsed : functionDeclaration fuel block cursor = .ok stmt [] stopped) :
    ∃ tokens, cursor.rest = tokens ++ stopped.rest ∧ Declaration (keyword :: tokens) stmt := by
  obtain ⟨name, further, nameShape, isName, remaining⟩ := require_bind_eq_ok_nil parsed
  obtain ⟨opening, later, openingShape, opens, remaining⟩ := require_bind_eq_ok_nil remaining
  obtain ⟨isEmpty, position, looked, remaining⟩ := bind_eq_ok_nil remaining
  cases looked
  simp only at openingShape
  have finished : ∀ (tokens parameters : List Token) (position : Cursor),
      later = tokens ++ position.rest → OptionalParameters tokens parameters →
      (do
        let _ ← require (.symbol .rightParen) .parenAfterParameters
        let _ ← require (.symbol .leftBrace) .braceBeforeBody
        let body ← block
        pure (.function name parameters body) : Parser (Stmt Unit)) position =
          .ok stmt [] stopped →
      ∃ tokens, cursor.rest = tokens ++ stopped.rest ∧ Declaration (keyword :: tokens) stmt := by
    intro tokens parameters position shape named remaining
    obtain ⟨closing, rest, closingShape, closes, remaining⟩ := require_bind_eq_ok_nil remaining
    obtain ⟨brace, inside, braceShape, starts, remaining⟩ := require_bind_eq_ok_nil remaining
    obtain ⟨stmts, position', parsedBody, finished⟩ := bind_eq_ok_nil remaining
    simp only at braceShape
    have headShape : cursor.rest =
        (name :: opening :: (tokens ++ [closing, brace])) ++ inside := by
      simp [nameShape, openingShape, shape, closingShape, braceShape]
    obtain ⟨body, last, bodyShape, ends, declared⟩ :=
      blocks (within_of_shape within headShape) parsedBody
    cases finished
    simp only at bodyShape
    exact ⟨name :: opening :: (tokens ++ closing :: brace :: (body ++ [last])),
      by simp [headShape, bodyShape],
      .function isFun isName opens named closes starts declared ends⟩
  split at remaining
  · obtain ⟨parameters, position, none, remaining⟩ := bind_eq_ok_nil remaining
    cases none
    exact finished [] [] _ rfl .absent remaining
  · obtain ⟨parameters, position, parsedParameters, remaining⟩ := bind_eq_ok_nil remaining
    obtain ⟨tokens, shape, named, few⟩ := reads_parametersFrom fuel 0 parsedParameters
    exact finished tokens parameters position shape
      (.present named (by rwa [Nat.zero_add] at few)) remaining

/-- The rules for statements keep to the grammar, for an amount of fuel. -/
structure ReadsStmt (fuel : Nat) : Prop where
  declaration : ∀ bound, 20 * bound + 12 ≤ fuel → ReadsDeclaration bound (declaration fuel)
  statement : ∀ bound, 20 * bound + 11 ≤ fuel → ReadsStatement bound (statement fuel)
  block : ∀ bound, 20 * bound + 13 ≤ fuel → ReadsBlock bound (block fuel)

namespace ReadsStmt

private theorem statement_succ (ih : ReadsStmt fuel) (enough : 20 * bound + 11 ≤ fuel + 1) :
    ReadsStatement bound (Parser.statement (fuel + 1)) := by
  intro cursor stopped stmt within parsed
  rcases acceptBy_bind_eq_ok_nil parsed with
    parsedExpr | ⟨keyword, further, form, shape, formed, remaining⟩
  · obtain ⟨tokens, shape, evaluated⟩ := reads_expressionStatement fuel parsedExpr
    exact ⟨tokens, false, shape, .expression evaluated, noElse_false _⟩
  · have isKeyword := StatementForm.ofKind?_eq_some.mp formed
    rw [shape, List.length_cons] at within
    have branches := ih.statement further.length (by omega)
    suffices ∃ tokens isOpen, further = tokens ++ stopped.rest ∧
        Statement isOpen (keyword :: tokens) stmt ∧ NoElse isOpen stopped.rest by
      obtain ⟨tokens, isOpen, restShape, stated, noElse⟩ := this
      exact ⟨keyword :: tokens, isOpen, by simp [shape, restShape], stated, noElse⟩
    cases form with
    | forLoop =>
        exact readsStatement_forStatement branches isKeyword (Nat.le_refl _) remaining
    | conditional =>
        exact readsStatement_ifStatement branches isKeyword (Nat.le_refl _) remaining
    | whileLoop =>
        exact readsStatement_whileStatement branches isKeyword (Nat.le_refl _) remaining
    | print =>
        obtain ⟨value, position, parsedValue, remaining⟩ := bind_eq_ok_nil remaining
        obtain ⟨tokens, valueShape, printed⟩ := (readsExpr fuel).expression parsedValue
        obtain ⟨semicolon, later, endShape, ends, finished⟩ := require_bind_eq_ok_nil remaining
        cases finished
        simp only at valueShape
        exact ⟨tokens ++ [semicolon], false, by simp [valueShape, endShape],
          .print isKeyword printed ends, noElse_false _⟩
    | giveBack =>
        obtain ⟨value, position, parsedValue, remaining⟩ := bind_eq_ok_nil remaining
        obtain ⟨tokens, valueShape, given⟩ := reads_optionalExpression fuel _ parsedValue
        obtain ⟨semicolon, later, endShape, ends, finished⟩ := require_bind_eq_ok_nil remaining
        cases finished
        simp only at valueShape
        exact ⟨tokens ++ [semicolon], false, by simp [valueShape, endShape],
          .giveBack isKeyword given ends, noElse_false _⟩
    | block =>
        obtain ⟨body, position, parsedBody, finished⟩ := bind_eq_ok_nil remaining
        obtain ⟨tokens, last, bodyShape, ends, declared⟩ :=
          ih.block further.length (by omega) (Nat.le_refl _) parsedBody
        cases finished
        simp only at bodyShape
        exact ⟨tokens ++ [last], false, by simp [bodyShape], .block isKeyword declared ends,
          noElse_false _⟩

/-- Without a diagnostic there was nothing to recover from. -/
private theorem recovering_eq_ok_nil {rule : Parser α} {cursor stopped : Cursor}
    {given : Option α} (advances : Advances true bound rule) (within : cursor.rest.length ≤ bound)
    (parsed : recovering rule cursor = .ok given [] stopped) :
    ∃ value, given = some value ∧ rule cursor = .ok value [] stopped := by
  have stops := advances cursor within
  unfold recovering at parsed
  generalize rule cursor = reply at stops parsed
  cases stops with
  | ok _ _ =>
      cases parsed
      exact ⟨_, rfl, rfl⟩
  | failed _ reported =>
      cases parsed
      exact absurd rfl reported

private theorem declaration_succ (ih : ReadsStmt fuel) (enough : 20 * bound + 12 ≤ fuel + 1) :
    ReadsDeclaration bound (Parser.declaration (fuel + 1)) := by
  intro cursor stopped given within parsed
  obtain ⟨stmt, rfl, parsedRule⟩ :=
    recovering_eq_ok_nil ((adequateStmt fuel).unrecovered enough) within parsed
  rcases accept_bind_eq_ok_nil parsedRule with
    ⟨_, remaining⟩ | ⟨keyword, further, shape, isFun, remaining⟩
  · rcases accept_bind_eq_ok_nil remaining with
      ⟨_, remaining⟩ | ⟨keyword, further, shape, isVar, remaining⟩
    · obtain ⟨tokens, isOpen, shape, stated, _⟩ :=
        ih.statement bound (by omega) within remaining
      exact ⟨tokens, stmt, shape, rfl, .statement stated⟩
    · obtain ⟨tokens, restShape, declared⟩ := reads_variableDeclaration fuel remaining
      simp only at restShape
      exact ⟨keyword :: tokens, stmt, by simp [shape, restShape], rfl, .declare isVar declared⟩
  · rw [shape, List.length_cons] at within
    obtain ⟨tokens, restShape, declared⟩ := readsDeclaration_functionDeclaration
      (ih.block further.length (by omega)) isFun (Nat.le_refl _) remaining
    simp only at restShape
    exact ⟨keyword :: tokens, stmt, by simp [shape, restShape], rfl, declared⟩

private theorem block_succ (ih : ReadsStmt fuel) (enough : 20 * bound + 13 ≤ fuel + 1) :
    ReadsBlock bound (Parser.block (fuel + 1)) := by
  intro cursor stopped stmts within parsed
  obtain ⟨isClosed, position, looked, remaining⟩ := bind_eq_ok_nil parsed
  cases looked
  obtain ⟨isEnd, position, looked, remaining⟩ := bind_eq_ok_nil remaining
  cases looked
  split at remaining
  · obtain ⟨last, rest, shape, ends, finished⟩ := require_bind_eq_ok_nil remaining
    cases finished
    exact ⟨[], last, shape, ends, .nil⟩
  · next continues =>
      have nonempty : cursor.rest ≠ [] := fun none => continues (by simp [none])
      obtain ⟨given, position, parsedFirst, remaining⟩ := bind_eq_ok_nil remaining
      obtain ⟨first, stmt, shape, rfl, declared⟩ :=
        ih.declaration bound (by omega) within parsedFirst
      obtain ⟨others, position', parsedOthers, finished⟩ := bind_eq_ok_nil remaining
      obtain ⟨head, tail, rfl, _⟩ := declared.starts
      rw [shape, List.cons_append, List.length_cons, List.length_append] at within
      obtain ⟨tokens, last, restShape, ends, later⟩ :=
        ih.block position.rest.length (by omega) (Nat.le_refl _) parsedOthers
      cases finished
      exact ⟨head :: tail ++ tokens, last, by simp [shape, restShape], ends, .cons declared later⟩

end ReadsStmt

theorem readsStmt (fuel : Nat) : ReadsStmt fuel := by
  induction fuel with
  | zero => constructor <;> intros <;> omega
  | succ fuel ih =>
      constructor
      · intros; exact ih.declaration_succ ‹_›
      · intros; exact ih.statement_succ ‹_›
      · intros; exact ih.block_succ ‹_›

theorem declarations_of_program (enough : 20 * bound + 13 ≤ fuel) {cursor stopped : Cursor}
    {stmts : List (Stmt Unit)} (within : cursor.rest.length ≤ bound)
    (parsed : program fuel cursor = .ok stmts [] stopped) : Declarations cursor.rest stmts := by
  induction fuel generalizing bound cursor stopped stmts with
  | zero => omega
  | succ fuel ih =>
      obtain ⟨isEnd, position, looked, remaining⟩ := bind_eq_ok_nil parsed
      cases looked
      split at remaining
      · next isEnd =>
          cases remaining
          rw [List.isEmpty_iff.mp isEnd]
          exact .nil
      · obtain ⟨given, position, parsedFirst, remaining⟩ := bind_eq_ok_nil remaining
        obtain ⟨first, stmt, shape, rfl, declared⟩ :=
          (readsStmt fuel).declaration bound (by omega) within parsedFirst
        obtain ⟨others, position', parsedOthers, finished⟩ := bind_eq_ok_nil remaining
        obtain ⟨head, tail, rfl, _⟩ := declared.starts
        rw [shape, List.cons_append, List.length_cons, List.length_append] at within
        have later := ih (show 20 * position.rest.length + 13 ≤ fuel by omega) (Nat.le_refl _)
          parsedOthers
        cases finished
        rw [shape]
        exact .cons declared later

theorem expression_of_wholeExpression {cursor stopped : Cursor} {value : Expr Unit}
    (parsed : wholeExpression fuel cursor = .ok value [] stopped) :
    Expression cursor.rest value := by
  obtain ⟨given, position, read, remaining⟩ := bind_eq_ok_nil parsed
  obtain ⟨tokens, shape, derived⟩ := (readsExpr fuel).expression read
  obtain ⟨isEnd, next, looked, finished⟩ := bind_eq_ok_nil remaining
  cases looked
  split at finished
  · next isEnd =>
      cases finished
      rwa [shape, List.isEmpty_iff.mp isEnd, List.append_nil]
  · cases finished

end Statements

end Parser

theorem Cursor.declarations_of_program {cursor : Cursor} {stmts : List (Stmt Unit)}
    (parsed : cursor.program = { value := stmts, diagnostics := [] }) :
    Grammar.Declarations cursor.rest stmts := by
  have enough : 20 * cursor.rest.length + 13 ≤ Parser.fuelFor cursor := by
    rw [Parser.fuelFor]
    omega
  -- The parser never gives up on a program, so an empty one is not read by accident.
  obtain ⟨value, diagnostics, stopped, read, _⟩ := Parser.program_eq_ok enough (Nat.le_refl _)
  simp only [Cursor.program, read, Parsed.mk.injEq] at parsed
  obtain ⟨rfl, rfl⟩ := parsed
  exact Parser.declarations_of_program enough (Nat.le_refl _) read

theorem Cursor.expression_of_expression {cursor : Cursor} {value : Expr Unit}
    (parsed : cursor.expression = { value := some value, diagnostics := [] }) :
    Grammar.Expression cursor.rest value := by
  unfold Cursor.expression at parsed
  split at parsed
  · next read =>
      cases parsed
      exact Parser.expression_of_wholeExpression read
  · cases parsed
  · cases parsed

end Loxley
