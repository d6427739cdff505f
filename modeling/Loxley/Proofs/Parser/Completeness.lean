import Loxley.Proofs.Parser.Soundness

/-!
# The parser reads everything in the grammar

Tokens that the grammar derives are read up to their end, without a diagnostic and with enough fuel,
provided that what follows cannot be taken for a continuation.
-/

set_option autoImplicit false

namespace Loxley

namespace Parser

open Grammar

section Steps

variable {α β : Type} {rule : Parser α} {next : α → Parser β} {cursor position : Cursor}
  {token finish : Token} {tokens rest : List Token} {kind : TokenKind}

theorem bind_of_ok {value : α} {reply : Reply β} (given : rule cursor = .ok value [] position)
    (later : next value position = reply) : (rule >>= next) cursor = reply := by
  rw [bind_apply, given, ← later]
  exact Reply.after_nil _

theorem accept_of_kind (same : token.kind = kind) :
    accept kind ⟨token :: rest, finish⟩ = .ok (some token) [] ⟨rest, finish⟩ :=
  if_pos same

theorem accept_of_ne (others : ∀ token ∈ tokens.head?, token.kind ≠ kind) :
    accept kind ⟨tokens, finish⟩ = .ok none [] ⟨tokens, finish⟩ := by
  cases tokens with
  | nil => rfl
  | cons token rest => exact if_neg (others token rfl)

theorem acceptBy_of_some {choose : TokenKind → Option α} {choice : α}
    (chosen : choose token.kind = some choice) :
    acceptBy choose ⟨token :: rest, finish⟩ = .ok (some (token, choice)) [] ⟨rest, finish⟩ := by
  simp only [acceptBy, chosen]

theorem acceptBy_of_none {choose : TokenKind → Option α}
    (others : ∀ token ∈ tokens.head?, choose token.kind = none) :
    acceptBy choose ⟨tokens, finish⟩ = .ok none [] ⟨tokens, finish⟩ := by
  cases tokens with
  | nil => rfl
  | cons token rest => simp only [acceptBy, others token rfl]

theorem require_of_kind {expectation : Expectation} (same : token.kind = kind) :
    require kind expectation ⟨token :: rest, finish⟩ = .ok token [] ⟨rest, finish⟩ := by
  exact bind_of_ok (accept_of_kind same) rfl

theorem nextIs_of_kind (same : token.kind = kind) :
    nextIs kind ⟨token :: rest, finish⟩ = .ok true [] ⟨token :: rest, finish⟩ := by
  simp [nextIs, same]

theorem nextIs_of_ne (different : token.kind ≠ kind) :
    nextIs kind ⟨token :: rest, finish⟩ = .ok false [] ⟨token :: rest, finish⟩ := by
  simp [nextIs, different]

end Steps

/-- What follows cannot continue a chain of connectives of at least a strength. -/
def EndsAt (strength : Nat) (more : List Token) : Prop :=
  ∀ token ∈ more.head?, token.kind ≠ .symbol .leftParen ∧
    ∀ connective, Connective.ofKind? token.kind = some connective → connective.strength < strength

/-- What follows cannot continue an expression. -/
def EndsExpression (more : List Token) : Prop :=
  EndsAt 1 more ∧ ∀ token ∈ more.head?, token.kind ≠ .symbol .equal

variable {strength : Nat} {more : List Token}

theorem EndsAt.notParen (ends : EndsAt strength more) :
    ∀ token ∈ more.head?, token.kind ≠ .symbol .leftParen :=
  fun token member => (ends token member).1

theorem EndsAt.notConnective (ends : EndsAt strength more) :
    ∀ token ∈ more.head?, connectiveOf strength token.kind = none := by
  intro token member
  rw [connectiveOf, Option.filter_eq_none_iff]
  intro connective denoted same
  have weaker := (ends token member).2 connective denoted
  simp only [beq_iff_eq] at same
  omega

/-- The tokens that end an expression in the grammar. -/
theorem endsExpression_cons {token : Token} {rest : List Token} {mark : Symbol}
    (isMark : token.kind = .symbol mark)
    (ends : mark = .semicolon ∨ mark = .rightParen ∨ mark = .comma) :
    EndsExpression (token :: rest) := by
  refine ⟨fun other member => ?_, fun other member => ?_⟩ <;>
    cases Option.some.inj member <;> rw [isMark] <;> rcases ends with rfl | rfl | rfl <;>
    simp [Connective.ofKind?]

/-- More operands come after a connective of the same strength, which ends the operand before it. -/
theorem endsAt_operands {left value : Expr Unit} {tokens : List Token}
    (operands : Operands strength left tokens value) (ends : EndsAt strength more) :
    EndsAt (strength + 1) (tokens ++ more) := by
  cases operands with
  | none =>
      intro token member
      exact ⟨(ends token member).1, fun connective denoted =>
        Nat.lt_succ_of_lt ((ends token member).2 connective denoted)⟩
  | next denoted same chained others =>
      intro token member
      cases Option.some.inj member
      refine ⟨fun isParen => ?_, fun connective other => ?_⟩
      · rw [isParen] at denoted
        cases denoted
      · cases denoted.symm.trans other
        omega

theorem chain_name {name : Token} (isName : name.kind = .identifier) (steps : Nat)
    (levels : strength + steps = Connective.tightest + 1) :
    Chain strength [name] (.ident name ()) := by
  induction steps generalizing strength with
  | zero => exact .unary (by omega) (Unary.calls (.name isName) .none)
  | succ steps ih =>
      have inner : Chain (strength + 1) [name] (.ident name ()) := ih (by omega)
      exact Chain.operands (by omega) inner .none

theorem Primary.notUnary {tokens : List Token} {value : Expr Unit} (primary : Primary tokens value) :
    ∃ first rest, tokens = first :: rest ∧ UnaryOp.ofKind? first.kind = none := by
  cases primary with
  | constant isConstant =>
      refine ⟨_, _, rfl, ?_⟩
      unfold constant? at isConstant
      split at isConstant <;> simp_all [UnaryOp.ofKind?]
  | name isName => exact ⟨_, _, rfl, by rw [isName]; rfl⟩
  | group opens => exact ⟨_, _, rfl, by rw [opens]; rfl⟩

theorem Arguments.starts {tokens : List Token} {arguments : List (Expr Unit)}
    (derived : Arguments tokens arguments) : Starts tokens := by
  cases derived with
  | last argument => exact argument.starts
  | next argument => exact argument.starts.append _

theorem recovering_of_ok {α : Type} {rule : Parser α} {value : α} {cursor position : Cursor}
    (given : rule cursor = .ok value [] position) :
    recovering rule cursor = .ok (some value) [] position := by
  rw [recovering, given]

theorem ofKind?_of_startsExpression {kind : TokenKind} (isStart : startsExpression kind = true) :
    StatementForm.ofKind? kind = none := by
  cases formed : StatementForm.ofKind? kind with
  | none => rfl
  | some form =>
      rw [StatementForm.ofKind?_eq_some.mp formed] at isStart
      cases form <;> cases isStart

/-- The rules for expressions read what the grammar derives, for an amount of fuel. -/
structure AcceptsExpr (fuel : Nat) : Prop where
  expression : ∀ {tokens : List Token} {value : Expr Unit} {more : List Token} {finish : Token},
    Expression tokens value → EndsExpression more → 20 * tokens.length + 10 ≤ fuel →
    expression fuel ⟨tokens ++ more, finish⟩ = .ok value [] ⟨more, finish⟩
  chain : ∀ {strength : Nat} {tokens : List Token} {value : Expr Unit} {more : List Token}
    {finish : Token}, Chain strength tokens value → EndsAt strength more →
    strength ≤ Connective.tightest + 1 → 20 * tokens.length + 10 ≤ fuel + strength →
    chain fuel strength ⟨tokens ++ more, finish⟩ = .ok value [] ⟨more, finish⟩
  chainRest : ∀ {strength : Nat} {left : Expr Unit} {tokens : List Token} {value : Expr Unit}
    {more : List Token} {finish : Token}, Operands strength left tokens value →
    EndsAt strength more → strength ≤ Connective.tightest → 20 * tokens.length + 1 ≤ fuel →
    chainRest fuel strength left ⟨tokens ++ more, finish⟩ = .ok value [] ⟨more, finish⟩
  unary : ∀ {tokens : List Token} {value : Expr Unit} {more : List Token} {finish : Token},
    Unary tokens value → (∀ token ∈ more.head?, token.kind ≠ .symbol .leftParen) →
    20 * tokens.length + 2 ≤ fuel →
    unary fuel ⟨tokens ++ more, finish⟩ = .ok value [] ⟨more, finish⟩
  callRest : ∀ {callee : Expr Unit} {tokens : List Token} {value : Expr Unit}
    {more : List Token} {finish : Token}, Calls callee tokens value →
    (∀ token ∈ more.head?, token.kind ≠ .symbol .leftParen) → 20 * tokens.length + 1 ≤ fuel →
    callRest fuel callee ⟨tokens ++ more, finish⟩ = .ok value [] ⟨more, finish⟩
  argumentsFrom : ∀ {earlier : Nat} {tokens : List Token} {arguments : List (Expr Unit)}
    {closing : Token} {more : List Token} {finish : Token}, Arguments tokens arguments →
    earlier + arguments.length ≤ maxArguments → closing.kind = .symbol .rightParen →
    20 * tokens.length + 11 ≤ fuel →
    argumentsFrom fuel earlier ⟨tokens ++ closing :: more, finish⟩ =
      .ok arguments [] ⟨closing :: more, finish⟩
  primary : ∀ {tokens : List Token} {value : Expr Unit} {more : List Token} {finish : Token},
    Primary tokens value → 20 * tokens.length + 1 ≤ fuel →
    primary fuel ⟨tokens ++ more, finish⟩ = .ok value [] ⟨more, finish⟩

namespace AcceptsExpr

variable {fuel : Nat} {tokens : List Token} {value : Expr Unit} {finish : Token}

private theorem expression_succ (ih : AcceptsExpr fuel) (derived : Expression tokens value)
    (ends : EndsExpression more) (enough : 20 * tokens.length + 10 ≤ fuel + 1) :
    Parser.expression (fuel + 1) ⟨tokens ++ more, finish⟩ = .ok value [] ⟨more, finish⟩ := by
  unfold Parser.expression
  cases derived with
  | chain chained =>
      exact bind_of_ok (ih.chain chained ends.1 (by decide) enough)
        (bind_of_ok (accept_of_ne ends.2) rfl)
  | @assign name equals rest assigned isName isEquals derived =>
      simp only [List.length_cons] at enough
      have target : Chain 1 [name] (.ident name ()) := chain_name isName 6 rfl
      have endsTarget : EndsAt 1 (equals :: (rest ++ more)) := by
        intro token member
        cases Option.some.inj member
        rw [isEquals]
        simp [Connective.ofKind?]
      have short : 20 * [name].length + 10 ≤ fuel + 1 := by
        rw [List.length_singleton]
        omega
      have parsedTarget : Parser.chain fuel 1 ⟨[name] ++ equals :: (rest ++ more), finish⟩ =
          .ok (.ident name ()) [] ⟨equals :: (rest ++ more), finish⟩ :=
        ih.chain target endsTarget (by decide) short
      refine bind_of_ok parsedTarget (bind_of_ok (accept_of_kind isEquals) ?_)
      exact bind_of_ok (ih.expression derived ends (by omega)) rfl

private theorem chain_succ (ih : AcceptsExpr fuel) (derived : Chain strength tokens value)
    (ends : EndsAt strength more) (valid : strength ≤ Connective.tightest + 1)
    (enough : 20 * tokens.length + 10 ≤ fuel + 1 + strength) :
    Parser.chain (fuel + 1) strength ⟨tokens ++ more, finish⟩ = .ok value [] ⟨more, finish⟩ := by
  have tightest : Connective.tightest = 6 := rfl
  unfold Parser.chain
  cases derived with
  | unary beyond operand =>
      rw [if_neg (Nat.not_le_of_lt beyond)]
      exact ih.unary operand ends.notParen (by omega)
  | operands within leftmost others =>
      rw [List.length_append] at enough
      rw [if_pos within, List.append_assoc]
      exact bind_of_ok (ih.chain leftmost (endsAt_operands others ends) (by omega) (by omega))
        (ih.chainRest others ends within (by omega))

private theorem chainRest_succ (ih : AcceptsExpr fuel) {left : Expr Unit}
    (derived : Operands strength left tokens value) (ends : EndsAt strength more)
    (within : strength ≤ Connective.tightest) (enough : 20 * tokens.length + 1 ≤ fuel + 1) :
    Parser.chainRest (fuel + 1) strength left ⟨tokens ++ more, finish⟩ =
      .ok value [] ⟨more, finish⟩ := by
  unfold Parser.chainRest
  cases derived with
  | none => exact bind_of_ok (acceptBy_of_none ends.notConnective) rfl
  | @next _ _ _ _ token connective _ _ denoted same chained others =>
      simp only [List.length_cons, List.length_append] at enough
      have chosen : connectiveOf strength token.kind = some connective :=
        Option.filter_eq_some_iff.mpr ⟨denoted, by simpa using same⟩
      rw [List.cons_append, List.append_assoc]
      refine bind_of_ok (acceptBy_of_some chosen) ?_
      exact bind_of_ok (ih.chain chained (endsAt_operands others ends) (by omega) (by omega))
        (ih.chainRest others ends within (by omega))

private theorem unary_succ (ih : AcceptsExpr fuel) (derived : Unary tokens value)
    (ends : ∀ token ∈ more.head?, token.kind ≠ .symbol .leftParen)
    (enough : 20 * tokens.length + 2 ≤ fuel + 1) :
    Parser.unary (fuel + 1) ⟨tokens ++ more, finish⟩ = .ok value [] ⟨more, finish⟩ := by
  unfold Parser.unary
  cases derived with
  | operator denoted operated =>
      rw [List.length_cons] at enough
      refine bind_of_ok (acceptBy_of_some denoted) ?_
      exact bind_of_ok (ih.unary operated ends (by omega)) rfl
  | @calls first rest callee _ primary called =>
      rw [List.length_append] at enough
      obtain ⟨head, tail, rfl, notUnary⟩ := Primary.notUnary primary
      rw [List.append_assoc]
      refine bind_of_ok (acceptBy_of_none fun token member => ?_) ?_
      · cases Option.some.inj member
        exact notUnary
      · exact bind_of_ok (ih.primary primary (by omega)) (ih.callRest called ends (by omega))

private theorem callRest_succ (ih : AcceptsExpr fuel) {callee : Expr Unit}
    (derived : Calls callee tokens value)
    (ends : ∀ token ∈ more.head?, token.kind ≠ .symbol .leftParen)
    (enough : 20 * tokens.length + 1 ≤ fuel + 1) :
    Parser.callRest (fuel + 1) callee ⟨tokens ++ more, finish⟩ =
      .ok value [] ⟨more, finish⟩ := by
  unfold Parser.callRest
  cases derived with
  | none => exact bind_of_ok (accept_of_ne ends) rfl
  | empty opens closes others =>
      simp only [List.length_cons] at enough
      refine bind_of_ok (accept_of_kind opens) (bind_of_ok (nextIs_of_kind closes) ?_)
      refine bind_of_ok rfl (bind_of_ok (require_of_kind closes) ?_)
      exact ih.callRest others ends (by omega)
  | given opens passed few closes others =>
      simp only [List.length_cons, List.length_append] at enough
      obtain ⟨head, tail, rfl, isStart⟩ := Arguments.starts passed
      have notParen : head.kind ≠ .symbol .rightParen := by
        intro isParen
        rw [isParen] at isStart
        cases isStart
      rw [List.cons_append, List.append_assoc, List.cons_append]
      refine bind_of_ok (accept_of_kind opens) (bind_of_ok (nextIs_of_ne notParen) ?_)
      refine bind_of_ok (ih.argumentsFrom passed (by omega) closes (by omega)) ?_
      exact bind_of_ok (require_of_kind closes) (ih.callRest others ends (by omega))

private theorem argumentsFrom_succ (ih : AcceptsExpr fuel) {earlier : Nat}
    {arguments : List (Expr Unit)} {closing : Token} (derived : Arguments tokens arguments)
    (few : earlier + arguments.length ≤ maxArguments) (closes : closing.kind = .symbol .rightParen)
    (enough : 20 * tokens.length + 11 ≤ fuel + 1) :
    Parser.argumentsFrom (fuel + 1) earlier ⟨tokens ++ closing :: more, finish⟩ =
      .ok arguments [] ⟨closing :: more, finish⟩ := by
  unfold Parser.argumentsFrom
  cases derived with
  | last argument =>
      rw [List.length_singleton] at few
      rw [if_neg (by omega)]
      refine bind_of_ok (ih.expression argument (endsExpression_cons closes (by simp)) (by omega)) ?_
      refine bind_of_ok (accept_of_ne fun token member => ?_) rfl
      cases Option.some.inj member
      rw [closes]
      simp
  | next argument separates passed =>
      rw [List.length_cons] at few
      simp only [List.length_cons, List.length_append] at enough
      rw [if_neg (by omega), List.append_assoc]
      refine bind_of_ok
        (ih.expression argument (endsExpression_cons separates (by simp)) (by omega)) ?_
      refine bind_of_ok (accept_of_kind separates) ?_
      exact bind_of_ok (ih.argumentsFrom passed (by omega) closes (by omega)) rfl

private theorem primary_succ (ih : AcceptsExpr fuel) (derived : Primary tokens value)
    (enough : 20 * tokens.length + 1 ≤ fuel + 1) :
    Parser.primary (fuel + 1) ⟨tokens ++ more, finish⟩ = .ok value [] ⟨more, finish⟩ := by
  unfold Parser.primary
  cases derived with
  | constant isConstant => simp only [List.singleton_append, isConstant]
  | name isName => simp [constant?, isName]
  | group opens enclosed closes =>
      simp only [List.length_cons, List.length_append] at enough
      simp only [List.cons_append, List.append_assoc, constant?, opens]
      refine bind_of_ok
        (ih.expression enclosed (endsExpression_cons closes (by simp)) (by omega)) ?_
      exact bind_of_ok (require_of_kind closes) rfl

end AcceptsExpr

theorem acceptsExpr (fuel : Nat) : AcceptsExpr fuel := by
  induction fuel with
  | zero =>
      have tightest : Connective.tightest = 6 := rfl
      constructor <;> intros <;> omega
  | succ fuel ih =>
      exact ⟨ih.expression_succ, ih.chain_succ, ih.chainRest_succ, ih.unary_succ, ih.callRest_succ,
        ih.argumentsFrom_succ, ih.primary_succ⟩

section Statements

variable {fuel : Nat} {tokens : List Token} {finish : Token}

theorem optionalExpression_of_optional {value : Option (Expr Unit)} {mark : Symbol} {last : Token}
    (derived : Optional tokens value) (isMark : last.kind = .symbol mark)
    (ends : mark = .semicolon ∨ mark = .rightParen) (enough : 20 * tokens.length + 10 ≤ fuel) :
    optionalExpression fuel (.symbol mark) ⟨tokens ++ last :: more, finish⟩ =
      .ok value [] ⟨last :: more, finish⟩ := by
  cases derived with
  | absent => exact bind_of_ok (nextIs_of_kind isMark) rfl
  | present expression =>
      have parsed : Parser.expression fuel ⟨tokens ++ last :: more, finish⟩ = _ :=
        (acceptsExpr fuel).expression expression (endsExpression_cons isMark (ends.imp id .inl))
          enough
      obtain ⟨head, tail, rfl, isStart⟩ := expression.starts
      have different : head.kind ≠ .symbol mark := by
        intro same
        rw [same] at isStart
        rcases ends with rfl | rfl <;> cases isStart
      exact bind_of_ok (nextIs_of_ne different) (bind_of_ok parsed rfl)

theorem expressionStatement_of_derived {stmt : Stmt Unit}
    (derived : ExpressionStatement tokens stmt) (enough : 20 * tokens.length ≤ fuel + 10) :
    expressionStatement fuel ⟨tokens ++ more, finish⟩ = .ok stmt [] ⟨more, finish⟩ := by
  obtain ⟨expression, ends⟩ := derived
  simp only [List.length_append, List.length_singleton] at enough
  rw [List.append_assoc]
  refine bind_of_ok ((acceptsExpr fuel).expression expression
    (endsExpression_cons ends (by simp)) (by omega)) ?_
  exact bind_of_ok (require_of_kind ends) rfl

theorem variableDeclaration_of_variable {stmt : Stmt Unit} (derived : Variable tokens stmt)
    (enough : 20 * tokens.length ≤ fuel + 10) :
    variableDeclaration fuel ⟨tokens ++ more, finish⟩ = .ok stmt [] ⟨more, finish⟩ := by
  cases derived with
  | bare isName ends =>
      refine bind_of_ok (require_of_kind isName) (bind_of_ok (accept_of_ne ?_) ?_)
      · intro token member
        cases Option.some.inj member
        rw [ends]
        simp
      · exact bind_of_ok (require_of_kind ends) rfl
  | initialized isName isEquals expression ends =>
      simp only [List.length_cons, List.length_append] at enough
      simp only [List.cons_append, List.append_assoc]
      refine bind_of_ok (require_of_kind isName) (bind_of_ok (accept_of_kind isEquals) ?_)
      refine bind_of_ok ((acceptsExpr fuel).expression expression
        (endsExpression_cons ends (by simp)) (by omega)) ?_
      exact bind_of_ok (require_of_kind ends) rfl

theorem forInitializer_of_initializer {initializer : Option (Stmt Unit)}
    (derived : Initializer tokens initializer) (enough : 20 * tokens.length ≤ fuel + 10) :
    forInitializer fuel ⟨tokens ++ more, finish⟩ = .ok initializer [] ⟨more, finish⟩ := by
  cases derived with
  | absent ends => exact bind_of_ok (accept_of_kind ends) rfl
  | declare isVar declared =>
      rw [List.length_cons] at enough
      refine bind_of_ok (accept_of_ne fun token member => ?_) ?_
      · cases Option.some.inj member
        rw [isVar]
        simp
      · refine bind_of_ok (accept_of_kind isVar) ?_
        exact bind_of_ok (variableDeclaration_of_variable declared (by omega)) rfl
  | expression evaluated =>
      have parsed : expressionStatement fuel ⟨tokens ++ more, finish⟩ = _ :=
        expressionStatement_of_derived evaluated enough
      obtain ⟨head, tail, shape, isStart⟩ := (Statement.expression evaluated).starts
      have different : ∀ token ∈ (tokens ++ more).head?,
          token.kind ≠ .symbol .semicolon ∧ token.kind ≠ .keyword .varWord := by
        intro token member
        rw [shape] at member
        cases Option.some.inj member
        constructor <;> intro same <;> rw [same] at isStart <;> cases isStart
      refine bind_of_ok (accept_of_ne fun token member => (different token member).1) ?_
      refine bind_of_ok (accept_of_ne fun token member => (different token member).2) ?_
      exact bind_of_ok parsed rfl

theorem parametersFrom_of_parameters {earlier : Nat} {parameters : List Token} {closing : Token}
    (derived : Parameters tokens parameters) (few : earlier + parameters.length ≤ maxArguments)
    (closes : closing.kind = .symbol .rightParen) (enough : 20 * tokens.length ≤ fuel) :
    parametersFrom fuel earlier ⟨tokens ++ closing :: more, finish⟩ =
      .ok parameters [] ⟨closing :: more, finish⟩ := by
  induction fuel generalizing earlier tokens parameters with
  | zero => cases derived <;> simp at enough
  | succ fuel ih =>
      unfold parametersFrom
      cases derived with
      | last isName =>
          rw [List.length_singleton] at few
          rw [if_neg (by omega)]
          refine bind_of_ok (require_of_kind isName) (bind_of_ok (accept_of_ne ?_) rfl)
          intro token member
          cases Option.some.inj member
          rw [closes]
          simp
      | next isName separates named =>
          rw [List.length_cons] at few
          simp only [List.length_cons] at enough
          rw [if_neg (by omega)]
          refine bind_of_ok (require_of_kind isName) (bind_of_ok (accept_of_kind separates) ?_)
          exact bind_of_ok (ih named (by omega) (by omega)) rfl

/-- The rules for statements read what the grammar derives, for an amount of fuel. -/
structure AcceptsStmt (fuel : Nat) : Prop where
  declaration : ∀ {tokens : List Token} {stmt : Stmt Unit} {more : List Token} {finish : Token},
    Declaration tokens stmt → NoElse true more → 20 * tokens.length + 12 ≤ fuel →
    declaration fuel ⟨tokens ++ more, finish⟩ = .ok (some stmt) [] ⟨more, finish⟩
  statement : ∀ {isOpen : Bool} {tokens : List Token} {stmt : Stmt Unit} {more : List Token}
    {finish : Token}, Statement isOpen tokens stmt → NoElse isOpen more →
    20 * tokens.length + 11 ≤ fuel →
    statement fuel ⟨tokens ++ more, finish⟩ = .ok stmt [] ⟨more, finish⟩
  block : ∀ {tokens : List Token} {stmts : List (Stmt Unit)} {last : Token} {more : List Token}
    {finish : Token}, Declarations tokens stmts → last.kind = .symbol .rightBrace →
    20 * tokens.length + 13 ≤ fuel →
    block fuel ⟨tokens ++ last :: more, finish⟩ = .ok stmts [] ⟨more, finish⟩

theorem NoElse.weaken {isOpen : Bool} (noElse : NoElse true more) : NoElse isOpen more :=
  fun _ => noElse rfl

namespace AcceptsStmt

/-- A condition in parentheses before something else. -/
private theorem condition_bind {β : Type} {first second : Expectation}
    {next : Expr Unit → Parser β} {reply : Reply β} {opening closing : Token}
    {condition rest : List Token} {test : Expr Unit} (opens : opening.kind = .symbol .leftParen)
    (tested : Expression condition test) (closes : closing.kind = .symbol .rightParen)
    (enough : 20 * condition.length + 10 ≤ fuel) (later : next test ⟨rest, finish⟩ = reply) :
    (do
      let _ ← require (.symbol .leftParen) first
      let test ← expression fuel
      let _ ← require (.symbol .rightParen) second
      next test) ⟨opening :: (condition ++ closing :: rest), finish⟩ = reply := by
  refine bind_of_ok (require_of_kind opens) ?_
  refine bind_of_ok ((acceptsExpr fuel).expression tested
    (endsExpression_cons closes (by simp)) enough) ?_
  exact bind_of_ok (require_of_kind closes) later

private theorem statement_succ (ih : AcceptsStmt fuel) {isOpen : Bool} {stmt : Stmt Unit}
    (derived : Statement isOpen tokens stmt) (noElse : NoElse isOpen more)
    (enough : 20 * tokens.length + 11 ≤ fuel + 1) :
    Parser.statement (fuel + 1) ⟨tokens ++ more, finish⟩ = .ok stmt [] ⟨more, finish⟩ := by
  have formed : ∀ (form : StatementForm) {keyword : Token} {rest : List Token},
      keyword.kind = form.kind →
      acceptBy StatementForm.ofKind? ⟨keyword :: rest, finish⟩ =
        .ok (some (keyword, form)) [] ⟨rest, finish⟩ := fun form _ _ isKeyword =>
    acceptBy_of_some (StatementForm.ofKind?_eq_some.mpr isKeyword)
  unfold Parser.statement
  cases derived with
  | expression evaluated =>
      have parsed : expressionStatement fuel ⟨tokens ++ more, finish⟩ = _ :=
        expressionStatement_of_derived evaluated (by omega)
      refine bind_of_ok (acceptBy_of_none fun token member => ?_) parsed
      obtain ⟨expression, _⟩ := evaluated
      obtain ⟨head, tail, rfl, isStart⟩ := expression.starts
      cases Option.some.inj member
      exact ofKind?_of_startsExpression isStart
  | print isPrint printed ends =>
      simp only [List.length_cons, List.length_append] at enough
      simp only [List.cons_append, List.append_assoc]
      refine bind_of_ok (formed .print isPrint) ?_
      refine bind_of_ok ((acceptsExpr fuel).expression printed
        (endsExpression_cons ends (by simp)) (by omega)) ?_
      exact bind_of_ok (require_of_kind ends) rfl
  | giveBack isReturn given ends =>
      simp only [List.length_cons, List.length_append] at enough
      simp only [List.cons_append, List.append_assoc]
      refine bind_of_ok (formed .giveBack isReturn) ?_
      refine bind_of_ok (optionalExpression_of_optional given ends (by simp) (by omega)) ?_
      exact bind_of_ok (require_of_kind ends) rfl
  | block starts declared ends =>
      simp only [List.length_cons, List.length_append] at enough
      simp only [List.cons_append, List.append_assoc]
      refine bind_of_ok (formed .block starts) ?_
      exact bind_of_ok (ih.block declared ends (by omega)) rfl
  | @ifThen innerOpen _ _ _ _ _ _ _ isIf opens tested closes stated =>
      simp only [List.length_cons, List.length_append] at enough
      simp only [List.cons_append, List.append_assoc]
      refine bind_of_ok (formed .conditional isIf)
        (condition_bind opens tested closes (by omega) ?_)
      refine bind_of_ok (ih.statement stated noElse.weaken (by omega)) ?_
      exact bind_of_ok (accept_of_ne (noElse rfl)) rfl
  | ifElse isIf opens tested closes stated isElse otherwise =>
      simp only [List.length_cons, List.length_append] at enough
      simp only [List.cons_append, List.append_assoc]
      refine bind_of_ok (formed .conditional isIf)
        (condition_bind opens tested closes (by omega) ?_)
      refine bind_of_ok (ih.statement stated (noElse_false _) (by omega)) ?_
      refine bind_of_ok (accept_of_kind isElse) ?_
      exact bind_of_ok (ih.statement otherwise noElse (by omega)) rfl
  | whileLoop isWhile opens tested closes stated =>
      simp only [List.length_cons, List.length_append] at enough
      simp only [List.cons_append, List.append_assoc]
      refine bind_of_ok (formed .whileLoop isWhile)
        (condition_bind opens tested closes (by omega) ?_)
      exact bind_of_ok (ih.statement stated noElse (by omega)) rfl
  | forLoop isFor opens initialized tested ends stepped closes stated =>
      simp only [List.length_cons, List.length_append] at enough
      simp only [List.cons_append, List.append_assoc]
      refine bind_of_ok (formed .forLoop isFor) (bind_of_ok (require_of_kind opens) ?_)
      refine bind_of_ok (forInitializer_of_initializer initialized (by omega)) ?_
      refine bind_of_ok (optionalExpression_of_optional tested ends (by simp) (by omega)) ?_
      refine bind_of_ok (require_of_kind ends) ?_
      refine bind_of_ok (optionalExpression_of_optional stepped closes (by simp) (by omega)) ?_
      refine bind_of_ok (require_of_kind closes) ?_
      exact bind_of_ok (ih.statement stated noElse (by omega)) rfl

private theorem functionDeclaration_of_derived (ih : AcceptsStmt fuel)
    {name opening closing brace last : Token} {body parameters : List Token}
    {stmts : List (Stmt Unit)} (isName : name.kind = .identifier)
    (opens : opening.kind = .symbol .leftParen) (named : OptionalParameters tokens parameters)
    (closes : closing.kind = .symbol .rightParen) (starts : brace.kind = .symbol .leftBrace)
    (declared : Declarations body stmts) (ends : last.kind = .symbol .rightBrace)
    (enough : 20 * (tokens.length + body.length) + 13 ≤ fuel) :
    functionDeclaration fuel (Parser.block fuel)
        ⟨name :: opening :: (tokens ++ closing :: brace :: (body ++ last :: more)), finish⟩ =
      .ok (.function name parameters stmts) [] ⟨more, finish⟩ := by
  have finished : (do
      let _ ← require (.symbol .rightParen) .parenAfterParameters
      let _ ← require (.symbol .leftBrace) .braceBeforeBody
      let body ← Parser.block fuel
      pure (.function name parameters body) : Parser (Stmt Unit))
        ⟨closing :: brace :: (body ++ last :: more), finish⟩ =
          .ok (.function name parameters stmts) [] ⟨more, finish⟩ := by
    refine bind_of_ok (require_of_kind closes) (bind_of_ok (require_of_kind starts) ?_)
    exact bind_of_ok (ih.block declared ends (by omega)) rfl
  refine bind_of_ok (require_of_kind isName) (bind_of_ok (require_of_kind opens) ?_)
  cases named with
  | absent => exact bind_of_ok (nextIs_of_kind closes) (bind_of_ok rfl finished)
  | present named few =>
      have parsed : parametersFrom fuel 0
          ⟨tokens ++ closing :: brace :: (body ++ last :: more), finish⟩ = _ :=
        parametersFrom_of_parameters named (by omega) closes (by omega)
      have notParen : ∃ head tail, tokens = head :: tail ∧ head.kind ≠ .symbol .rightParen := by
        cases named with
        | last isName | next isName => exact ⟨_, _, rfl, by rw [isName]; simp⟩
      obtain ⟨head, tail, rfl, different⟩ := notParen
      exact bind_of_ok (nextIs_of_ne different) (bind_of_ok parsed finished)

private theorem declaration_succ (ih : AcceptsStmt fuel) {stmt : Stmt Unit}
    (derived : Declaration tokens stmt) (noElse : NoElse true more)
    (enough : 20 * tokens.length + 12 ≤ fuel + 1) :
    Parser.declaration (fuel + 1) ⟨tokens ++ more, finish⟩ = .ok (some stmt) [] ⟨more, finish⟩ := by
  refine recovering_of_ok ?_
  cases derived with
  | function isFun isName opens named closes starts declared ends =>
      simp only [List.length_cons, List.length_append] at enough
      simp only [List.cons_append, List.append_assoc]
      refine bind_of_ok (accept_of_kind isFun) ?_
      exact functionDeclaration_of_derived ih isName opens named closes starts declared ends
        (by omega)
  | declare isVar declared =>
      rw [List.length_cons] at enough
      refine bind_of_ok (accept_of_ne fun token member => ?_) ?_
      · cases Option.some.inj member
        rw [isVar]
        simp
      · exact bind_of_ok (accept_of_kind isVar) (variableDeclaration_of_variable declared (by omega))
  | statement stated =>
      have parsed : Parser.statement fuel ⟨tokens ++ more, finish⟩ = _ :=
        ih.statement stated noElse.weaken (by omega)
      obtain ⟨head, tail, rfl, isStart⟩ := stated.starts
      have different : ∀ token ∈ (head :: tail ++ more).head?,
          token.kind ≠ .keyword .funWord ∧ token.kind ≠ .keyword .varWord := by
        intro token member
        cases Option.some.inj member
        constructor <;> intro same <;> rw [same] at isStart <;> cases isStart
      refine bind_of_ok (accept_of_ne fun token member => (different token member).1) ?_
      exact bind_of_ok (accept_of_ne fun token member => (different token member).2) parsed

/-- Declarations do not start with an `else`, and neither does what ends them. -/
theorem noElse_declarations {stmts : List (Stmt Unit)} (derived : Declarations tokens stmts)
    (noElse : NoElse true more) : NoElse true (tokens ++ more) := by
  cases derived with
  | nil => exact noElse
  | cons declared _ =>
      obtain ⟨head, tail, rfl, _, notElse⟩ := declared.starts
      intro _ token member
      cases Option.some.inj member
      exact notElse

private theorem block_succ (ih : AcceptsStmt fuel) {stmts : List (Stmt Unit)} {last : Token}
    (derived : Declarations tokens stmts) (ends : last.kind = .symbol .rightBrace)
    (enough : 20 * tokens.length + 13 ≤ fuel + 1) :
    Parser.block (fuel + 1) ⟨tokens ++ last :: more, finish⟩ = .ok stmts [] ⟨more, finish⟩ := by
  have noElse : NoElse true (last :: more) := by
    intro _ token member
    cases Option.some.inj member
    rw [ends]
    simp
  unfold Parser.block
  cases derived with
  | nil =>
      refine bind_of_ok (nextIs_of_kind ends) (bind_of_ok rfl ?_)
      exact bind_of_ok (require_of_kind ends) rfl
  | @cons first rest stmt stmts declared others =>
      have parsed : Parser.declaration fuel ⟨first ++ (rest ++ last :: more), finish⟩ = _ :=
        ih.declaration declared (noElse_declarations others noElse)
          (by rw [List.length_append] at enough; omega)
      obtain ⟨head, tail, rfl, different, _⟩ := declared.starts
      simp only [List.cons_append, List.length_cons, List.length_append] at enough
      rw [List.append_assoc]
      refine bind_of_ok (nextIs_of_ne different) (bind_of_ok rfl ?_)
      exact bind_of_ok parsed (bind_of_ok (ih.block others ends (by omega)) rfl)

end AcceptsStmt

theorem acceptsStmt (fuel : Nat) : AcceptsStmt fuel := by
  induction fuel with
  | zero => constructor <;> intros <;> omega
  | succ fuel ih => exact ⟨ih.declaration_succ, ih.statement_succ, ih.block_succ⟩

theorem program_of_declarations {stmts : List (Stmt Unit)} (derived : Declarations tokens stmts)
    (enough : 20 * tokens.length + 13 ≤ fuel) :
    program fuel ⟨tokens, finish⟩ = .ok stmts [] ⟨[], finish⟩ := by
  induction fuel generalizing tokens stmts with
  | zero => omega
  | succ fuel ih =>
      unfold program
      cases derived with
      | nil => exact bind_of_ok rfl rfl
      | @cons first rest stmt stmts declared others =>
          have noElse : NoElse true rest := by
            have atEnd : NoElse true [] := by simp [NoElse]
            simpa using AcceptsStmt.noElse_declarations others atEnd
          rw [List.length_append] at enough
          have parsed : declaration fuel ⟨first ++ rest, finish⟩ = _ :=
            (acceptsStmt fuel).declaration declared noElse (by omega)
          obtain ⟨head, tail, rfl, _⟩ := declared.starts
          rw [List.length_cons] at enough
          refine bind_of_ok rfl ?_
          exact bind_of_ok parsed (bind_of_ok (ih others (by omega)) rfl)

theorem wholeExpression_of_expression {value : Expr Unit} (derived : Expression tokens value)
    (enough : 20 * tokens.length + 10 ≤ fuel) :
    wholeExpression fuel ⟨tokens, finish⟩ = .ok value [] ⟨[], finish⟩ := by
  have ends : EndsExpression [] := by simp [EndsExpression, EndsAt]
  have parsed : expression fuel ⟨tokens ++ [], finish⟩ = _ :=
    (acceptsExpr fuel).expression derived ends enough
  rw [List.append_nil] at parsed
  exact bind_of_ok parsed (bind_of_ok rfl rfl)

end Statements

end Parser

/-- A program is read without a diagnostic exactly if it keeps to the grammar. -/
theorem Cursor.program_eq_iff (cursor : Cursor) (stmts : List (Stmt Unit)) :
    cursor.program = { value := stmts, diagnostics := [] } ↔
      Grammar.Declarations cursor.rest stmts := by
  refine ⟨Cursor.declarations_of_program, fun derived => ?_⟩
  have enough : 20 * cursor.rest.length + 13 ≤ Parser.fuelFor cursor := by
    rw [Parser.fuelFor]
    omega
  have read : Parser.program (Parser.fuelFor cursor) cursor = _ :=
    Parser.program_of_declarations derived enough
  rw [Cursor.program, read]

/-- An expression is read without a diagnostic exactly if it keeps to the grammar. -/
theorem Cursor.expression_eq_iff (cursor : Cursor) (value : Expr Unit) :
    cursor.expression = { value := some value, diagnostics := [] } ↔
      Grammar.Expression cursor.rest value := by
  refine ⟨Cursor.expression_of_expression, fun derived => ?_⟩
  have enough : 20 * cursor.rest.length + 10 ≤ Parser.fuelFor cursor := by
    rw [Parser.fuelFor]
    omega
  have read : Parser.wholeExpression (Parser.fuelFor cursor) cursor = _ :=
    Parser.wholeExpression_of_expression derived enough
  rw [Cursor.expression, read]

end Loxley
