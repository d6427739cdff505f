import Loxley.Program

/-!
# The productions of the language

Which tokens make up which trees, one rule for every alternative of the grammar.

    program     := declaration*
    declaration := funDecl | varDecl | statement
    funDecl     := "fun" IDENT "(" params? ")" block
    varDecl     := "var" IDENT ( "=" expression )? ";"
    statement   := forStmt | ifStmt | printStmt | returnStmt | whileStmt | block | exprStmt
    forStmt     := "for" "(" ( varDecl | exprStmt | ";" ) expression? ";" expression? ")" statement
    ifStmt      := "if" "(" expression ")" statement ( "else" statement )?
    printStmt   := "print" expression ";"
    returnStmt  := "return" expression? ";"
    whileStmt   := "while" "(" expression ")" statement
    block       := "{" declaration* "}"
    exprStmt    := expression ";"
    expression  := assignment
    assignment  := IDENT "=" assignment | logicOr
    logicOr     := logicAnd ( "or" logicAnd )*
    logicAnd    := equality ( "and" equality )*
    equality    := comparison ( ( "!=" | "==" ) comparison )*
    comparison  := term ( ( ">" | ">=" | "<" | "<=" ) term )*
    term        := factor ( ( "-" | "+" ) factor )*
    factor      := unary ( ( "/" | "*" ) unary )*
    unary       := ( "!" | "-" ) unary | call
    call        := primary ( "(" arguments? ")" )*
    primary     := NUMBER | STRING | "true" | "false" | "nil" | IDENT | "(" expression ")"

Nothing here refers to the parser or to its tables.
-/

set_option autoImplicit false

namespace Loxley

/-- The tiers of expressions, from the loosest to the tightest. -/
inductive Tier where
  | assignment | logicOr | logicAnd | equality | comparison | term | factor | unary | call | primary
deriving DecidableEq, Repr

/-- The next tighter tier. -/
def Tier.next? : Tier → Option Tier
  | assignment => some logicOr
  | logicOr => some logicAnd
  | logicAnd => some equality
  | equality => some comparison
  | comparison => some term
  | term => some factor
  | factor => some unary
  | unary => some call
  | call => some primary
  | primary => none

/-- How tightly the expressions of a tier bind. -/
def Tier.rank : Tier → Nat
  | assignment => 0
  | logicOr => 1
  | logicAnd => 2
  | equality => 3
  | comparison => 4
  | term => 5
  | factor => 6
  | unary => 7
  | call => 8
  | primary => 9

theorem Tier.next?_eq_some_iff {tier next : Tier} :
    tier.next? = some next ↔ next.rank = tier.rank + 1 := by
  cases tier <;> cases next <;> decide

theorem Tier.rank_injective {tier other : Tier} (same : tier.rank = other.rank) : tier = other := by
  cases tier <;> cases other <;> first | rfl | cases same

theorem Tier.exists_next (tier : Tier) (below : tier.rank < Tier.primary.rank) :
    ∃ next, tier.next? = some next := by
  cases tier with
  | primary => exact absurd below (Nat.lt_irrefl _)
  | _ => exact ⟨_, rfl⟩

/-- The token that spells a unary operator. -/
def UnaryOp.kind : UnaryOp → TokenKind
  | not => .symbol .bang
  | negate => .symbol .minus

/-- The token that spells a binary operator. -/
def BinaryOp.kind : BinaryOp → TokenKind
  | equal => .symbol .equalEqual
  | notEqual => .symbol .bangEqual
  | less => .symbol .less
  | lessEqual => .symbol .lessEqual
  | greater => .symbol .greater
  | greaterEqual => .symbol .greaterEqual
  | add => .symbol .plus
  | subtract => .symbol .minus
  | multiply => .symbol .star
  | divide => .symbol .slash

/-- The tier of the chains that a binary operator makes. -/
def BinaryOp.tier : BinaryOp → Tier
  | equal | notEqual => .equality
  | less | lessEqual | greater | greaterEqual => .comparison
  | add | subtract => .term
  | multiply | divide => .factor

/-- The token that spells a logical operator. -/
def LogicalOp.kind : LogicalOp → TokenKind
  | or => .keyword .orWord
  | and => .keyword .andWord

/-- The tier of the chains that a logical operator makes. -/
def LogicalOp.tier : LogicalOp → Tier
  | or => .logicOr
  | and => .logicAnd

namespace Production

/-- A token that is an expression by itself, with the value that it stands for. -/
inductive Constant : Token → Literal → Prop
  | trueWord {token : Token} (isTrue : token.kind = .keyword .trueWord) : Constant token (.bool true)
  | falseWord {token : Token} (isFalse : token.kind = .keyword .falseWord) :
      Constant token (.bool false)
  | nilWord {token : Token} (isNil : token.kind = .keyword .nilWord) : Constant token .nil
  | number {token : Token} (isNumber : token.kind = .number) : Constant token token.literal
  | string {token : Token} (isString : token.kind = .string) : Constant token token.literal

mutual

/-- The expressions of a tier. A repetition of operators leans left, an assignment right. -/
inductive Expression : Tier → List Token → Expr Unit → Prop
  | tighter {tier next : Tier} {tokens : List Token} {value : Expr Unit}
      (below : tier.next? = some next) (operand : Expression next tokens value) :
      Expression tier tokens value
  | assign {name equals : Token} {tokens : List Token} {value : Expr Unit}
      (isName : name.kind = .identifier) (isEquals : equals.kind = .symbol .equal)
      (assigned : Expression .assignment tokens value) :
      Expression .assignment (name :: equals :: tokens) (.assign name () value)
  | logical {op : LogicalOp} {next : Tier} {token : Token} {first second : List Token}
      {left right : Expr Unit} (leftmost : Expression op.tier first left)
      (spelled : token.kind = op.kind) (below : op.tier.next? = some next)
      (rightmost : Expression next second right) :
      Expression op.tier (first ++ token :: second) (.logical op token left right)
  | binary {op : BinaryOp} {next : Tier} {token : Token} {first second : List Token}
      {left right : Expr Unit} (leftmost : Expression op.tier first left)
      (spelled : token.kind = op.kind) (below : op.tier.next? = some next)
      (rightmost : Expression next second right) :
      Expression op.tier (first ++ token :: second) (.binary op token left right)
  | unary {op : UnaryOp} {token : Token} {tokens : List Token} {operand : Expr Unit}
      (spelled : token.kind = op.kind) (operated : Expression .unary tokens operand) :
      Expression .unary (token :: tokens) (.unary op token operand)
  | call {opening closing : Token} {first second : List Token} {callee : Expr Unit}
      {arguments : List (Expr Unit)} (called : Expression .call first callee)
      (opens : opening.kind = .symbol .leftParen) (passed : Arguments second arguments)
      (few : arguments.length ≤ 255) (closes : closing.kind = .symbol .rightParen) :
      Expression .call (first ++ opening :: (second ++ [closing])) (.call closing callee arguments)
  | constant {token : Token} {value : Literal} (stands : Constant token value) :
      Expression .primary [token] (.literal token value)
  | name {token : Token} (isName : token.kind = .identifier) :
      Expression .primary [token] (.ident token ())
  | group {opening closing : Token} {tokens : List Token} {inner : Expr Unit}
      (opens : opening.kind = .symbol .leftParen)
      (enclosed : Expression .assignment tokens inner)
      (closes : closing.kind = .symbol .rightParen) :
      Expression .primary (opening :: (tokens ++ [closing])) (.group opening inner)

/-- Any number of arguments, separated by commas. -/
inductive Arguments : List Token → List (Expr Unit) → Prop
  | none : Arguments [] []
  | last {tokens : List Token} {value : Expr Unit}
      (argument : Expression .assignment tokens value) : Arguments tokens [value]
  | next {tokens rest : List Token} {comma : Token} {value second : Expr Unit}
      {others : List (Expr Unit)} (argument : Expression .assignment tokens value)
      (separates : comma.kind = .symbol .comma) (passed : Arguments rest (second :: others)) :
      Arguments (tokens ++ comma :: rest) (value :: second :: others)

end

/-- An expression with its semicolon. -/
inductive ExprStmt : List Token → Stmt Unit → Prop
  | intro {tokens : List Token} {semicolon : Token} {value : Expr Unit}
      (evaluated : Expression .assignment tokens value)
      (ends : semicolon.kind = .symbol .semicolon) :
      ExprStmt (tokens ++ [semicolon]) (.expression value.token value)

/-- A variable declaration. -/
inductive VarDecl : List Token → Stmt Unit → Prop
  | bare {keyword name semicolon : Token} (isVar : keyword.kind = .keyword .varWord)
      (isName : name.kind = .identifier) (ends : semicolon.kind = .symbol .semicolon) :
      VarDecl [keyword, name, semicolon] (.declare name none)
  | initialized {keyword name equals semicolon : Token} {tokens : List Token} {value : Expr Unit}
      (isVar : keyword.kind = .keyword .varWord) (isName : name.kind = .identifier)
      (isEquals : equals.kind = .symbol .equal) (assigned : Expression .assignment tokens value)
      (ends : semicolon.kind = .symbol .semicolon) :
      VarDecl (keyword :: name :: equals :: (tokens ++ [semicolon])) (.declare name (some value))

/-- An expression that may be missing. -/
inductive Optional : List Token → Option (Expr Unit) → Prop
  | absent : Optional [] none
  | present {tokens : List Token} {value : Expr Unit}
      (given : Expression .assignment tokens value) : Optional tokens (some value)

/-- Any number of parameters, separated by commas. -/
inductive Parameters : List Token → List Token → Prop
  | none : Parameters [] []
  | last {name : Token} (isName : name.kind = .identifier) : Parameters [name] [name]
  | next {name comma second : Token} {tokens others : List Token}
      (isName : name.kind = .identifier) (separates : comma.kind = .symbol .comma)
      (named : Parameters tokens (second :: others)) :
      Parameters (name :: comma :: tokens) (name :: second :: others)

/-- The first clause of a `for` loop. -/
inductive Initializer : List Token → Option (Stmt Unit) → Prop
  | absent {semicolon : Token} (ends : semicolon.kind = .symbol .semicolon) :
      Initializer [semicolon] none
  | declare {tokens : List Token} {first : Stmt Unit} (declared : VarDecl tokens first) :
      Initializer tokens (some first)
  | expression {tokens : List Token} {first : Stmt Unit} (evaluated : ExprStmt tokens first) :
      Initializer tokens (some first)

/-- What a `for` loop stands for: a loop in blocks, as far as there is an initializer or a step. -/
inductive Desugars (keyword : Token) (body : Stmt Unit) :
    Option (Stmt Unit) → Option (Expr Unit) → Option (Expr Unit) → Stmt Unit → Prop
  | endless {first step stmt} (tested :
      Desugars keyword body first (some (.literal keyword (.bool true))) step stmt) :
      Desugars keyword body first none step stmt
  | loop {test} : Desugars keyword body none (some test) none (.loop keyword test body)
  | stepped {test step} : Desugars keyword body none (some test) (some step)
      (.loop keyword test (.block keyword [body, .expression keyword step]))
  | started {first test} : Desugars keyword body (some first) (some test) none
      (.block keyword [first, .loop keyword test body])
  | startedStepped {first test step} : Desugars keyword body (some first) (some test) (some step)
      (.block keyword
        [first, .loop keyword test (.block keyword [body, .expression keyword step])])

mutual

/-- A declaration or statement. -/
inductive Declaration : List Token → Stmt Unit → Prop
  | funDecl {keyword name opening closing brace last : Token}
      {tokens body parameters : List Token} {stmts : List (Stmt Unit)}
      (isFun : keyword.kind = .keyword .funWord) (isName : name.kind = .identifier)
      (opens : opening.kind = .symbol .leftParen) (named : Parameters tokens parameters)
      (few : parameters.length ≤ 255) (closes : closing.kind = .symbol .rightParen)
      (starts : brace.kind = .symbol .leftBrace) (declared : Program body stmts)
      (ends : last.kind = .symbol .rightBrace) :
      Declaration (keyword :: name :: opening :: (tokens ++ closing :: brace :: (body ++ [last])))
        (.function name parameters stmts)
  | varDecl {tokens : List Token} {stmt : Stmt Unit} (declared : VarDecl tokens stmt) :
      Declaration tokens stmt
  | statement {dangling : Bool} {tokens : List Token} {stmt : Stmt Unit}
      (stated : Statement dangling tokens stmt) : Declaration tokens stmt

/--
A statement, and whether it dangles: whether it ends with an `if` that has no `else`. The branch
before an `else` does not dangle, or else there would be a nearer `if` for that `else`.
-/
inductive Statement : Bool → List Token → Stmt Unit → Prop
  | forStmt {dangling : Bool} {keyword opening semicolon closing : Token}
      {start condition step branch : List Token} {initializer : Option (Stmt Unit)}
      {test increment : Option (Expr Unit)} {body stmt : Stmt Unit}
      (isFor : keyword.kind = .keyword .forWord) (opens : opening.kind = .symbol .leftParen)
      (initialized : Initializer start initializer) (tested : Optional condition test)
      (ends : semicolon.kind = .symbol .semicolon) (stepped : Optional step increment)
      (closes : closing.kind = .symbol .rightParen) (stated : Statement dangling branch body)
      (desugars : Desugars keyword body initializer test increment stmt) :
      Statement dangling
        (keyword :: opening :: (start ++ (condition ++ semicolon :: (step ++ closing :: branch))))
        stmt
  | ifThen {dangling : Bool} {keyword opening closing : Token} {condition branch : List Token}
      {test : Expr Unit} {consequent : Stmt Unit} (isIf : keyword.kind = .keyword .ifWord)
      (opens : opening.kind = .symbol .leftParen)
      (tested : Expression .assignment condition test)
      (closes : closing.kind = .symbol .rightParen)
      (stated : Statement dangling branch consequent) :
      Statement true (keyword :: opening :: (condition ++ closing :: branch))
        (.ifThen keyword test consequent)
  | ifElse {dangling : Bool} {keyword opening closing other : Token}
      {condition first second : List Token} {test : Expr Unit} {consequent alternative : Stmt Unit}
      (isIf : keyword.kind = .keyword .ifWord) (opens : opening.kind = .symbol .leftParen)
      (tested : Expression .assignment condition test)
      (closes : closing.kind = .symbol .rightParen) (stated : Statement false first consequent)
      (isElse : other.kind = .keyword .elseWord)
      (otherwise : Statement dangling second alternative) :
      Statement dangling
        (keyword :: opening :: (condition ++ closing :: (first ++ other :: second)))
        (.ifElse keyword test consequent alternative)
  | printStmt {keyword semicolon : Token} {tokens : List Token} {value : Expr Unit}
      (isPrint : keyword.kind = .keyword .printWord)
      (printed : Expression .assignment tokens value)
      (ends : semicolon.kind = .symbol .semicolon) :
      Statement false (keyword :: (tokens ++ [semicolon])) (.print keyword value)
  | returnStmt {keyword semicolon : Token} {tokens : List Token} {value : Option (Expr Unit)}
      (isReturn : keyword.kind = .keyword .returnWord) (given : Optional tokens value)
      (ends : semicolon.kind = .symbol .semicolon) :
      Statement false (keyword :: (tokens ++ [semicolon])) (.giveBack keyword value)
  | whileStmt {dangling : Bool} {keyword opening closing : Token} {condition branch : List Token}
      {test : Expr Unit} {body : Stmt Unit} (isWhile : keyword.kind = .keyword .whileWord)
      (opens : opening.kind = .symbol .leftParen)
      (tested : Expression .assignment condition test)
      (closes : closing.kind = .symbol .rightParen) (stated : Statement dangling branch body) :
      Statement dangling (keyword :: opening :: (condition ++ closing :: branch))
        (.loop keyword test body)
  | block {brace last : Token} {tokens : List Token} {body : List (Stmt Unit)}
      (starts : brace.kind = .symbol .leftBrace) (declared : Program tokens body)
      (ends : last.kind = .symbol .rightBrace) :
      Statement false (brace :: (tokens ++ [last])) (.block brace body)
  | exprStmt {tokens : List Token} {stmt : Stmt Unit} (evaluated : ExprStmt tokens stmt) :
      Statement false tokens stmt

/-- Declarations one after the other. -/
inductive Program : List Token → List (Stmt Unit) → Prop
  | nil : Program [] []
  | cons {first rest : List Token} {stmt : Stmt Unit} {stmts : List (Stmt Unit)}
      (declared : Declaration first stmt) (others : Program rest stmts) :
      Program (first ++ rest) (stmt :: stmts)

end

/-! ## Words that no production mentions -/

/-- The end marker, and what is kept for classes, of which the language has none. -/
def isUnused : TokenKind → Bool
  | .endOfFile | .keyword .classWord | .keyword .thisWord | .keyword .superWord | .symbol .dot => true
  | _ => false

/-- Tokens of kinds that some production mentions. -/
def Used (tokens : List Token) : Prop :=
  ∀ token ∈ tokens, isUnused token.kind = false

@[simp] theorem used_nil : Used [] := by simp [Used]

@[simp] theorem used_cons {token : Token} {tokens : List Token} :
    Used (token :: tokens) ↔ isUnused token.kind = false ∧ Used tokens :=
  List.forall_mem_cons

@[simp] theorem used_append {first second : List Token} :
    Used (first ++ second) ↔ Used first ∧ Used second :=
  List.forall_mem_append

theorem Constant.used {token : Token} {value : Literal} (stands : Constant token value) :
    isUnused token.kind = false := by
  cases stands with
  | trueWord isConstant | falseWord isConstant | nilWord isConstant | number isConstant
  | string isConstant => rw [isConstant]; rfl

theorem Expression.used {tier : Tier} {tokens : List Token} {value : Expr Unit}
    (derived : Expression tier tokens value) : Used tokens := by
  refine @Expression.rec (fun _ tokens _ _ => Used tokens) (fun tokens _ _ => Used tokens)
    ?tighter ?assign ?logical ?binary ?unary ?call ?constant ?name ?group ?none ?last ?more
    tier tokens value derived
  case tighter => exact fun _ _ used => used
  case assign =>
    intro name equals tokens value isName isEquals _ used
    simp [isName, isEquals, isUnused, used]
  case logical =>
    intro op next token first second left right _ spelled _ _ usedLeft usedRight
    cases op <;> simp [spelled, LogicalOp.kind, isUnused, usedLeft, usedRight]
  case binary =>
    intro op next token first second left right _ spelled _ _ usedLeft usedRight
    cases op <;> simp [spelled, BinaryOp.kind, isUnused, usedLeft, usedRight]
  case unary =>
    intro op token tokens operand spelled _ used
    cases op <;> simp [spelled, UnaryOp.kind, isUnused, used]
  case call =>
    intro opening closing first second callee arguments _ opens _ _ closes usedCallee usedArguments
    simp [opens, closes, isUnused, usedCallee, usedArguments]
  case constant => exact fun stands => by simp [stands.used]
  case name => exact fun isName => by simp [isName, isUnused]
  case group =>
    intro opening closing tokens inner opens _ closes used
    simp [opens, closes, isUnused, used]
  case none => exact used_nil
  case last => exact fun _ used => used
  case more =>
    intro tokens rest comma value second others _ separates _ usedFirst usedRest
    simp [separates, isUnused, usedFirst, usedRest]

theorem ExprStmt.used {tokens : List Token} {stmt : Stmt Unit} (derived : ExprStmt tokens stmt) :
    Used tokens := by
  obtain ⟨evaluated, ends⟩ := derived
  simp [evaluated.used, ends, isUnused]

theorem VarDecl.used {tokens : List Token} {stmt : Stmt Unit} (derived : VarDecl tokens stmt) :
    Used tokens := by
  cases derived with
  | bare isVar isName ends => simp [isVar, isName, ends, isUnused]
  | initialized isVar isName isEquals assigned ends =>
      simp [isVar, isName, isEquals, assigned.used, ends, isUnused]

theorem Optional.used {tokens : List Token} {value : Option (Expr Unit)}
    (derived : Optional tokens value) : Used tokens := by
  cases derived with
  | absent => exact used_nil
  | present given => exact given.used

theorem Initializer.used {tokens : List Token} {initializer : Option (Stmt Unit)}
    (derived : Initializer tokens initializer) : Used tokens := by
  cases derived with
  | absent ends => simp [ends, isUnused]
  | declare declared => exact declared.used
  | expression evaluated => exact evaluated.used

theorem Parameters.used {tokens parameters : List Token} (derived : Parameters tokens parameters) :
    Used tokens := by
  induction derived with
  | none => exact used_nil
  | last isName => simp [isName, isUnused]
  | next isName separates _ used => simp [isName, separates, isUnused, used]

theorem Program.used {tokens : List Token} {stmts : List (Stmt Unit)}
    (derived : Program tokens stmts) : Used tokens := by
  refine @Program.rec (fun tokens _ _ => Used tokens) (fun _ tokens _ _ => Used tokens)
    (fun tokens _ _ => Used tokens)
    ?funDecl ?varDecl ?statement ?forStmt ?ifThen ?ifElse ?printStmt ?returnStmt ?whileStmt ?block
    ?exprStmt ?nil ?cons tokens stmts derived
  case funDecl =>
    intro keyword name opening closing brace last tokens body parameters stmts isFun isName opens
      named _ closes starts _ ends used
    simp [isFun, isName, opens, named.used, closes, starts, used, ends, isUnused]
  case varDecl => exact fun declared => declared.used
  case statement => exact fun _ used => used
  case forStmt =>
    intro dangling keyword opening semicolon closing start condition step branch initializer test
      increment body stmt isFor opens initialized tested ends stepped closes _ _ used
    simp [isFor, opens, initialized.used, tested.used, ends, stepped.used, closes, used, isUnused]
  case ifThen =>
    intro dangling keyword opening closing condition branch test consequent isIf opens tested closes
      _ used
    simp [isIf, opens, tested.used, closes, used, isUnused]
  case ifElse =>
    intro dangling keyword opening closing other condition first second test consequent alternative
      isIf opens tested closes _ isElse _ usedFirst usedSecond
    simp [isIf, opens, tested.used, closes, usedFirst, isElse, usedSecond, isUnused]
  case printStmt =>
    intro keyword semicolon tokens value isPrint printed ends
    simp [isPrint, printed.used, ends, isUnused]
  case returnStmt =>
    intro keyword semicolon tokens value isReturn given ends
    simp [isReturn, given.used, ends, isUnused]
  case whileStmt =>
    intro dangling keyword opening closing condition branch test body isWhile opens tested closes _
      used
    simp [isWhile, opens, tested.used, closes, used, isUnused]
  case block =>
    intro brace last tokens body starts _ ends used
    simp [starts, used, ends, isUnused]
  case exprStmt => exact fun evaluated => evaluated.used
  case nil => exact used_nil
  case cons =>
    intro first rest stmt stmts _ _ usedFirst usedRest
    simp [usedFirst, usedRest]

end Production

end Loxley
