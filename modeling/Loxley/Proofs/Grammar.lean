import Loxley.Parser.Statement
import Loxley.Proofs.Lines

/-!
# The grammar of programs

Which tokens make up which trees, said without a parser. Repetitions lean left, and a target of an
assignment is a bare name. A statement is open if it ends with a conditional that could still take an
`else`; the branch before an `else` is never open, so every `else` belongs to the nearest
conditional.
-/

set_option autoImplicit false

namespace Loxley

namespace Grammar

mutual

/-- An assignment to a name, or anything that binds more tightly. -/
inductive Expression : List Token → Expr Unit → Prop
  | chain {tokens : List Token} {value : Expr Unit} (chained : Chain 1 tokens value) :
      Expression tokens value
  | assign {name equals : Token} {tokens : List Token} {value : Expr Unit}
      (isName : name.kind = .identifier) (isEquals : equals.kind = .symbol .equal)
      (assigned : Expression tokens value) :
      Expression (name :: equals :: tokens) (.assign name () value)

/-- Operands joined by connectives of at least a strength. -/
inductive Chain : Nat → List Token → Expr Unit → Prop
  | unary {strength : Nat} {tokens : List Token} {value : Expr Unit}
      (beyond : Connective.tightest < strength) (operand : Unary tokens value) :
      Chain strength tokens value
  | operands {strength : Nat} {first rest : List Token} {left value : Expr Unit}
      (within : strength ≤ Connective.tightest) (leftmost : Chain (strength + 1) first left)
      (others : Operands strength left rest value) : Chain strength (first ++ rest) value

/-- More operands after the leftmost one, joined by connectives of one strength. -/
inductive Operands : Nat → Expr Unit → List Token → Expr Unit → Prop
  | none {strength : Nat} {left : Expr Unit} : Operands strength left [] left
  | next {strength : Nat} {left right value : Expr Unit} {token : Token}
      {connective : Connective} {operand rest : List Token}
      (denoted : Connective.ofKind? token.kind = some connective)
      (same : connective.strength = strength) (chained : Chain (strength + 1) operand right)
      (others : Operands strength (.connect connective token left right) rest value) :
      Operands strength left (token :: (operand ++ rest)) value

/-- Unary operators before calls. -/
inductive Unary : List Token → Expr Unit → Prop
  | operator {op : UnaryOp} {token : Token} {tokens : List Token} {operand : Expr Unit}
      (denoted : UnaryOp.ofKind? token.kind = some op) (operated : Unary tokens operand) :
      Unary (token :: tokens) (.unary op token operand)
  | calls {first rest : List Token} {callee value : Expr Unit} (primary : Primary first callee)
      (called : Calls callee rest value) : Unary (first ++ rest) value

/-- Argument lists after a callee. -/
inductive Calls : Expr Unit → List Token → Expr Unit → Prop
  | none {callee : Expr Unit} : Calls callee [] callee
  | empty {callee value : Expr Unit} {opening closing : Token} {rest : List Token}
      (opens : opening.kind = .symbol .leftParen) (closes : closing.kind = .symbol .rightParen)
      (others : Calls (.call closing callee []) rest value) :
      Calls callee (opening :: closing :: rest) value
  | given {callee value : Expr Unit} {opening closing : Token} {tokens rest : List Token}
      {arguments : List (Expr Unit)} (opens : opening.kind = .symbol .leftParen)
      (passed : Arguments tokens arguments) (few : arguments.length ≤ Parser.maxArguments)
      (closes : closing.kind = .symbol .rightParen)
      (others : Calls (.call closing callee arguments) rest value) :
      Calls callee (opening :: (tokens ++ closing :: rest)) value

/-- Arguments separated by commas. -/
inductive Arguments : List Token → List (Expr Unit) → Prop
  | last {tokens : List Token} {value : Expr Unit} (argument : Expression tokens value) :
      Arguments tokens [value]
  | next {tokens rest : List Token} {comma : Token} {value : Expr Unit}
      {others : List (Expr Unit)} (argument : Expression tokens value)
      (separates : comma.kind = .symbol .comma) (passed : Arguments rest others) :
      Arguments (tokens ++ comma :: rest) (value :: others)

/-- Literals, names and expressions in parentheses. -/
inductive Primary : List Token → Expr Unit → Prop
  | constant {token : Token} {value : Literal}
      (isConstant : Parser.constant? token = some value) : Primary [token] (.literal token value)
  | name {token : Token} (isName : token.kind = .identifier) : Primary [token] (.ident token ())
  | group {opening closing : Token} {tokens : List Token} {inner : Expr Unit}
      (opens : opening.kind = .symbol .leftParen) (enclosed : Expression tokens inner)
      (closes : closing.kind = .symbol .rightParen) :
      Primary (opening :: (tokens ++ [closing])) (.group opening inner)

end

/-- An expression that may be missing. -/
inductive Optional : List Token → Option (Expr Unit) → Prop
  | absent : Optional [] none
  | present {tokens : List Token} {value : Expr Unit} (expression : Expression tokens value) :
      Optional tokens (some value)

/-- An expression with its semicolon. -/
inductive ExpressionStatement : List Token → Stmt Unit → Prop
  | intro {tokens : List Token} {semicolon : Token} {value : Expr Unit}
      (expression : Expression tokens value) (ends : semicolon.kind = .symbol .semicolon) :
      ExpressionStatement (tokens ++ [semicolon]) (.expression value.token value)

/-- A variable declaration after its keyword. -/
inductive Variable : List Token → Stmt Unit → Prop
  | bare {name semicolon : Token} (isName : name.kind = .identifier)
      (ends : semicolon.kind = .symbol .semicolon) :
      Variable [name, semicolon] (.declare name none)
  | initialized {name equals semicolon : Token} {tokens : List Token} {value : Expr Unit}
      (isName : name.kind = .identifier) (isEquals : equals.kind = .symbol .equal)
      (expression : Expression tokens value) (ends : semicolon.kind = .symbol .semicolon) :
      Variable (name :: equals :: (tokens ++ [semicolon])) (.declare name (some value))

/-- The first clause of a `for` loop. -/
inductive Initializer : List Token → Option (Stmt Unit) → Prop
  | absent {semicolon : Token} (ends : semicolon.kind = .symbol .semicolon) :
      Initializer [semicolon] none
  | declare {keyword : Token} {tokens : List Token} {first : Stmt Unit}
      (isVar : keyword.kind = .keyword .varWord) (declared : Variable tokens first) :
      Initializer (keyword :: tokens) (some first)
  | expression {tokens : List Token} {first : Stmt Unit}
      (evaluated : ExpressionStatement tokens first) : Initializer tokens (some first)

/-- Parameters separated by commas. -/
inductive Parameters : List Token → List Token → Prop
  | last {name : Token} (isName : name.kind = .identifier) : Parameters [name] [name]
  | next {name comma : Token} {tokens others : List Token} (isName : name.kind = .identifier)
      (separates : comma.kind = .symbol .comma) (named : Parameters tokens others) :
      Parameters (name :: comma :: tokens) (name :: others)

/-- Parameters that may be missing. -/
inductive OptionalParameters : List Token → List Token → Prop
  | absent : OptionalParameters [] []
  | present {tokens parameters : List Token} (named : Parameters tokens parameters)
      (few : parameters.length ≤ Parser.maxArguments) : OptionalParameters tokens parameters

mutual

/-- A declaration or statement. -/
inductive Declaration : List Token → Stmt Unit → Prop
  | function {keyword name opening closing brace last : Token}
      {tokens body parameters : List Token} {stmts : List (Stmt Unit)}
      (isFun : keyword.kind = .keyword .funWord) (isName : name.kind = .identifier)
      (opens : opening.kind = .symbol .leftParen) (named : OptionalParameters tokens parameters)
      (closes : closing.kind = .symbol .rightParen) (starts : brace.kind = .symbol .leftBrace)
      (declared : Declarations body stmts) (ends : last.kind = .symbol .rightBrace) :
      Declaration (keyword :: name :: opening :: (tokens ++ closing :: brace :: (body ++ [last])))
        (.function name parameters stmts)
  | declare {keyword : Token} {tokens : List Token} {stmt : Stmt Unit}
      (isVar : keyword.kind = .keyword .varWord) (declared : Variable tokens stmt) :
      Declaration (keyword :: tokens) stmt
  | statement {isOpen : Bool} {tokens : List Token} {stmt : Stmt Unit}
      (stated : Statement isOpen tokens stmt) : Declaration tokens stmt

/-- A statement that is no declaration, and whether it is open. -/
inductive Statement : Bool → List Token → Stmt Unit → Prop
  | expression {tokens : List Token} {stmt : Stmt Unit}
      (evaluated : ExpressionStatement tokens stmt) : Statement false tokens stmt
  | print {keyword semicolon : Token} {tokens : List Token} {value : Expr Unit}
      (isPrint : keyword.kind = .keyword .printWord) (printed : Expression tokens value)
      (ends : semicolon.kind = .symbol .semicolon) :
      Statement false (keyword :: (tokens ++ [semicolon])) (.print keyword value)
  | giveBack {keyword semicolon : Token} {tokens : List Token} {value : Option (Expr Unit)}
      (isReturn : keyword.kind = .keyword .returnWord) (given : Optional tokens value)
      (ends : semicolon.kind = .symbol .semicolon) :
      Statement false (keyword :: (tokens ++ [semicolon])) (.giveBack keyword value)
  | block {brace last : Token} {tokens : List Token} {body : List (Stmt Unit)}
      (starts : brace.kind = .symbol .leftBrace) (declared : Declarations tokens body)
      (ends : last.kind = .symbol .rightBrace) :
      Statement false (brace :: (tokens ++ [last])) (.block brace body)
  | ifThen {isOpen : Bool} {keyword opening closing : Token} {condition branch : List Token}
      {test : Expr Unit} {consequent : Stmt Unit} (isIf : keyword.kind = .keyword .ifWord)
      (opens : opening.kind = .symbol .leftParen) (tested : Expression condition test)
      (closes : closing.kind = .symbol .rightParen)
      (stated : Statement isOpen branch consequent) :
      Statement true (keyword :: opening :: (condition ++ closing :: branch))
        (.ifThen keyword test consequent)
  | ifElse {isOpen : Bool} {keyword opening closing other : Token}
      {condition first second : List Token} {test : Expr Unit} {consequent alternative : Stmt Unit}
      (isIf : keyword.kind = .keyword .ifWord) (opens : opening.kind = .symbol .leftParen)
      (tested : Expression condition test) (closes : closing.kind = .symbol .rightParen)
      (stated : Statement false first consequent) (isElse : other.kind = .keyword .elseWord)
      (otherwise : Statement isOpen second alternative) :
      Statement isOpen
        (keyword :: opening :: (condition ++ closing :: (first ++ other :: second)))
        (.ifElse keyword test consequent alternative)
  | whileLoop {isOpen : Bool} {keyword opening closing : Token} {condition branch : List Token}
      {test : Expr Unit} {body : Stmt Unit} (isWhile : keyword.kind = .keyword .whileWord)
      (opens : opening.kind = .symbol .leftParen) (tested : Expression condition test)
      (closes : closing.kind = .symbol .rightParen) (stated : Statement isOpen branch body) :
      Statement isOpen (keyword :: opening :: (condition ++ closing :: branch))
        (.loop keyword test body)
  | forLoop {isOpen : Bool} {keyword opening semicolon closing : Token}
      {start condition step branch : List Token} {initializer : Option (Stmt Unit)}
      {test increment : Option (Expr Unit)} {body : Stmt Unit}
      (isFor : keyword.kind = .keyword .forWord) (opens : opening.kind = .symbol .leftParen)
      (initialized : Initializer start initializer) (tested : Optional condition test)
      (ends : semicolon.kind = .symbol .semicolon) (stepped : Optional step increment)
      (closes : closing.kind = .symbol .rightParen) (stated : Statement isOpen branch body) :
      Statement isOpen
        (keyword :: opening :: (start ++ (condition ++ semicolon :: (step ++ closing :: branch))))
        (.forLoop keyword initializer test increment body)

/-- Declarations one after the other. -/
inductive Declarations : List Token → List (Stmt Unit) → Prop
  | nil : Declarations [] []
  | cons {first rest : List Token} {stmt : Stmt Unit} {stmts : List (Stmt Unit)}
      (declared : Declaration first stmt) (others : Declarations rest stmts) :
      Declarations (first ++ rest) (stmt :: stmts)

end

/-! ## First tokens -/

/-- The kinds of token with which an expression starts. -/
def startsExpression : TokenKind → Bool
  | .identifier | .number | .string | .keyword .falseWord | .keyword .trueWord | .keyword .nilWord
  | .symbol .leftParen | .symbol .bang | .symbol .minus => true
  | _ => false

/-- Tokens with which an expression can start. -/
def Starts (tokens : List Token) : Prop :=
  ∃ first rest, tokens = first :: rest ∧ startsExpression first.kind = true

theorem Starts.append {tokens : List Token} (starts : Starts tokens) (more : List Token) :
    Starts (tokens ++ more) := by
  obtain ⟨first, rest, rfl, isStart⟩ := starts
  exact ⟨first, rest ++ more, rfl, isStart⟩

theorem startsExpression_of_constant? {token : Token} {value : Literal}
    (isConstant : Parser.constant? token = some value) : startsExpression token.kind = true := by
  unfold Parser.constant? at isConstant
  split at isConstant <;> simp_all [startsExpression]

theorem startsExpression_of_unaryOp {kind : TokenKind} {op : UnaryOp}
    (denoted : UnaryOp.ofKind? kind = some op) : startsExpression kind = true := by
  unfold UnaryOp.ofKind? at denoted
  split at denoted <;> simp_all [startsExpression]

theorem Expression.starts {tokens : List Token} {value : Expr Unit}
    (derived : Expression tokens value) : Starts tokens := by
  refine @Expression.rec (fun tokens _ _ => Starts tokens) (fun _ tokens _ _ => Starts tokens)
    (fun _ _ _ _ _ => True) (fun tokens _ _ => Starts tokens) (fun _ _ _ _ => True)
    (fun _ _ _ => True) (fun tokens _ _ => Starts tokens)
    ?chain ?assign ?unary ?operands ?none ?next ?operator ?calls ?bare ?empty ?given ?last ?more
    ?constant ?name ?group tokens value derived
  case chain => exact fun _ starts => starts
  case assign =>
    intro name equals tokens value isName _ _ _
    exact ⟨name, _, rfl, by rw [isName]; rfl⟩
  case unary => exact fun _ _ starts => starts
  case operands => exact fun _ _ _ starts _ => starts.append _
  case operator => exact fun denoted _ _ => ⟨_, _, rfl, startsExpression_of_unaryOp denoted⟩
  case calls => exact fun _ _ starts _ => starts.append _
  case constant => exact fun isConstant => ⟨_, _, rfl, startsExpression_of_constant? isConstant⟩
  case name => exact fun isName => ⟨_, _, rfl, by rw [isName]; rfl⟩
  case group => exact fun opens _ _ _ => ⟨_, _, rfl, by rw [opens]; rfl⟩
  all_goals intros; trivial

/-- The kinds of token with which a statement starts. -/
def startsStatement (kind : TokenKind) : Bool :=
  (Parser.StatementForm.ofKind? kind).isSome || startsExpression kind

theorem Statement.starts {isOpen : Bool} {tokens : List Token} {stmt : Stmt Unit}
    (derived : Statement isOpen tokens stmt) :
    ∃ first rest, tokens = first :: rest ∧ startsStatement first.kind = true := by
  cases derived with
  | expression evaluated =>
      obtain ⟨expression, _⟩ := evaluated
      obtain ⟨first, rest, rfl, isStart⟩ := expression.starts
      exact ⟨first, _, rfl, by simp [startsStatement, isStart]⟩
  | print isKeyword | giveBack isKeyword | block isKeyword | ifThen isKeyword | ifElse isKeyword
  | whileLoop isKeyword | forLoop isKeyword => exact ⟨_, _, rfl, by rw [isKeyword]; rfl⟩

/-- A declaration has a first token, which is neither a closing brace nor an `else`. -/
theorem Declaration.starts {tokens : List Token} {stmt : Stmt Unit}
    (derived : Declaration tokens stmt) :
    ∃ first rest, tokens = first :: rest ∧ first.kind ≠ .symbol .rightBrace ∧
      first.kind ≠ .keyword .elseWord := by
  cases derived with
  | function isKeyword | declare isKeyword => exact ⟨_, _, rfl, by rw [isKeyword]; simp⟩
  | statement stated =>
      obtain ⟨first, rest, rfl, isStart⟩ := stated.starts
      refine ⟨first, rest, rfl, fun closes => ?_, fun isElse => ?_⟩
      · rw [closes] at isStart
        cases isStart
      · rw [isElse] at isStart
        cases isStart

/-- A chain that comes to a bare name is nothing but that name. -/
theorem Chain.eq_name {strength : Nat} {tokens : List Token} {name : Token}
    (derived : Chain strength tokens (.ident name ())) :
    tokens = [name] ∧ name.kind = .identifier := by
  refine @Chain.rec (fun _ _ _ => True)
    (fun _ tokens value _ => value = .ident name () → tokens = [name] ∧ name.kind = .identifier)
    (fun _ left tokens value _ => value = .ident name () → tokens = [] ∧ left = value)
    (fun tokens value _ => value = .ident name () → tokens = [name] ∧ name.kind = .identifier)
    (fun callee tokens value _ => value = .ident name () → tokens = [] ∧ callee = value)
    (fun _ _ _ => True)
    (fun tokens value _ => value = .ident name () → tokens = [name] ∧ name.kind = .identifier)
    ?chain ?assign ?unary ?operands ?none ?next ?operator ?calls ?bare ?empty ?given ?last ?more
    ?constant ?name ?group strength tokens _ derived rfl
  case unary => exact fun _ _ operand => operand
  case operands =>
    intro strength first rest left value _ _ _ leftmost others isName
    obtain ⟨rfl, rfl⟩ := others isName
    simpa using leftmost isName
  case none => exact fun _ => ⟨rfl, rfl⟩
  case next =>
    -- The value contains the connective, so it is no bare name.
    intro strength left right value token connective operand rest _ _ _ _ _ others isName
    obtain ⟨_, rfl⟩ := others isName
    cases connective <;> cases isName
  case operator => rintro _ _ _ _ _ _ _ ⟨⟩
  case calls =>
    intro first rest callee value _ _ primary called isName
    obtain ⟨rfl, rfl⟩ := called isName
    simpa using primary isName
  case bare => exact fun _ => ⟨rfl, rfl⟩
  case empty =>
    intro callee value opening closing rest _ _ _ others isName
    obtain ⟨_, rfl⟩ := others isName
    cases isName
  case given =>
    intro callee value opening closing tokens rest arguments _ _ _ _ _ _ others isName
    obtain ⟨_, rfl⟩ := others isName
    cases isName
  case constant => rintro _ _ _ ⟨⟩
  case name =>
    intro token isIdentifier isName
    cases isName
    exact ⟨rfl, isIdentifier⟩
  case group => rintro _ _ _ _ _ _ _ _ ⟨⟩
  all_goals intros; trivial

/-! ## Well-formed trees -/

theorem wellFormed_connect {connective : Connective} {token : Token} {left right : Expr Unit}
    (denoted : Connective.ofKind? token.kind = some connective) (leftFormed : left.WellFormed)
    (rightFormed : right.WellFormed) :
    (Expr.connect connective token left right).WellFormed := by
  cases connective with
  | binary op => exact ⟨denoted, leftFormed, rightFormed⟩
  | logical op => exact ⟨denoted, leftFormed, rightFormed⟩

theorem Expression.wellFormed {tokens : List Token} {value : Expr Unit}
    (derived : Expression tokens value) : value.WellFormed := by
  refine @Expression.rec (fun _ value _ => value.WellFormed) (fun _ _ value _ => value.WellFormed)
    (fun _ left _ value _ => left.WellFormed → value.WellFormed) (fun _ value _ => value.WellFormed)
    (fun callee _ value _ => callee.WellFormed → value.WellFormed)
    (fun _ arguments _ => Expr.WellFormedAll arguments) (fun _ value _ => value.WellFormed)
    ?chain ?assign ?unary ?operands ?none ?next ?operator ?calls ?bare ?empty ?given ?last ?more
    ?constant ?name ?group tokens value derived
  case chain => exact fun _ formed => formed
  case assign => exact fun _ _ _ formed => formed
  case unary => exact fun _ _ formed => formed
  case operands => exact fun _ _ _ leftFormed others => others leftFormed
  case none => exact fun formed => formed
  case next =>
    intro strength left right value token connective operand rest denoted _ _ _ rightFormed others
      leftFormed
    exact others (wellFormed_connect denoted leftFormed rightFormed)
  case operator => exact fun denoted _ formed => ⟨denoted, formed⟩
  case calls => exact fun _ _ formed called => called formed
  case bare => exact fun formed => formed
  case empty => exact fun _ _ _ others formed => others ⟨formed, trivial⟩
  case given =>
    intro callee value opening closing tokens rest arguments _ _ _ _ _ passed others formed
    exact others ⟨formed, passed⟩
  case last => exact fun _ formed => ⟨formed, trivial⟩
  case more => exact fun _ _ _ formed others => ⟨formed, others⟩
  case constant => exact fun _ => trivial
  case name => exact fun _ => trivial
  case group => exact fun _ _ _ formed => formed

theorem Optional.wellFormed {tokens : List Token} {value : Option (Expr Unit)}
    (derived : Optional tokens value) : Expr.WellFormedOption value := by
  cases derived with
  | absent => trivial
  | present expression => exact expression.wellFormed

theorem Variable.wellFormed {tokens : List Token} {stmt : Stmt Unit}
    (derived : Variable tokens stmt) : stmt.WellFormed := by
  cases derived with
  | bare => trivial
  | initialized _ _ expression _ => exact expression.wellFormed

theorem Initializer.wellFormed {tokens : List Token} {initializer : Option (Stmt Unit)}
    (derived : Initializer tokens initializer) :
    ∀ first, initializer = some first → first.WellFormed := by
  rintro first rfl
  cases derived with
  | declare _ declared => exact declared.wellFormed
  | expression evaluated =>
      obtain ⟨expression, _⟩ := evaluated
      exact expression.wellFormed

/-- A `for` loop is made of loops and blocks only, so it declares nothing around itself. -/
theorem plain_forLoop {keyword : Token} {initializer : Option (Stmt Unit)}
    {test increment : Option (Expr Unit)} {body : Stmt Unit}
    (initialized : ∀ first, initializer = some first → first.WellFormed)
    (tested : Expr.WellFormedOption test) (stepped : Expr.WellFormedOption increment)
    (plain : body.Plain) : (Stmt.forLoop keyword initializer test increment body).Plain := by
  have condition : (test.getD (.literal keyword (.bool true))).WellFormed := by
    cases test with
    | none => trivial
    | some test => exact tested
  have step : (Stmt.withIncrement keyword body increment).Plain := by
    cases increment with
    | none => exact plain
    | some increment => exact ⟨rfl, plain.2, stepped, trivial⟩
  cases initializer with
  | none => exact ⟨rfl, condition, step⟩
  | some first => exact ⟨rfl, initialized first rfl, ⟨condition, step⟩, trivial⟩

theorem Declarations.wellFormed {tokens : List Token} {stmts : List (Stmt Unit)}
    (derived : Declarations tokens stmts) : Stmt.WellFormedAll stmts := by
  refine @Declarations.rec (fun _ stmt _ => stmt.WellFormed)
    (fun _ _ stmt _ => stmt.Plain)
    (fun _ stmts _ => Stmt.WellFormedAll stmts)
    ?function ?declare ?statement ?expression ?print ?giveBack ?block ?ifThen ?ifElse ?whileLoop
    ?forLoop ?nil ?cons tokens stmts derived
  case function => exact fun _ _ _ _ _ _ _ _ formed => formed
  case declare => exact fun _ declared => declared.wellFormed
  case statement => exact fun _ plain => plain.2
  case expression =>
    intro tokens stmt evaluated
    obtain ⟨expression, _⟩ := evaluated
    exact ⟨rfl, expression.wellFormed⟩
  case print => exact fun _ printed _ => ⟨rfl, printed.wellFormed⟩
  case giveBack => exact fun _ given _ => ⟨rfl, given.wellFormed⟩
  case block => exact fun _ _ _ formed => ⟨rfl, formed⟩
  case ifThen => exact fun _ _ tested _ _ plain => ⟨rfl, tested.wellFormed, plain⟩
  case ifElse =>
    intro isOpen keyword opening closing other condition first second test consequent alternative
      _ _ tested _ _ _ _ plain plainOther
    exact ⟨rfl, tested.wellFormed, plain, plainOther⟩
  case whileLoop => exact fun _ _ tested _ _ plain => ⟨rfl, tested.wellFormed, plain⟩
  case forLoop =>
    intro isOpen keyword opening semicolon closing start condition step branch initializer test
      increment body _ _ initialized tested _ stepped _ _ plain
    exact plain_forLoop initialized.wellFormed tested.wellFormed stepped.wellFormed plain
  case nil => trivial
  case cons => exact fun _ _ formed others => ⟨formed, others⟩

/-! ## Joining and moving -/

theorem Declarations.append {first second : List Token} {stmts others : List (Stmt Unit)}
    (derived : Declarations first stmts) (later : Declarations second others) :
    Declarations (first ++ second) (stmts ++ others) := by
  induction stmts generalizing first with
  | nil =>
      cases derived
      exact later
  | cons stmt rest ih =>
      cases derived with
      | cons declared tail =>
          rw [List.append_assoc]
          exact .cons declared (ih tail)

section Moving

variable {lines : Nat}

theorem Expression.down {tokens : List Token} {value : Expr Unit}
    (derived : Expression tokens value) :
    Expression (tokens.map (Token.down lines)) (value.down lines) := by
  refine @Expression.rec
    (fun tokens value _ => Expression (tokens.map (Token.down lines)) (value.down lines))
    (fun strength tokens value _ =>
      Chain strength (tokens.map (Token.down lines)) (value.down lines))
    (fun strength left tokens value _ =>
      Operands strength (left.down lines) (tokens.map (Token.down lines)) (value.down lines))
    (fun tokens value _ => Unary (tokens.map (Token.down lines)) (value.down lines))
    (fun callee tokens value _ =>
      Calls (callee.down lines) (tokens.map (Token.down lines)) (value.down lines))
    (fun tokens arguments _ =>
      Arguments (tokens.map (Token.down lines)) (Expr.downAll lines arguments))
    (fun tokens value _ => Primary (tokens.map (Token.down lines)) (value.down lines))
    ?chain ?assign ?unary ?operands ?none ?next ?operator ?calls ?bare ?empty ?given ?last ?more
    ?constant ?name ?group tokens value derived
  case chain => exact fun _ chained => .chain chained
  case assign => exact fun isName isEquals _ assigned => .assign isName isEquals assigned
  case unary => exact fun beyond _ operand => .unary beyond operand
  case operands =>
    intro strength first rest left value within _ _ leftmost others
    rw [List.map_append]
    exact .operands within leftmost others
  case none => exact .none
  case next =>
    intro strength left right value token connective operand rest denoted same _ _ chained others
    rw [Expr.connect_down] at others
    rw [List.map_cons, List.map_append]
    exact .next denoted same chained others
  case operator => exact fun denoted _ operated => .operator denoted operated
  case calls =>
    intro first rest callee value _ _ primary called
    rw [List.map_append]
    exact .calls primary called
  case bare => exact .none
  case empty => exact fun opens closes _ others => .empty opens closes others
  case given =>
    intro callee value opening closing tokens rest arguments opens _ few closes _ passed others
    rw [List.map_cons, List.map_append, List.map_cons]
    exact .given opens passed (by rwa [Expr.length_downAll]) closes others
  case last => exact fun _ argument => .last argument
  case more =>
    intro tokens rest comma value others _ separates _ argument passed
    rw [List.map_append, List.map_cons]
    exact .next argument separates passed
  case constant => exact fun isConstant => .constant isConstant
  case name => exact fun isName => .name isName
  case group =>
    intro opening closing tokens inner opens _ closes enclosed
    rw [List.map_cons, List.map_append]
    exact .group opens enclosed closes

theorem Optional.down {tokens : List Token} {value : Option (Expr Unit)}
    (derived : Optional tokens value) :
    Optional (tokens.map (Token.down lines)) (value.map (Expr.down lines)) := by
  cases derived with
  | absent => exact .absent
  | present expression => exact .present expression.down

theorem ExpressionStatement.down {tokens : List Token} {stmt : Stmt Unit}
    (derived : ExpressionStatement tokens stmt) :
    ExpressionStatement (tokens.map (Token.down lines)) (stmt.down lines) := by
  obtain ⟨expression, ends⟩ := derived
  rw [List.map_append, Stmt.down, ← Expr.token_down]
  exact .intro expression.down ends

theorem Variable.down {tokens : List Token} {stmt : Stmt Unit} (derived : Variable tokens stmt) :
    Variable (tokens.map (Token.down lines)) (stmt.down lines) := by
  cases derived with
  | bare isName ends => exact .bare isName ends
  | initialized isName isEquals expression ends =>
      rw [List.map_cons, List.map_cons, List.map_append]
      exact .initialized isName isEquals expression.down ends

theorem Initializer.down {tokens : List Token} {initializer : Option (Stmt Unit)}
    (derived : Initializer tokens initializer) :
    Initializer (tokens.map (Token.down lines)) (initializer.map (Stmt.down lines)) := by
  cases derived with
  | absent ends => exact .absent ends
  | declare isVar declared => exact .declare isVar declared.down
  | expression evaluated => exact .expression evaluated.down

theorem Parameters.down {tokens parameters : List Token} (derived : Parameters tokens parameters) :
    Parameters (tokens.map (Token.down lines)) (parameters.map (Token.down lines)) := by
  induction derived with
  | last isName => exact .last isName
  | next isName separates _ ih => exact .next isName separates ih

theorem OptionalParameters.down {tokens parameters : List Token}
    (derived : OptionalParameters tokens parameters) :
    OptionalParameters (tokens.map (Token.down lines)) (parameters.map (Token.down lines)) := by
  cases derived with
  | absent => exact .absent
  | present named few => exact .present named.down (by rwa [List.length_map])

/-- The grammar does not look at lines. -/
theorem Declarations.down {tokens : List Token} {stmts : List (Stmt Unit)}
    (derived : Declarations tokens stmts) :
    Declarations (tokens.map (Token.down lines)) (Stmt.downAll lines stmts) := by
  refine @Declarations.rec
    (fun tokens stmt _ => Declaration (tokens.map (Token.down lines)) (stmt.down lines))
    (fun isOpen tokens stmt _ =>
      Statement isOpen (tokens.map (Token.down lines)) (stmt.down lines))
    (fun tokens stmts _ =>
      Declarations (tokens.map (Token.down lines)) (Stmt.downAll lines stmts))
    ?function ?declare ?statement ?expression ?print ?giveBack ?block ?ifThen ?ifElse ?whileLoop
    ?forLoop ?nil ?cons tokens stmts derived
  case function =>
    intro keyword name opening closing brace last tokens body parameters stmts isFun isName opens
      named closes starts _ ends declared
    simp only [List.map_cons, List.map_append, List.map_nil]
    exact .function isFun isName opens named.down closes starts declared ends
  case declare => exact fun isVar declared => .declare isVar declared.down
  case statement => exact fun _ stated => .statement stated
  case expression => exact fun evaluated => .expression evaluated.down
  case print =>
    intro keyword semicolon tokens value isPrint printed ends
    rw [List.map_cons, List.map_append]
    exact .print isPrint printed.down ends
  case giveBack =>
    intro keyword semicolon tokens value isReturn given ends
    rw [List.map_cons, List.map_append]
    exact .giveBack isReturn given.down ends
  case block =>
    intro brace last tokens body starts _ ends declared
    rw [List.map_cons, List.map_append]
    exact .block starts declared ends
  case ifThen =>
    intro isOpen keyword opening closing condition branch test consequent isIf opens tested closes
      _ stated
    simp only [List.map_cons, List.map_append]
    exact .ifThen isIf opens tested.down closes stated
  case ifElse =>
    intro isOpen keyword opening closing other condition first second test consequent alternative
      isIf opens tested closes _ isElse _ stated otherwise
    simp only [List.map_cons, List.map_append]
    exact .ifElse isIf opens tested.down closes stated isElse otherwise
  case whileLoop =>
    intro isOpen keyword opening closing condition branch test body isWhile opens tested closes
      _ stated
    simp only [List.map_cons, List.map_append]
    exact .whileLoop isWhile opens tested.down closes stated
  case forLoop =>
    intro isOpen keyword opening semicolon closing start condition step branch initializer test
      increment body isFor opens initialized tested ends stepped closes _ stated
    simp only [List.map_cons, List.map_append, Stmt.forLoop_down]
    exact .forLoop isFor opens initialized.down tested.down ends stepped.down closes stated
  case nil => exact .nil
  case cons =>
    intro first rest stmt stmts _ _ declared others
    rw [List.map_append]
    exact .cons declared others

end Moving

end Grammar

end Loxley
