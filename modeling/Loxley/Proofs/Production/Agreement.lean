import Loxley.Proofs.Parser.Completeness
import Loxley.Proofs.Production

/-!
# The parser keeps to the productions

The productions derive exactly what the grammar in the form of the parser derives, where a repetition
is an operand and the tail that follows it. So a program is read without a diagnostic exactly if the
productions derive it.
-/

set_option autoImplicit false

namespace Loxley

/-! ## Operators and constants -/

theorem UnaryOp.ofKind?_eq_some {kind : TokenKind} {op : UnaryOp} :
    UnaryOp.ofKind? kind = some op ↔ kind = op.kind := by
  constructor
  · intro denoted
    unfold UnaryOp.ofKind? at denoted
    split at denoted <;> cases denoted <;> rfl
  · rintro rfl
    cases op <;> rfl

namespace Connective

/-- The token that spells an operator between operands. -/
def kind : Connective → TokenKind
  | binary op => op.kind
  | logical op => op.kind

/-- The tier of the chains that an operator between operands makes. -/
def tier : Connective → Tier
  | binary op => op.tier
  | logical op => op.tier

theorem ofKind?_eq_some {kind : TokenKind} {connective : Connective} :
    Connective.ofKind? kind = some connective ↔ kind = connective.kind := by
  constructor
  · intro denoted
    unfold Connective.ofKind? at denoted
    split at denoted <;> cases denoted <;> rfl
  · rintro rfl
    rcases connective with op | op <;> cases op <;> rfl

theorem strength_eq_rank (connective : Connective) :
    connective.strength = connective.tier.rank := by
  rcases connective with op | op <;> cases op <;> rfl

theorem rank_tier_bounds (connective : Connective) :
    1 ≤ connective.tier.rank ∧ connective.tier.rank ≤ tightest := by
  rcases connective with op | op <;> cases op <;> decide

end Connective

namespace Production

theorem constant_iff {token : Token} {value : Literal} :
    Constant token value ↔ Parser.constant? token = some value := by
  constructor
  · intro stands
    cases stands with
    | trueWord isConstant | falseWord isConstant | nilWord isConstant | number isConstant
    | string isConstant => simp [Parser.constant?, isConstant]
  · intro isConstant
    unfold Parser.constant? at isConstant
    split at isConstant
    · next isFalse => cases isConstant; exact .falseWord isFalse
    · next isTrue => cases isConstant; exact .trueWord isTrue
    · next isNil => cases isConstant; exact .nilWord isNil
    · next isNumber => cases isConstant; exact .number isNumber
    · next isString => cases isConstant; exact .string isString
    · cases isConstant

/-- A chain of operators of one tier, once the operator after its left part is known. -/
theorem Expression.joined (connective : Connective) {next : Tier} {token : Token}
    {first second : List Token} {left right : Expr Unit}
    (leftmost : Expression connective.tier first left) (spelled : token.kind = connective.kind)
    (below : connective.tier.next? = some next) (rightmost : Expression next second right) :
    Expression connective.tier (first ++ token :: second)
      (.connect connective token left right) := by
  cases connective with
  | binary op => exact .binary leftmost spelled below rightmost
  | logical op => exact .logical leftmost spelled below rightmost

/-! ## From the productions to the parser's form -/

/--
How the expressions of a tier appear in the parser's form. Where a tail may follow, the expression is
one that every tail extends.
-/
def Factored (tier : Tier) (tokens : List Token) (value : Expr Unit) : Prop :=
  match tier with
  | .assignment => Grammar.Expression tokens value
  | .logicOr | .logicAnd | .equality | .comparison | .term | .factor =>
    ∀ rest whole, Grammar.Operands tier.rank value rest whole →
      Grammar.Chain tier.rank (tokens ++ rest) whole
  | .unary => Grammar.Unary tokens value
  | .call => ∀ rest whole, Grammar.Calls value rest whole → Grammar.Unary (tokens ++ rest) whole
  | .primary => Grammar.Primary tokens value

section Factored

variable {tier next : Tier} {tokens : List Token} {value : Expr Unit}

theorem Factored.operand (chains : 1 ≤ tier.rank ∧ tier.rank ≤ Connective.tightest)
    (below : tier.next? = some next) (factored : Factored next tokens value) :
    Grammar.Chain (tier.rank + 1) tokens value := by
  cases tier with
  | assignment | unary | call | primary => simp [Tier.rank, Connective.tightest] at chains
  | logicOr | logicAnd | equality | comparison | term =>
      cases below
      have alone := factored [] value .none
      rwa [List.append_nil] at alone
  | factor =>
      cases below
      exact .unary (by decide) factored

theorem Factored.tighter (below : tier.next? = some next)
    (factored : Factored next tokens value) : Factored tier tokens value := by
  cases tier with
  | assignment =>
      cases below
      have alone := factored [] value .none
      rw [List.append_nil] at alone
      exact .chain alone
  | logicOr | logicAnd | equality | comparison | term | factor =>
      intro rest whole others
      exact .operands (by decide) (factored.operand (by decide) below) others
  | unary =>
      cases below
      have alone := factored [] value .none
      rwa [List.append_nil] at alone
  | call =>
      cases below
      exact fun rest whole called => .calls factored called
  | primary => cases below

/-- A left part followed by an operator and an operand is a left part again. -/
theorem Factored.joined (connective : Connective) {token : Token} {first second : List Token}
    {left right : Expr Unit} (leftmost : Factored connective.tier first left)
    (spelled : token.kind = connective.kind) (below : connective.tier.next? = some next)
    (rightmost : Factored next second right) :
    Factored connective.tier (first ++ token :: second) (.connect connective token left right) := by
  have chains := connective.rank_tier_bounds
  have operand := rightmost.operand chains below
  have denoted := Connective.ofKind?_eq_some.mpr spelled
  have same := connective.strength_eq_rank
  generalize connective.tier = tier at *
  cases tier with
  | assignment | unary | call | primary => simp [Tier.rank, Connective.tightest] at chains
  | logicOr | logicAnd | equality | comparison | term | factor =>
      intro rest whole others
      rw [List.append_assoc, List.cons_append]
      exact leftmost _ whole (.next denoted same operand others)

theorem Expression.factored (derived : Expression tier tokens value) :
    Factored tier tokens value := by
  refine @Expression.rec (fun tier tokens value _ => Factored tier tokens value)
    (fun tokens arguments _ =>
      tokens = [] ∧ arguments = [] ∨ Grammar.Arguments tokens arguments)
    ?tighter ?assign ?logical ?binary ?unary ?call ?constant ?name ?group ?none ?last ?more
    tier tokens value derived
  case tighter => exact fun below _ factored => factored.tighter below
  case assign => exact fun isName isEquals _ assigned => .assign isName isEquals assigned
  case logical =>
    intro op next token first second left right _ spelled below _ leftmost rightmost
    exact Factored.joined (.logical op) leftmost spelled below rightmost
  case binary =>
    intro op next token first second left right _ spelled below _ leftmost rightmost
    exact Factored.joined (.binary op) leftmost spelled below rightmost
  case unary =>
    intro op token tokens operand spelled _ operated
    exact .operator (UnaryOp.ofKind?_eq_some.mpr spelled) operated
  case call =>
    intro opening closing first second callee arguments _ opens _ few closes called passed rest whole
      others
    rw [List.append_assoc, List.cons_append, List.append_assoc]
    rcases passed with ⟨rfl, rfl⟩ | passed
    · exact called _ whole (.empty opens closes others)
    · exact called _ whole (.given opens passed few closes others)
  case constant => exact fun stands => .constant (constant_iff.mp stands)
  case name => exact fun isName => .name isName
  case group => exact fun opens _ closes enclosed => .group opens enclosed closes
  case none => exact .inl ⟨rfl, rfl⟩
  case last => exact fun _ argument => .inr (.last argument)
  case more =>
    rintro tokens rest comma value second others _ separates _ argument (⟨_, ⟨⟩⟩ | passed)
    exact .inr (.next argument separates passed)

end Factored

/-! ## From the parser's form to the productions -/

theorem Expression.of_grammar {tokens : List Token} {value : Expr Unit}
    (derived : Grammar.Expression tokens value) : Expression .assignment tokens value := by
  have tightest : Connective.tightest = 6 := rfl
  refine @Grammar.Expression.rec
    (fun tokens value _ => Expression .assignment tokens value)
    (fun strength tokens value _ => ∀ tier : Tier, tier.rank = strength →
      strength ≤ Connective.tightest + 1 → Expression tier tokens value)
    (fun strength left tokens value _ => ∀ (tier : Tier) (first : List Token),
      tier.rank = strength → Expression tier first left → Expression tier (first ++ tokens) value)
    (fun tokens value _ => Expression .unary tokens value)
    (fun callee tokens value _ => ∀ first, Expression .call first callee →
      Expression .call (first ++ tokens) value)
    (fun tokens arguments _ => Arguments tokens arguments ∧ arguments ≠ [])
    (fun tokens value _ => Expression .primary tokens value)
    ?chain ?assign ?unary ?operands ?none ?next ?operator ?calls ?bare ?empty ?given ?last ?more
    ?constant ?name ?group tokens value derived
  case chain => exact fun _ chained => .tighter rfl (chained .logicOr rfl (by decide))
  case assign => exact fun isName isEquals _ assigned => .assign isName isEquals assigned
  case unary =>
    intro strength tokens value beyond _ operand tier rank within
    have unary : Tier.unary.rank = 7 := rfl
    obtain rfl : tier = .unary := Tier.rank_injective (by omega)
    exact operand
  case operands =>
    intro strength first rest left value within _ _ leftmost others tier rank _
    have primary : Tier.primary.rank = 9 := rfl
    obtain ⟨next, below⟩ := tier.exists_next (by omega)
    have deeper := Tier.next?_eq_some_iff.mp below
    exact others tier first rank (.tighter below (leftmost next (by omega) (by omega)))
  case none =>
    intro strength left tier first _ derived
    rwa [List.append_nil]
  case next =>
    intro strength left right value token connective operand rest denoted same _ _ chained others
      tier first rank derived
    rw [Connective.strength_eq_rank] at same
    obtain rfl := Tier.rank_injective (same.trans rank.symm)
    have bounds := connective.rank_tier_bounds
    have primary : Tier.primary.rank = 9 := rfl
    obtain ⟨next, below⟩ := connective.tier.exists_next (by omega)
    have deeper := Tier.next?_eq_some_iff.mp below
    have joined := Expression.joined connective derived (Connective.ofKind?_eq_some.mp denoted) below
      (chained next (by omega) (by omega))
    simpa using others _ _ rank joined
  case operator => exact fun denoted _ operated => .unary (UnaryOp.ofKind?_eq_some.mp denoted) operated
  case calls =>
    intro first rest callee value _ _ primary called
    exact .tighter rfl (called first (.tighter rfl primary))
  case bare =>
    intro callee first derived
    rwa [List.append_nil]
  case empty =>
    intro callee value opening closing rest opens closes _ others first derived
    have called := others _ (.call derived opens .none (Nat.zero_le _) closes)
    simpa using called
  case given =>
    intro callee value opening closing tokens rest arguments opens _ few closes _ passed others first
      derived
    have called := others _ (.call derived opens passed.1 few closes)
    simpa using called
  case last => exact fun _ argument => ⟨.last argument, List.cons_ne_nil _ _⟩
  case more =>
    rintro tokens rest comma value (_ | ⟨second, others⟩) _ separates _ argument ⟨passed, some⟩
    · exact absurd rfl some
    · exact ⟨.next argument separates passed, List.cons_ne_nil _ _⟩
  case constant => exact fun isConstant => .constant (constant_iff.mpr isConstant)
  case name => exact fun isName => .name isName
  case group => exact fun opens _ closes enclosed => .group opens enclosed closes

theorem expression_iff {tokens : List Token} {value : Expr Unit} :
    Expression .assignment tokens value ↔ Grammar.Expression tokens value :=
  ⟨Expression.factored, Expression.of_grammar⟩

/-! ## Statements -/

theorem exprStmt_iff {tokens : List Token} {stmt : Stmt Unit} :
    ExprStmt tokens stmt ↔ Grammar.ExpressionStatement tokens stmt := by
  constructor
  · rintro ⟨evaluated, ends⟩
    exact .intro (expression_iff.mp evaluated) ends
  · rintro ⟨evaluated, ends⟩
    exact .intro (expression_iff.mpr evaluated) ends

theorem optional_iff {tokens : List Token} {value : Option (Expr Unit)} :
    Optional tokens value ↔ Grammar.Optional tokens value := by
  constructor
  · rintro (_ | given)
    · exact .absent
    · exact .present (expression_iff.mp given)
  · rintro (_ | given)
    · exact .absent
    · exact .present (expression_iff.mpr given)

theorem varDecl_iff {tokens : List Token} {stmt : Stmt Unit} :
    VarDecl tokens stmt ↔ ∃ keyword rest, tokens = keyword :: rest ∧
      keyword.kind = .keyword .varWord ∧ Grammar.Variable rest stmt := by
  constructor
  · rintro (⟨isVar, isName, ends⟩ | ⟨isVar, isName, isEquals, assigned, ends⟩)
    · exact ⟨_, _, rfl, isVar, .bare isName ends⟩
    · exact ⟨_, _, rfl, isVar, .initialized isName isEquals (expression_iff.mp assigned) ends⟩
  · rintro ⟨keyword, rest, rfl, isVar, ⟨isName, ends⟩ | ⟨isName, isEquals, assigned, ends⟩⟩
    · exact .bare isVar isName ends
    · exact .initialized isVar isName isEquals (expression_iff.mpr assigned) ends

theorem initializer_iff {tokens : List Token} {initializer : Option (Stmt Unit)} :
    Initializer tokens initializer ↔ Grammar.Initializer tokens initializer := by
  constructor
  · rintro (ends | declared | evaluated)
    · exact .absent ends
    · obtain ⟨keyword, rest, rfl, isVar, declared⟩ := varDecl_iff.mp declared
      exact .declare isVar declared
    · exact .expression (exprStmt_iff.mp evaluated)
  · rintro (ends | ⟨isVar, declared⟩ | evaluated)
    · exact .absent ends
    · exact .declare (varDecl_iff.mpr ⟨_, _, rfl, isVar, declared⟩)
    · exact .expression (exprStmt_iff.mpr evaluated)

theorem desugars_iff {keyword : Token} {body stmt : Stmt Unit} {initializer : Option (Stmt Unit)}
    {test increment : Option (Expr Unit)} :
    Desugars keyword body initializer test increment stmt ↔
      stmt = .forLoop keyword initializer test increment body := by
  constructor
  · intro desugars
    induction desugars with
    | endless _ ih => exact ih
    | loop | stepped | started | startedStepped => rfl
  · rintro rfl
    have tested : ∀ condition, Desugars keyword body initializer (some condition) increment
        (.forLoop keyword initializer (some condition) increment body) := by
      intro condition
      cases initializer <;> cases increment
      · exact .loop
      · exact .stepped
      · exact .started
      · exact .startedStepped
    cases test with
    | none => exact .endless (tested _)
    | some condition => exact tested condition

theorem Parameters.factored {tokens parameters : List Token}
    (named : Parameters tokens parameters) :
    tokens = [] ∧ parameters = [] ∨ Grammar.Parameters tokens parameters := by
  induction named with
  | none => exact .inl ⟨rfl, rfl⟩
  | last isName => exact .inr (.last isName)
  | next isName separates _ ih =>
      rcases ih with ⟨_, ⟨⟩⟩ | named
      exact .inr (.next isName separates named)

theorem Parameters.of_grammar {tokens parameters : List Token}
    (named : Grammar.Parameters tokens parameters) : Parameters tokens parameters := by
  induction named with
  | last isName => exact .last isName
  | next isName separates named ih =>
      cases named with
      | last => exact .next isName separates ih
      | next => exact .next isName separates ih

theorem parameters_iff {tokens parameters : List Token} :
    Parameters tokens parameters ∧ parameters.length ≤ 255 ↔
      Grammar.OptionalParameters tokens parameters := by
  constructor
  · rintro ⟨named, few⟩
    rcases named.factored with ⟨rfl, rfl⟩ | named
    · exact .absent
    · exact .present named few
  · rintro (_ | ⟨named, few⟩)
    · exact ⟨.none, Nat.zero_le _⟩
    · exact ⟨.of_grammar named, few⟩

theorem Program.declarations {tokens : List Token} {stmts : List (Stmt Unit)}
    (derived : Program tokens stmts) : Grammar.Declarations tokens stmts := by
  refine @Program.rec (fun tokens stmt _ => Grammar.Declaration tokens stmt)
    (fun dangling tokens stmt _ => Grammar.Statement dangling tokens stmt)
    (fun tokens stmts _ => Grammar.Declarations tokens stmts)
    ?funDecl ?varDecl ?statement ?forStmt ?ifThen ?ifElse ?printStmt ?returnStmt ?whileStmt ?block
    ?exprStmt ?nil ?cons tokens stmts derived
  case funDecl =>
    intro keyword name opening closing brace last tokens body parameters stmts isFun isName opens
      named few closes starts _ ends declared
    exact .function isFun isName opens (parameters_iff.mp ⟨named, few⟩) closes starts declared ends
  case varDecl =>
    intro tokens stmt declared
    obtain ⟨keyword, rest, rfl, isVar, declared⟩ := varDecl_iff.mp declared
    exact .declare isVar declared
  case statement => exact fun _ stated => .statement stated
  case forStmt =>
    intro dangling keyword opening semicolon closing start condition step branch initializer test
      increment body stmt isFor opens initialized tested ends stepped closes _ desugars stated
    rw [desugars_iff.mp desugars]
    exact .forLoop isFor opens (initializer_iff.mp initialized) (optional_iff.mp tested) ends
      (optional_iff.mp stepped) closes stated
  case ifThen =>
    exact fun isIf opens tested closes _ stated =>
      .ifThen isIf opens (expression_iff.mp tested) closes stated
  case ifElse =>
    exact fun isIf opens tested closes _ isElse _ stated otherwise =>
      .ifElse isIf opens (expression_iff.mp tested) closes stated isElse otherwise
  case printStmt => exact fun isPrint printed ends => .print isPrint (expression_iff.mp printed) ends
  case returnStmt => exact fun isReturn given ends => .giveBack isReturn (optional_iff.mp given) ends
  case whileStmt =>
    exact fun isWhile opens tested closes _ stated =>
      .whileLoop isWhile opens (expression_iff.mp tested) closes stated
  case block => exact fun starts _ ends declared => .block starts declared ends
  case exprStmt => exact fun evaluated => .expression (exprStmt_iff.mp evaluated)
  case nil => exact .nil
  case cons => exact fun _ _ declared others => .cons declared others

theorem Program.of_declarations {tokens : List Token} {stmts : List (Stmt Unit)}
    (derived : Grammar.Declarations tokens stmts) : Program tokens stmts := by
  refine @Grammar.Declarations.rec (fun tokens stmt _ => Declaration tokens stmt)
    (fun isOpen tokens stmt _ => Statement isOpen tokens stmt)
    (fun tokens stmts _ => Program tokens stmts)
    ?function ?declare ?statement ?expression ?print ?giveBack ?block ?ifThen ?ifElse ?whileLoop
    ?forLoop ?nil ?cons tokens stmts derived
  case function =>
    intro keyword name opening closing brace last tokens body parameters stmts isFun isName opens
      named closes starts _ ends declared
    obtain ⟨named, few⟩ := parameters_iff.mpr named
    exact .funDecl isFun isName opens named few closes starts declared ends
  case declare => exact fun isVar declared => .varDecl (varDecl_iff.mpr ⟨_, _, rfl, isVar, declared⟩)
  case statement => exact fun _ stated => .statement stated
  case expression => exact fun evaluated => .exprStmt (exprStmt_iff.mpr evaluated)
  case print => exact fun isPrint printed ends => .printStmt isPrint (expression_iff.mpr printed) ends
  case giveBack => exact fun isReturn given ends => .returnStmt isReturn (optional_iff.mpr given) ends
  case block => exact fun starts _ ends declared => .block starts declared ends
  case ifThen =>
    exact fun isIf opens tested closes _ stated =>
      .ifThen isIf opens (expression_iff.mpr tested) closes stated
  case ifElse =>
    exact fun isIf opens tested closes _ isElse _ stated otherwise =>
      .ifElse isIf opens (expression_iff.mpr tested) closes stated isElse otherwise
  case whileLoop =>
    exact fun isWhile opens tested closes _ stated =>
      .whileStmt isWhile opens (expression_iff.mpr tested) closes stated
  case forLoop =>
    intro isOpen keyword opening semicolon closing start condition step branch initializer test
      increment body isFor opens initialized tested ends stepped closes _ stated
    exact .forStmt isFor opens (initializer_iff.mpr initialized) (optional_iff.mpr tested) ends
      (optional_iff.mpr stepped) closes stated (desugars_iff.mpr rfl)
  case nil => exact .nil
  case cons => exact fun _ _ declared others => .cons declared others

theorem program_iff {tokens : List Token} {stmts : List (Stmt Unit)} :
    Program tokens stmts ↔ Grammar.Declarations tokens stmts :=
  ⟨Program.declarations, Program.of_declarations⟩

end Production

/--
Reading tokens up to the end marker gives some statements without a diagnostic exactly if the
productions derive these statements from the tokens. No program uses the words that are kept for
classes.
-/
theorem Cursor.program_reads_productions {words : List Token} {finish : Token}
    (inner : ∀ word ∈ words, word.kind ≠ .endOfFile) (isEnd : finish.kind = .endOfFile) :
    (∀ stmts, (Cursor.ofTokens? (words ++ [finish])).map Cursor.program =
        some { value := stmts, diagnostics := [] } ↔ Production.Program words stmts) ∧
      ∀ word ∈ words, word.kind ∈ [.keyword .classWord, .keyword .thisWord, .keyword .superWord,
          .symbol .dot] →
        ∀ stmts, (Cursor.ofTokens? (words ++ [finish])).map Cursor.program ≠
          some { value := stmts, diagnostics := [] } := by
  have exact : ∀ stmts, (Cursor.ofTokens? (words ++ [finish])).map Cursor.program =
      some { value := stmts, diagnostics := [] } ↔ Production.Program words stmts := by
    intro stmts
    rw [Cursor.ofTokens?_append isEnd inner, Option.map_some, Option.some_inj,
      Cursor.program_eq_iff, Production.program_iff]
  refine ⟨exact, fun word member isKept stmts read => ?_⟩
  have used := ((exact stmts).mp read).used word member
  simp only [List.mem_cons, List.not_mem_nil, or_false] at isKept
  rcases isKept with kept | kept | kept | kept <;> rw [kept] at used <;> cases used

/-- A word on the first line. -/
def Token.word (kind : TokenKind) (lexeme : Text) : Token where
  kind
  lexeme
  line := 1

/-- `if (a) if (b) x; else for (;;) y;`, where the `else` belongs to the second `if`. -/
def nearestIf : List Token :=
  [.word (.keyword .ifWord) "if", .word (.symbol .leftParen) "(", .word .identifier "a",
    .word (.symbol .rightParen) ")", .word (.keyword .ifWord) "if",
    .word (.symbol .leftParen) "(", .word .identifier "b", .word (.symbol .rightParen) ")",
    .word .identifier "x", .word (.symbol .semicolon) ";", .word (.keyword .elseWord) "else",
    .word (.keyword .forWord) "for", .word (.symbol .leftParen) "(",
    .word (.symbol .semicolon) ";", .word (.symbol .semicolon) ";",
    .word (.symbol .rightParen) ")", .word .identifier "y", .word (.symbol .semicolon) ";"]

/-- `class A` cannot start a program. -/
def classHead : List Token :=
  [.word (.keyword .classWord) "class", .word .identifier "A"]

theorem Cursor.nearestIf_reads_productions :
    Production.Program nearestIf
        [.ifThen (.word (.keyword .ifWord) "if") (.ident (.word .identifier "a") ())
          (.ifElse (.word (.keyword .ifWord) "if") (.ident (.word .identifier "b") ())
            (.expression (.word .identifier "x") (.ident (.word .identifier "x") ()))
            (.loop (.word (.keyword .forWord) "for")
              (.literal (.word (.keyword .forWord) "for") (.bool true))
              (.expression (.word .identifier "y") (.ident (.word .identifier "y") ()))))] ∧
      ∀ stmts, (Cursor.ofTokens? (classHead ++ [.word .endOfFile ""])).map Cursor.program ≠
        some { value := stmts, diagnostics := [] } := by
  constructor
  · have read := @Cursor.program_reads_productions nearestIf (.word .endOfFile "") (by decide) rfl
    exact (read.1 _).mp rfl
  · have read := @Cursor.program_reads_productions classHead (.word .endOfFile "") (by decide) rfl
    exact read.2 (.word (.keyword .classWord) "class") (by decide) (by decide)

end Loxley
