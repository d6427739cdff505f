import Loxley.Proofs.Datum.Separation
import Loxley.Proofs.Number.Shortest
import Loxley.Proofs.Outline
import Loxley.Proofs.Relexing

/-!
# Programs read off their outlines

An outline leaves out the lines of tokens and the tokens that are only punctuation or keywords. All
else of a tree is read off its outline, so programs that are shown alike differ in nothing else.
-/

set_option autoImplicit false

namespace Loxley

/-! ## What is shown of a tree -/

/-- A token without its line. -/
def Token.offLine (token : Token) : Token :=
  { token with line := 0 }

/-- Stands for a token that is not shown. -/
def Token.hidden : Token := { kind := .endOfFile, lexeme := [], line := 0 }

mutual

/-- An expression without lines and without tokens that are not shown. -/
def Expr.bare : Expr Unit → Expr Unit
  | .literal _ value => .literal .hidden value
  | .group _ inner => .group .hidden inner.bare
  | .unary op token operand => .unary op token.offLine operand.bare
  | .binary op token left right => .binary op token.offLine left.bare right.bare
  | .logical op token left right => .logical op token.offLine left.bare right.bare
  | .ident name reference => .ident name.offLine reference
  | .assign name reference value => .assign name.offLine reference value.bare
  | .call _ callee arguments => .call .hidden callee.bare (Expr.bares arguments)

def Expr.bares : List (Expr Unit) → List (Expr Unit)
  | [] => []
  | first :: rest => first.bare :: Expr.bares rest

end

mutual

/-- A statement without lines and without tokens that are not shown. -/
def Stmt.bare : Stmt Unit → Stmt Unit
  | .expression _ value => .expression .hidden value.bare
  | .print _ value => .print .hidden value.bare
  | .declare name initializer => .declare name.offLine (initializer.map Expr.bare)
  | .block _ body => .block .hidden (Stmt.bares body)
  | .ifThen _ test consequent => .ifThen .hidden test.bare consequent.bare
  | .ifElse _ test consequent alternative =>
    .ifElse .hidden test.bare consequent.bare alternative.bare
  | .loop _ test body => .loop .hidden test.bare body.bare
  | .function name parameters body =>
    .function name.offLine (parameters.map Token.offLine) (Stmt.bares body)
  | .giveBack _ value => .giveBack .hidden (value.map Expr.bare)

def Stmt.bares : List (Stmt Unit) → List (Stmt Unit)
  | [] => []
  | first :: rest => first.bare :: Stmt.bares rest

end

theorem Expr.bares_eq_map (exprs : List (Expr Unit)) : Expr.bares exprs = exprs.map Expr.bare := by
  induction exprs with
  | nil => rfl
  | cons first rest ih => rw [Expr.bares, ih, List.map_cons]

theorem Stmt.bares_eq_map (stmts : List (Stmt Unit)) : Stmt.bares stmts = stmts.map Stmt.bare := by
  induction stmts with
  | nil => rfl
  | cons first rest ih => rw [Stmt.bares, ih, List.map_cons]

/-! ## Reading a tree off its outline -/

/-- The headings of outlines. -/
inductive Heading where
  | number | string | group | unary | binary | logical | ident | assign | call
  | expression | print | declare | block | conditional | loop | function | giveBack

namespace Heading

@[reducible] def word : Heading → String
  | number => "number"
  | string => "string"
  | group => "group"
  | unary => "unary"
  | binary => "binary"
  | logical => "logical"
  | ident => "ident"
  | assign => "assign"
  | call => "call"
  | expression => "expr"
  | print => "print"
  | declare => "var"
  | block => "block"
  | conditional => "if"
  | loop => "while"
  | function => "fun"
  | giveBack => "return"

def all : List Heading :=
  [number, string, group, unary, binary, logical, ident, assign, call, expression, print, declare,
    block, conditional, loop, function, giveBack]

def ofText? (text : Text) : Option Heading :=
  all.find? fun heading => Text.ofString heading.word == text

theorem ofText?_word (heading : Heading) : ofText? heading.word = some heading := by
  cases heading <;> rfl

end Heading

/-- The token that an operator is written as. -/
def Token.ofOperator? (text : Text) : Option Token :=
  match Symbol.ofText? text, Keyword.ofText? text with
  | some symbol, _ => some { kind := .symbol symbol, lexeme := text, line := 0 }
  | none, some keyword => some { kind := .keyword keyword, lexeme := text, line := 0 }
  | none, none => none

def Token.ofName (text : Text) : Token := { kind := .identifier, lexeme := text, line := 0 }

namespace Datum

def constant? (text : Text) : Option Literal :=
  if text = "nil" then some .nil
  else if text = "true" then some (.bool true)
  else if text = "false" then some (.bool false)
  else none

mutual

/-- The bare expression that an outline shows, if it shows one. -/
def expr? : Datum → Option (Expr Unit)
  | symbol text => (constant? text).map (.literal .hidden)
  | list (symbol head :: items) =>
    match Heading.ofText? head, items with
    | some .number, [number text] =>
      (Decimal.ofNumeral text).toFloat?.map fun value => .literal .hidden (.number value)
    | some .string, [string text] => some (.literal .hidden (.string text))
    | some .group, [inner] => inner.expr?.map (.group .hidden)
    | some .unary, [string text, operand] => do
      let token ← Token.ofOperator? text
      let op ← UnaryOp.ofKind? token.kind
      some (.unary op token (← operand.expr?))
    | some .binary, [string text, left, right] | some .logical, [string text, left, right] => do
      let token ← Token.ofOperator? text
      let connective ← Connective.ofKind? token.kind
      some (.connect connective token (← left.expr?) (← right.expr?))
    | some .ident, [string name] => some (.ident (.ofName name) ())
    | some .assign, [string name, value] => value.expr?.map (.assign (.ofName name) ())
    | some .call, callee :: arguments => do
      some (.call .hidden (← callee.expr?) (← exprs? arguments))
    | _, _ => none
  | _ => none

def exprs? : List Datum → Option (List (Expr Unit))
  | [] => some []
  | first :: rest => do some ((← first.expr?) :: (← exprs? rest))

end

def name? : Datum → Option Token
  | string text => some (.ofName text)
  | _ => none

mutual

/-- The bare statement that an outline shows, if it shows one. -/
def stmt? : Datum → Option (Stmt Unit)
  | list (symbol head :: items) =>
    match Heading.ofText? head, items with
    | some .expression, [value] => value.expr?.map (.expression .hidden)
    | some .print, [value] => value.expr?.map (.print .hidden)
    | some .declare, [string name] => some (.declare (.ofName name) none)
    | some .declare, [string name, value] =>
      value.expr?.map fun initializer => .declare (.ofName name) (some initializer)
    | some .block, body => (stmts? body).map (.block .hidden)
    | some .conditional, [test, consequent] => do
      some (.ifThen .hidden (← test.expr?) (← consequent.stmt?))
    | some .conditional, [test, consequent, alternative] => do
      some (.ifElse .hidden (← test.expr?) (← consequent.stmt?) (← alternative.stmt?))
    | some .loop, [test, body] => do some (.loop .hidden (← test.expr?) (← body.stmt?))
    | some .function, string name :: list parameters :: body => do
      some (.function (.ofName name) (← parameters.mapM name?) (← stmts? body))
    | some .giveBack, [] => some (.giveBack .hidden none)
    | some .giveBack, [value] => value.expr?.map fun value => .giveBack .hidden (some value)
    | _, _ => none
  | _ => none

def stmts? : List Datum → Option (List (Stmt Unit))
  | [] => some []
  | first :: rest => do some ((← first.stmt?) :: (← stmts? rest))

end

end Datum

/-! ## Tokens read off their texts -/

namespace Token.Spelled

variable {token : Token} (spelled : token.Spelled)

include spelled

theorem ofOperator?
    (isFixed : (∃ symbol, token.kind = .symbol symbol) ∨ ∃ keyword, token.kind = .keyword keyword) :
    Token.ofOperator? token.lexeme = some token.offLine := by
  cases spelled with
  | @symbol symbol line => simp [Token.ofOperator?, symbol.ofText?_spelling, Token.offLine]
  | @keyword keyword line =>
      have noSymbol : Symbol.ofText? keyword.spelling = none := by cases keyword <;> rfl
      simp [Token.ofOperator?, noSymbol, keyword.ofText?_spelling, Token.offLine]
  | identifier | string | integer | decimal => simp at isFixed

theorem unaryOp {op : UnaryOp} (isOp : token.kind = op.kind) :
    Token.ofOperator? token.lexeme = some token.offLine ∧
      UnaryOp.ofKind? token.offLine.kind = some op := by
  refine ⟨spelled.ofOperator? ?_, UnaryOp.ofKind?_eq_some.mpr isOp⟩
  rw [isOp]
  cases op <;> simp [UnaryOp.kind]

theorem connective {connective : Connective} (isConnective : token.kind = connective.kind) :
    Token.ofOperator? token.lexeme = some token.offLine ∧
      Connective.ofKind? token.offLine.kind = some connective := by
  refine ⟨spelled.ofOperator? ?_, Connective.ofKind?_eq_some.mpr isConnective⟩
  rw [isConnective]
  cases connective with
  | binary op => cases op <;> simp [Connective.kind, BinaryOp.kind]
  | logical op => cases op <;> simp [Connective.kind, LogicalOp.kind]

theorem ofName (isName : token.kind = .identifier) :
    Token.ofName token.lexeme = token.offLine := by
  cases spelled with
  | identifier => rfl
  | symbol | keyword | string | integer | decimal => cases isName

end Token.Spelled

namespace Node

/-- The outline of a node can be decoded. -/
def Decodes : Node → Prop
  | expr value => value.outline.expr? = some value.bare
  | stmt value => value.outline.stmt? = some value.bare

theorem exprs?_outlines {exprs : List (Expr Unit)} (each : ∀ value ∈ exprs, (expr value).Decodes) :
    Datum.exprs? (Expr.outlines exprs) = some (Expr.bares exprs) := by
  induction exprs with
  | nil => rfl
  | cons first rest ih =>
      obtain ⟨here, others⟩ := List.forall_mem_cons.mp each
      rw [Decodes] at here
      simp [Expr.outlines, Expr.bares, Datum.exprs?, here, ih others]

theorem stmts?_outlines {stmts : List (Stmt Unit)} (each : ∀ value ∈ stmts, (stmt value).Decodes) :
    Datum.stmts? (Stmt.outlines stmts) = some (Stmt.bares stmts) := by
  induction stmts with
  | nil => rfl
  | cons first rest ih =>
      obtain ⟨here, others⟩ := List.forall_mem_cons.mp each
      rw [Decodes] at here
      simp [Stmt.outlines, Stmt.bares, Datum.stmts?, here, ih others]

theorem mapM_name? {parameters : List Token}
    (each : ∀ parameter ∈ parameters, parameter.kind = .identifier ∧ parameter.Spelled) :
    (parameters.map fun parameter => Datum.string parameter.lexeme).mapM Datum.name? =
      some (parameters.map Token.offLine) := by
  induction parameters with
  | nil => rfl
  | cons first rest ih =>
      obtain ⟨⟨isName, spelled⟩, others⟩ := List.forall_mem_cons.mp each
      simp [Datum.name?, spelled.ofName isName, ih others]

theorem decodes_literal {token : Token} {value : Literal} (genuine : value.Genuine Token.Spelled) :
    (expr (.literal token value)).Decodes := by
  have number : ∀ {pattern : Nat} {number : Float}, Number.ofMagnitude? pattern = some number →
      (expr (.literal token (.number number))).Decodes := by
    intro pattern number given
    obtain ⟨same, finite⟩ := Number.magnitude_of_ofMagnitude? given
    have reads := Number.toFloat?_display (by rwa [same]) (Number.isNegative_of_ofMagnitude? given)
    simp [Decodes, Expr.outline, Literal.outline, Datum.headed, Datum.expr?, Expr.bare,
      Heading.ofText?_word .number, reads]
  cases genuine with
  | nil => rfl
  | bool value => cases value <;> rfl
  | read spelled =>
      cases spelled with
      | symbol | keyword | identifier => rfl
      | string =>
          simp [Decodes, Expr.outline, Literal.outline, Datum.headed, Datum.expr?, Expr.bare,
            Heading.ofText?_word .string]
      | integer _ _ inRange => exact number inRange
      | decimal _ _ _ _ inRange => exact number inRange

theorem decodes_expr {value : Expr Unit} (genuine : (expr value).Genuine Token.Spelled)
    (below : ∀ child ∈ (expr value).children, child.Decodes) : (expr value).Decodes := by
  cases value with
  | literal token value => exact decodes_literal (genuine.literal value rfl)
  | group paren inner =>
      simp only [children, List.mem_singleton, forall_eq, Decodes] at below
      simp [Decodes, Expr.outline, Expr.bare, Datum.headed, Datum.expr?,
        Heading.ofText?_word .group, below]
  | unary op token operand =>
      obtain ⟨isOp, spelled⟩ := genuine.token (op.kind, token) List.mem_cons_self
      simp only [children, List.mem_singleton, forall_eq, Decodes] at below
      simp [Decodes, Expr.outline, Expr.bare, Datum.headed, Datum.expr?,
        Heading.ofText?_word .unary, below, spelled.unaryOp isOp]
  | binary op token left right =>
      obtain ⟨isOp, spelled⟩ := genuine.token (op.kind, token) List.mem_cons_self
      have read := @Token.Spelled.connective token spelled (.binary op) isOp
      simp only [children, List.forall_mem_cons, Decodes] at below
      simp [Decodes, Expr.outline, Expr.bare, Datum.headed, Datum.expr?, Expr.connect,
        Heading.ofText?_word .binary, below, read]
  | logical op token left right =>
      obtain ⟨isOp, spelled⟩ := genuine.token (op.kind, token) List.mem_cons_self
      have read := @Token.Spelled.connective token spelled (.logical op) isOp
      simp only [children, List.forall_mem_cons, Decodes] at below
      simp [Decodes, Expr.outline, Expr.bare, Datum.headed, Datum.expr?, Expr.connect,
        Heading.ofText?_word .logical, below, read]
  | ident name reference =>
      obtain ⟨isName, spelled⟩ := genuine.token (.identifier, name) List.mem_cons_self
      simp [Decodes, Expr.outline, Expr.bare, Datum.headed, Datum.expr?,
        Heading.ofText?_word .ident, spelled.ofName isName]
  | assign name reference value =>
      obtain ⟨isName, spelled⟩ := genuine.token (.identifier, name) List.mem_cons_self
      simp only [children, List.mem_singleton, forall_eq, Decodes] at below
      simp [Decodes, Expr.outline, Expr.bare, Datum.headed, Datum.expr?,
        Heading.ofText?_word .assign, below, spelled.ofName isName]
  | call paren callee arguments =>
      simp only [children, List.forall_mem_cons, List.forall_mem_map] at below
      obtain ⟨called, given⟩ := below
      rw [Decodes] at called
      simp [Decodes, Expr.outline, Expr.bare, Datum.headed, Datum.expr?,
        Heading.ofText?_word .call, called, exprs?_outlines given]

theorem decodes_stmt {value : Stmt Unit} (genuine : (stmt value).Genuine Token.Spelled)
    (below : ∀ child ∈ (stmt value).children, child.Decodes) : (stmt value).Decodes := by
  cases value with
  | expression token value =>
      simp only [children, List.mem_singleton, forall_eq, Decodes] at below
      simp [Decodes, Stmt.outline, Stmt.bare, Datum.headed, Datum.stmt?,
        Heading.ofText?_word .expression, below]
  | print keyword value =>
      simp only [children, List.mem_singleton, forall_eq, Decodes] at below
      simp [Decodes, Stmt.outline, Stmt.bare, Datum.headed, Datum.stmt?,
        Heading.ofText?_word .print, below]
  | declare name initializer =>
      obtain ⟨isName, spelled⟩ := genuine.token (.identifier, name) List.mem_cons_self
      cases initializer with
      | none =>
          simp [Decodes, Stmt.outline, Stmt.bare, Datum.headed, Datum.stmt?,
            Heading.ofText?_word .declare, spelled.ofName isName]
      | some value =>
          have initialized := below (expr value) (by simp [children])
          rw [Decodes] at initialized
          simp [Decodes, Stmt.outline, Stmt.bare, Datum.headed, Datum.stmt?,
            Heading.ofText?_word .declare, spelled.ofName isName, initialized]
  | block brace body =>
      simp only [children, List.forall_mem_map] at below
      simp [Decodes, Stmt.outline, Stmt.bare, Datum.headed, Datum.stmt?,
        Heading.ofText?_word .block, stmts?_outlines below]
  | ifThen keyword test consequent =>
      simp only [children, List.forall_mem_cons, Decodes] at below
      simp [Decodes, Stmt.outline, Stmt.bare, Datum.headed, Datum.stmt?,
        Heading.ofText?_word .conditional, below]
  | ifElse keyword test consequent alternative =>
      simp only [children, List.forall_mem_cons, Decodes] at below
      simp [Decodes, Stmt.outline, Stmt.bare, Datum.headed, Datum.stmt?,
        Heading.ofText?_word .conditional, below]
  | loop keyword test body =>
      simp only [children, List.forall_mem_cons, Decodes] at below
      simp [Decodes, Stmt.outline, Stmt.bare, Datum.headed, Datum.stmt?,
        Heading.ofText?_word .loop, below]
  | function name parameters body =>
      obtain ⟨isName, spelled⟩ := genuine.token (.identifier, name) List.mem_cons_self
      have named := @mapM_name? parameters fun parameter member =>
        genuine.token (.identifier, parameter) (by simp [shown, member])
      simp only [children, List.forall_mem_map] at below
      simp [Decodes, Stmt.outline, Stmt.bare, Datum.headed, Datum.stmt?,
        Heading.ofText?_word .function, spelled.ofName isName, named, stmts?_outlines below]
  | giveBack keyword value =>
      cases value with
      | none =>
          simp [Decodes, Stmt.outline, Stmt.bare, Datum.headed, Datum.stmt?,
            Heading.ofText?_word .giveBack]
      | some value =>
          have returned := below (expr value) (by simp [children])
          rw [Decodes] at returned
          simp [Decodes, Stmt.outline, Stmt.bare, Datum.headed, Datum.stmt?,
            Heading.ofText?_word .giveBack, returned]

theorem decodes {node : Node} (genuine : node.Every (Genuine Token.Spelled)) : node.Decodes := by
  induction node using Node.induction with
  | step node ih =>
      obtain ⟨here, each⟩ := every_iff.mp genuine
      have below : ∀ child ∈ node.children, child.Decodes := fun child isChild =>
        ih child isChild (each child isChild)
      cases node with
      | expr value => exact decodes_expr here below
      | stmt value => exact decodes_stmt here below

/-- A node without lines and without tokens that are not shown. -/
def bare : Node → Node
  | expr value => expr value.bare
  | stmt value => stmt value.bare

theorem label_bare (node : Node) : node.bare.label = node.label := by
  cases node with
  | expr value => cases value <;> rfl
  | stmt value =>
      cases value with
      | function name parameters body =>
          simp [bare, Stmt.bare, label, Token.offLine, Function.comp_def]
      | expression | print | declare | block | ifThen | ifElse | loop | giveBack => rfl

theorem children_bare (node : Node) : node.bare.children = node.children.map bare := by
  cases node with
  | expr value =>
      cases value with
      | call paren callee arguments =>
          simp [bare, Expr.bare, children, Expr.bares_eq_map, Function.comp_def]
      | literal | group | unary | binary | logical | ident | assign => rfl
  | stmt value =>
      cases value with
      | block _ body | function _ _ body =>
          simp [bare, Stmt.bare, children, Stmt.bares_eq_map, Function.comp_def]
      | declare _ value | giveBack _ value => cases value <;> rfl
      | expression | print | ifThen | ifElse | loop => rfl

/-- Nothing that is shown is left out. -/
theorem outline_bare (node : Node) : node.bare.outline = node.outline := by
  induction node using Node.induction with
  | step node ih =>
      by_cases literal : ∃ token value, node = .expr (.literal token value)
      · obtain ⟨token, value, rfl⟩ := literal
        rfl
      · have notLiteral : ∀ token value, node ≠ .expr (.literal token value) :=
          fun token value same => literal ⟨token, value, same⟩
        have bareNotLiteral : ∀ token value, node.bare ≠ .expr (.literal token value) := by
          intro token value same
          cases node with
          | expr inner =>
              cases inner with
              | literal token value => exact notLiteral token value rfl
              | group | unary | binary | logical | ident | assign | call => cases same
          | stmt inner => cases same
        have below : (node.children.map bare).map outline = node.children.map outline := by
          rw [List.map_map]
          exact List.map_congr_left ih
        rw [outline_eq_list notLiteral, outline_eq_list bareNotLiteral, label_bare, children_bare,
          below]

end Node

/-! ## Programs -/

section Parsing

variable {source other : Text} {program others : List (Stmt Unit)}
  (parsed : (Cursor.ofTokens? (Scan.ofSource source).tokens).map Cursor.program =
    some { value := program, diagnostics := [] })

include parsed

omit parsed in
theorem Cursor.rest_of_ofTokens? {tokens : List Token} {cursor : Cursor}
    (found : Cursor.ofTokens? tokens = some cursor) :
    cursor.rest = tokens.takeWhile (·.kind != .endOfFile) := by
  unfold Cursor.ofTokens? at found
  split at found
  · split at found
    · cases found
      rfl
    · cases found
  · cases found

theorem Source.every_genuine {given : Token → Prop}
    (each : ∀ token ∈ (Scan.ofSource source).tokens, token.kind ≠ .endOfFile → given token) :
    ∀ stmt ∈ program, (Node.stmt stmt).Every (Node.Genuine given) := by
  obtain ⟨cursor, found, read⟩ := Option.map_eq_some_iff.mp parsed
  have derived := Production.program_iff.mpr ((Cursor.program_eq_iff cursor program).mp read)
  refine derived.genuine fun token member => ?_
  rw [Cursor.rest_of_ofTokens? found] at member
  exact each token ((List.takeWhile_sublist _).subset member)
    (by simpa using List.mem_takeWhile_imp member)

theorem Source.legible_outlines :
    ∀ datum ∈ program.map Stmt.outline, datum.Legible := by
  intro datum member
  obtain ⟨stmt, isStmt, rfl⟩ := List.mem_map.mp member
  have genuine := Source.every_genuine parsed
    (fun token scanned _ => Scan.lexed_of_mem (fun _ _ => Segment.zero_not_mem_lexeme) scanned) stmt
    isStmt
  exact Node.legible_outline (genuine.imp fun _ => Node.Genuine.readable)

theorem Source.decodes_outlines :
    (program.map Stmt.outline).map Datum.stmt? = (program.map Stmt.bare).map some := by
  rw [List.map_map, List.map_map]
  refine List.map_congr_left fun stmt member => ?_
  exact Node.decodes (Source.every_genuine parsed
    ((Segment.splits_ofText source).spelled 1) stmt member)

/--
Two programs of sources are shown by the same text exactly if they differ only in the lines of their
tokens and in tokens that are not shown.
-/
theorem Stmt.programText_determines_program
    (parsedToo : (Cursor.ofTokens? (Scan.ofSource other).tokens).map Cursor.program =
      some { value := others, diagnostics := [] }) :
    Stmt.programText program = Stmt.programText others ↔
      program.map Stmt.bare = others.map Stmt.bare := by
  have shown : ∀ stmts : List (Stmt Unit), Stmt.programText stmts =
      Text.join [Text.newline] ((stmts.map Stmt.outline).map Datum.render) := by
    intro stmts
    rw [List.map_map]
    rfl
  constructor
  · intro same
    -- The text tells the outlines apart, and these tell the trees apart.
    rw [shown, shown] at same
    have sameOutlines := Datum.join_render_inj (by decide) (Source.legible_outlines parsed)
      (Source.legible_outlines parsedToo) same
    have sameTrees := Source.decodes_outlines parsed
    rw [sameOutlines, Source.decodes_outlines parsedToo] at sameTrees
    exact (List.map_injective_iff.mpr (Option.some_injective _) sameTrees).symm
  · intro same
    have outlines : ∀ stmts : List (Stmt Unit),
        (stmts.map Stmt.bare).map Stmt.outline = stmts.map Stmt.outline := by
      intro stmts
      rw [List.map_map]
      exact List.map_congr_left fun stmt _ => (Node.stmt stmt).outline_bare
    rw [shown, shown, ← outlines program, ← outlines others, same]

end Parsing

theorem Source.parsed_of_program {source : Text} {program : List (Stmt Unit)}
    (parsed : Source.program source = { diagnostics := [], result := .ok program }) :
    (Cursor.ofTokens? (Scan.ofSource source).tokens).map Cursor.program =
      some { value := program, diagnostics := [] } := by
  obtain ⟨cursor, found, rfl, clean⟩ := Scan.parse_eq_ok parsed
  obtain ⟨_, parseClean⟩ := List.append_eq_nil_iff.mp clean.symm
  rw [found, Option.map_some, ← parseClean]

/-- A loop without increment, whose numeral has a superfluous zero. -/
def sparseLoop : Text :=
  "for (; a < 0.10;)\n  a = \"\x00\n\\\";"

def plainLoop : Text :=
  "while (a < 0.1) a = \"\x00\n\\\";"

/-- The only line of the text of both loops. -/
def loopLine : Text :=
  ("(while (binary \"<\" (ident \"a\") (number 0.1))" : Text) ++
    (" (expr (assign \"a\" (string \"\x00\\n\\\\\"))))" : Text)

theorem loops_determined :
    ∃ program others,
      (Cursor.ofTokens? (Scan.ofSource sparseLoop).tokens).map Cursor.program =
        some { value := program, diagnostics := [] } ∧
      (Cursor.ofTokens? (Scan.ofSource plainLoop).tokens).map Cursor.program =
        some { value := others, diagnostics := [] } ∧
      Stmt.programText program = loopLine ∧ Stmt.programText others = loopLine ∧
      program.map Stmt.bare = others.map Stmt.bare := by
  have parses : ∀ source ∈ [sparseLoop, plainLoop], (Source.program source).passes
      (fun program => Stmt.programText program == loopLine) = true := by decide +kernel
  obtain ⟨program, parsed, shown⟩ := SourceParse.passes_iff.mp (parses sparseLoop (by simp))
  obtain ⟨others, parsedToo, shownToo⟩ := SourceParse.passes_iff.mp (parses plainLoop (by simp))
  have shown := eq_of_beq shown
  have shownToo := eq_of_beq shownToo
  have parsed := Source.parsed_of_program parsed
  have parsedToo := Source.parsed_of_program parsedToo
  exact ⟨program, others, parsed, parsedToo, shown, shownToo,
    (Stmt.programText_determines_program parsed parsedToo).mp (shown.trans shownToo.symm)⟩

end Loxley
