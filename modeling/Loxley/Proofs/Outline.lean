import Loxley.Program.Outline
import Loxley.Proofs.Lexemes
import Loxley.Proofs.Production.Agreement

/-!
# Outlines read back

The outline of a tree that the parser makes is shown as text that reads as that outline again. Only
a string literal with a zero byte gets in the way.
-/

set_option autoImplicit false

namespace Loxley

/-- An expression or a statement of a tree. -/
inductive Node where
  | expr (value : Expr Unit)
  | stmt (value : Stmt Unit)

namespace Node

def outline : Node → Datum
  | expr value => value.outline
  | stmt value => value.outline

/-- The nodes right below a node, in order. -/
def children : Node → List Node
  | expr (.literal _ _) | expr (.ident _ _) => []
  | expr (.group _ inner) => [expr inner]
  | expr (.unary _ _ operand) => [expr operand]
  | expr (.binary _ _ left right) | expr (.logical _ _ left right) => [expr left, expr right]
  | expr (.assign _ _ value) => [expr value]
  | expr (.call _ callee arguments) => expr callee :: arguments.map expr
  | stmt (.expression _ value) | stmt (.print _ value) => [expr value]
  | stmt (.declare _ value) | stmt (.giveBack _ value) => value.toList.map expr
  | stmt (.block _ body) | stmt (.function _ _ body) => body.map stmt
  | stmt (.ifThen _ test consequent) => [expr test, stmt consequent]
  | stmt (.ifElse _ test consequent alternative) => [expr test, stmt consequent, stmt alternative]
  | stmt (.loop _ test body) => [expr test, stmt body]

/-- What a node other than a literal shows before its children: its kind, its operator or names. -/
def label : Node → List Datum
  | expr (.literal _ _) => []
  | expr (.group _ _) => [.symbol "group"]
  | expr (.unary _ token _) => [.symbol "unary", .string token.lexeme]
  | expr (.binary _ token _ _) => [.symbol "binary", .string token.lexeme]
  | expr (.logical _ token _ _) => [.symbol "logical", .string token.lexeme]
  | expr (.ident name _) => [.symbol "ident", .string name.lexeme]
  | expr (.assign name _ _) => [.symbol "assign", .string name.lexeme]
  | expr (.call _ _ _) => [.symbol "call"]
  | stmt (.expression _ _) => [.symbol "expr"]
  | stmt (.print _ _) => [.symbol "print"]
  | stmt (.declare name _) => [.symbol "var", .string name.lexeme]
  | stmt (.block _ _) => [.symbol "block"]
  | stmt (.ifThen _ _ _) | stmt (.ifElse _ _ _ _) => [.symbol "if"]
  | stmt (.loop _ _ _) => [.symbol "while"]
  | stmt (.function name parameters _) =>
    [.symbol "fun", .string name.lexeme,
      .list (parameters.map fun parameter => .string parameter.lexeme)]
  | stmt (.giveBack _ _) => [.symbol "return"]

/-- One node is another one or stands somewhere below it. -/
inductive Within (node : Node) : Node → Prop
  | here : Within node node
  | deeper {child parent : Node} (isChild : child ∈ parent.children) (inside : Within node child) :
      Within node parent

/-- A property of all nodes of a tree. -/
def Every (holds : Node → Prop) (node : Node) : Prop :=
  ∀ inner : Node, inner.Within node → holds inner

theorem every_iff {holds : Node → Prop} {node : Node} :
    node.Every holds ↔ holds node ∧ ∀ child ∈ node.children, child.Every holds := by
  constructor
  · intro all
    exact ⟨all node .here, fun child isChild inner inside => all inner (.deeper isChild inside)⟩
  · intro all inner inside
    obtain ⟨holdsHere, each⟩ := all
    cases inside with
    | here => exact holdsHere
    | deeper isChild inside => exact each _ isChild inner inside

theorem Every.imp {holds holdsToo : Node → Prop} (weaker : ∀ node, holds node → holdsToo node)
    {node : Node} (all : node.Every holds) : node.Every holdsToo :=
  fun inner inside => weaker inner (all inner inside)

theorem Every.within {holds : Node → Prop} {node inner : Node} (all : node.Every holds)
    (inside : inner.Within node) : inner.Every holds := by
  induction inside with
  | here => exact all
  | deeper isChild _ ih => exact ih ((every_iff.mp all).2 _ isChild)

end Node

mutual

theorem Expr.node_induction {motive : Node → Prop}
    (step : ∀ node, (∀ child ∈ node.children, motive child) → motive node) (expr : Expr Unit) :
    motive (.expr expr) := by
  apply step
  cases expr with
  | literal | ident => simp [Node.children]
  | group _ inner => simpa [Node.children] using Expr.node_induction step inner
  | unary _ _ operand => simpa [Node.children] using Expr.node_induction step operand
  | binary _ _ left right | logical _ _ left right =>
      simpa [Node.children] using
        ⟨Expr.node_induction step left, Expr.node_induction step right⟩
  | assign _ _ value => simpa [Node.children] using Expr.node_induction step value
  | call _ callee arguments =>
      simpa [Node.children] using
        ⟨Expr.node_induction step callee, Expr.nodes_induction step arguments⟩

theorem Expr.nodes_induction {motive : Node → Prop}
    (step : ∀ node, (∀ child ∈ node.children, motive child) → motive node)
    (exprs : List (Expr Unit)) : ∀ expr ∈ exprs, motive (.expr expr) := by
  cases exprs with
  | nil => simp
  | cons first rest =>
      simpa using ⟨Expr.node_induction step first, Expr.nodes_induction step rest⟩

end

mutual

theorem Stmt.node_induction {motive : Node → Prop}
    (step : ∀ node, (∀ child ∈ node.children, motive child) → motive node) (stmt : Stmt Unit) :
    motive (.stmt stmt) := by
  have exprs := Expr.node_induction step
  apply step
  cases stmt with
  | expression | print => simpa [Node.children] using exprs _
  | declare _ value | giveBack _ value =>
      cases value <;> simp [Node.children, exprs]
  | block _ body | function _ _ body =>
      simpa [Node.children] using Stmt.nodes_induction step body
  | ifThen _ _ consequent =>
      simpa [Node.children, exprs] using Stmt.node_induction step consequent
  | ifElse _ _ consequent alternative =>
      simpa [Node.children, exprs] using
        ⟨Stmt.node_induction step consequent, Stmt.node_induction step alternative⟩
  | loop _ _ body => simpa [Node.children, exprs] using Stmt.node_induction step body

theorem Stmt.nodes_induction {motive : Node → Prop}
    (step : ∀ node, (∀ child ∈ node.children, motive child) → motive node)
    (stmts : List (Stmt Unit)) : ∀ stmt ∈ stmts, motive (.stmt stmt) := by
  cases stmts with
  | nil => simp
  | cons first rest =>
      simpa using ⟨Stmt.node_induction step first, Stmt.nodes_induction step rest⟩

end

/-- What holds of a node whenever it holds of its children holds of every node. -/
theorem Node.induction {motive : Node → Prop}
    (step : ∀ node, (∀ child ∈ node.children, motive child) → motive node) (node : Node) :
    motive node := by
  cases node with
  | expr value => exact value.node_induction step
  | stmt value => exact value.node_induction step

theorem Expr.outlines_eq_map (exprs : List (Expr Unit)) :
    Expr.outlines exprs = exprs.map Expr.outline := by
  induction exprs with
  | nil => rfl
  | cons first rest ih => simp [Expr.outlines, ih]

theorem Stmt.outlines_eq_map (stmts : List (Stmt Unit)) :
    Stmt.outlines stmts = stmts.map Stmt.outline := by
  induction stmts with
  | nil => rfl
  | cons first rest ih => simp [Stmt.outlines, ih]

/-! ## Legible outlines -/

/-- The outline of a node other than a literal lists the outlines of its children, in order. -/
theorem Node.outline_eq_list {node : Node}
    (notLiteral : ∀ token value, node ≠ .expr (.literal token value)) :
    node.outline = .list (node.label ++ node.children.map outline) := by
  cases node with
  | expr value =>
      cases value with
      | literal token value => exact absurd rfl (notLiteral token value)
      | call _ callee arguments =>
          simp [outline, Expr.outline, label, children, Datum.headed, Expr.outlines_eq_map,
            Function.comp_def]
      | group | unary | binary | logical | ident | assign => rfl
  | stmt value =>
      cases value with
      | block _ body | function _ _ body =>
          simp [outline, Stmt.outline, label, children, Datum.headed, Stmt.outlines_eq_map,
            Function.comp_def]
      | declare _ value | giveBack _ value => cases value <;> rfl
      | expression | print | ifThen | ifElse | loop => rfl

theorem Node.legible_label (node : Node) : ∀ item ∈ node.label, item.Legible := by
  have symbols : ∀ head ∈ ["group", "unary", "binary", "logical", "ident", "assign", "call", "expr",
      "print", "var", "block", "if", "while", "fun", "return"],
      Datum.SymbolText (Text.ofString head) := by decide +kernel
  simp only [List.forall_mem_cons] at symbols
  cases node with
  | expr value => cases value <;> simp [label, symbols]
  | stmt value => cases value <;> simp [label, symbols]

theorem Literal.legible_outline {value : Literal} (finite : value.Finite) :
    value.outline.Legible := by
  have symbols : ∀ head ∈ ["nil", "true", "false", "number", "string"],
      Datum.SymbolText (Text.ofString head) := by decide +kernel
  simp only [List.forall_mem_cons] at symbols
  cases value with
  | nil => simp [Literal.outline, symbols]
  | bool value => cases value <;> simp [Literal.outline, Literal.boolText, symbols]
  | number value =>
      have legible := Datum.Legible.number (Number.numberText_display finite)
      simp [Literal.outline, Datum.headed, symbols, legible]
  | string value => simp [Literal.outline, Datum.headed, symbols]

theorem Literal.zeroFree_outline_iff {value : Literal} :
    value.outline.ZeroFree ↔ ∀ text, value = .string text → 0 ∉ text := by
  cases value <;> simp [Literal.outline, Datum.headed]

namespace Node

/-- A literal is a finite number or no number, and the names of a node have no zero byte. -/
structure Readable (node : Node) : Prop where
  finite : ∀ token value, node = .expr (.literal token value) → value.Finite
  zeroFree : ∀ item ∈ node.label, item.ZeroFree

theorem legible_outline {node : Node} (all : node.Every Readable) : node.outline.Legible := by
  induction node using Node.induction with
  | step node ih =>
      obtain ⟨readable, each⟩ := every_iff.mp all
      by_cases literal : ∃ token value, node = .expr (.literal token value)
      · obtain ⟨token, value, rfl⟩ := literal
        exact Literal.legible_outline (readable.finite token value rfl)
      · rw [outline_eq_list fun token value same => literal ⟨token, value, same⟩]
        refine .list fun item member => ?_
        rcases List.mem_append.mp member with shown | below
        · exact node.legible_label item shown
        · obtain ⟨child, isChild, rfl⟩ := List.mem_map.mp below
          exact ih child isChild (each child isChild)

/-- A string literal stands somewhere in a tree. -/
def HasString (node : Node) (text : Text) : Prop :=
  ∃ token, (Node.expr (.literal token (.string text))).Within node

theorem hasString_literal_iff {token : Token} {value : Literal} {text : Text} :
    (Node.expr (.literal token value)).HasString text ↔ value = .string text := by
  constructor
  · intro hasString
    obtain ⟨blamed, inside⟩ := hasString
    cases inside with
    | here => rfl
    | deeper isChild _ => cases isChild
  · intro isString
    rw [isString]
    exact ⟨token, .here⟩

theorem hasString_iff_child {node : Node} {text : Text}
    (notLiteral : ∀ token value, node ≠ .expr (.literal token value)) :
    node.HasString text ↔ ∃ child ∈ node.children, child.HasString text := by
  constructor
  · intro hasString
    obtain ⟨token, inside⟩ := hasString
    cases inside with
    | here => exact absurd rfl (notLiteral _ _)
    | deeper isChild inside => exact ⟨_, isChild, token, inside⟩
  · intro below
    obtain ⟨child, isChild, token, inside⟩ := below
    exact ⟨token, .deeper isChild inside⟩

theorem zeroFree_outline_iff {node : Node} (all : node.Every Readable) :
    node.outline.ZeroFree ↔ ∀ text, node.HasString text → 0 ∉ text := by
  induction node using Node.induction with
  | step node ih =>
      obtain ⟨readable, each⟩ := every_iff.mp all
      by_cases literal : ∃ token value, node = .expr (.literal token value)
      · obtain ⟨token, value, rfl⟩ := literal
        simp only [hasString_literal_iff]
        exact Literal.zeroFree_outline_iff
      · have notLiteral := fun token value same => literal ⟨token, value, same⟩
        rw [outline_eq_list notLiteral, Datum.zeroFree_list_iff, List.forall_mem_append,
          List.forall_mem_map]
        simp only [hasString_iff_child notLiteral]
        constructor
        · intro zeroFree text inside
          obtain ⟨child, isChild, hasString⟩ := inside
          have childZeroFree := zeroFree.2 child isChild
          exact (ih child isChild (each child isChild)).mp childZeroFree text hasString
        · intro noZero
          refine ⟨readable.zeroFree, fun child isChild => ?_⟩
          exact (ih child isChild (each child isChild)).mpr fun text hasString =>
            noZero text ⟨child, isChild, hasString⟩

end Node

/-! ## Trees of sources -/

/-- A literal that stands for a word, or that one of some given tokens has. -/
inductive Literal.Genuine (given : Token → Prop) : Literal → Prop
  | nil : Genuine given .nil
  | bool (value : Bool) : Genuine given (.bool value)
  | read {token : Token} (isGiven : given token) : Genuine given token.literal

namespace Node

/-- The tokens that a node shows, each with the kind that it is used as. -/
def shown : Node → List (TokenKind × Token)
  | expr (.unary op token _) => [(op.kind, token)]
  | expr (.binary op token _ _) => [(op.kind, token)]
  | expr (.logical op token _ _) => [(op.kind, token)]
  | expr (.ident name _) | expr (.assign name _ _) | stmt (.declare name _) => [(.identifier, name)]
  | stmt (.function name parameters _) =>
    (.identifier, name) :: parameters.map fun parameter => (.identifier, parameter)
  | _ => []

def literal? : Node → Option Literal
  | expr (.literal _ value) => some value
  | _ => none

/-- What a node shows comes from given tokens, which are of the kinds that they are used as. -/
structure Genuine (given : Token → Prop) (node : Node) : Prop where
  token : ∀ item ∈ node.shown, item.2.kind = item.1 ∧ given item.2
  literal : ∀ value ∈ node.literal?, value.Genuine given

theorem genuine_iff {given : Token → Prop} {node : Node} :
    node.Genuine given ↔ (∀ item ∈ node.shown, item.2.kind = item.1 ∧ given item.2) ∧
      ∀ value ∈ node.literal?, value.Genuine given := by
  constructor
  · intro genuine
    exact ⟨genuine.token, genuine.literal⟩
  · intro genuine
    exact ⟨genuine.1, genuine.2⟩

theorem shown_kind_ne_string (node : Node) : ∀ item ∈ node.shown, item.1 ≠ .string := by
  cases node with
  | expr value =>
      cases value with
      | unary op => cases op <;> simp [shown, UnaryOp.kind]
      | binary op => cases op <;> simp [shown, BinaryOp.kind]
      | logical op => cases op <;> simp [shown, LogicalOp.kind]
      | literal | group | ident | assign | call => simp [shown]
  | stmt value => cases value <;> simp [shown]

theorem Genuine.readable {node : Node} (genuine : node.Genuine Token.Lexed) : node.Readable where
  finite := fun token value same => by
    have literal := genuine.literal value (by rw [same]; rfl)
    cases literal with
    | nil | bool => trivial
    | read lexed => exact lexed.finite
  zeroFree := by
    have noZero : ∀ item ∈ node.shown, 0 ∉ item.2.lexeme := by
      intro item member
      obtain ⟨isKind, lexed⟩ := genuine.token item member
      exact lexed.zeroFree (isKind ▸ node.shown_kind_ne_string item member)
    cases node with
    | expr value => cases value <;> simp_all [label, shown]
    | stmt value => cases value <;> simp_all [label, shown]

end Node

namespace Production

variable {given : Token → Prop}

theorem Constant.genuine {token : Token} {value : Literal} (stands : Constant token value)
    (isGiven : given token) : value.Genuine given := by
  cases stands with
  | trueWord | falseWord => exact .bool _
  | nilWord => exact .nil
  | number | string => exact .read isGiven

theorem Expression.genuine {tier : Tier} {tokens : List Token} {value : Expr Unit}
    (derived : Expression tier tokens value) :
    (∀ token ∈ tokens, given token) → (Node.expr value).Every (Node.Genuine given) := by
  refine @Expression.rec
    (fun _ tokens value _ =>
      (∀ token ∈ tokens, given token) → (Node.expr value).Every (Node.Genuine given))
    (fun tokens values _ =>
      (∀ token ∈ tokens, given token) → ∀ value ∈ values, (Node.expr value).Every (Node.Genuine given))
    ?tighter ?assign ?logical ?binary ?unary ?call ?constant ?name ?group ?none ?last ?more
    tier tokens value derived
  case tighter => exact fun _ _ genuine => genuine
  case assign =>
    intro name equals tokens value isName isEquals _ ih each
    simp only [List.forall_mem_cons] at each
    rw [Node.every_iff, Node.genuine_iff]
    simp [Node.shown, Node.literal?, Node.children, isName, each.1, ih each.2.2]
  case logical =>
    intro op next token first second left right _ spelled _ _ ihLeft ihRight each
    simp only [List.forall_mem_append, List.forall_mem_cons] at each
    rw [Node.every_iff, Node.genuine_iff]
    simp [Node.shown, Node.literal?, Node.children, spelled, each.2.1, ihLeft each.1,
      ihRight each.2.2]
  case binary =>
    intro op next token first second left right _ spelled _ _ ihLeft ihRight each
    simp only [List.forall_mem_append, List.forall_mem_cons] at each
    rw [Node.every_iff, Node.genuine_iff]
    simp [Node.shown, Node.literal?, Node.children, spelled, each.2.1, ihLeft each.1,
      ihRight each.2.2]
  case unary =>
    intro op token tokens operand spelled _ ih each
    simp only [List.forall_mem_cons] at each
    rw [Node.every_iff, Node.genuine_iff]
    simp [Node.shown, Node.literal?, Node.children, spelled, each.1, ih each.2]
  case call =>
    intro opening closing first second callee arguments _ _ _ _ _ ihCallee ihArguments each
    simp only [List.forall_mem_append, List.forall_mem_cons] at each
    rw [Node.every_iff, Node.genuine_iff]
    simpa [Node.shown, Node.literal?, Node.children, ihCallee each.1] using ihArguments each.2.2.1
  case constant =>
    intro token value stands each
    simp only [List.forall_mem_cons] at each
    rw [Node.every_iff, Node.genuine_iff]
    simpa [Node.shown, Node.literal?, Node.children] using stands.genuine each.1
  case name =>
    intro token isName each
    simp only [List.forall_mem_cons] at each
    rw [Node.every_iff, Node.genuine_iff]
    simp [Node.shown, Node.literal?, Node.children, isName, each.1]
  case group =>
    intro opening closing tokens inner _ _ _ ih each
    simp only [List.forall_mem_append, List.forall_mem_cons] at each
    rw [Node.every_iff, Node.genuine_iff]
    simp [Node.shown, Node.literal?, Node.children, ih each.2.1]
  case none => simp
  case last =>
    intro tokens value _ ih each
    simpa using ih each
  case more =>
    intro tokens rest comma value second others _ _ _ ihFirst ihRest each
    simp only [List.forall_mem_append, List.forall_mem_cons] at each
    exact List.forall_mem_cons.mpr ⟨ihFirst each.1, ihRest each.2.2⟩

/-! The loop that a `for` loop stands for is made of nodes without names. -/

@[simp] theorem every_genuine_expression_iff {token : Token} {value : Expr Unit} :
    (Node.stmt (.expression token value)).Every (Node.Genuine given) ↔
      (Node.expr value).Every (Node.Genuine given) := by
  rw [Node.every_iff, Node.genuine_iff]
  simp [Node.shown, Node.literal?, Node.children]

@[simp] theorem every_genuine_block_iff {brace : Token} {body : List (Stmt Unit)} :
    (Node.stmt (.block brace body)).Every (Node.Genuine given) ↔
      ∀ stmt ∈ body, (Node.stmt stmt).Every (Node.Genuine given) := by
  rw [Node.every_iff, Node.genuine_iff]
  simp [Node.shown, Node.literal?, Node.children]

@[simp] theorem every_genuine_loop_iff {keyword : Token} {test : Expr Unit} {body : Stmt Unit} :
    (Node.stmt (.loop keyword test body)).Every (Node.Genuine given) ↔
      (Node.expr test).Every (Node.Genuine given) ∧
        (Node.stmt body).Every (Node.Genuine given) := by
  rw [Node.every_iff, Node.genuine_iff]
  simp [Node.shown, Node.literal?, Node.children]

theorem ExprStmt.genuine {tokens : List Token} {stmt : Stmt Unit} (derived : ExprStmt tokens stmt)
    (each : ∀ token ∈ tokens, given token) : (Node.stmt stmt).Every (Node.Genuine given) := by
  obtain ⟨evaluated, _⟩ := derived
  simp only [List.forall_mem_append] at each
  simpa using evaluated.genuine each.1

theorem VarDecl.genuine {tokens : List Token} {stmt : Stmt Unit} (derived : VarDecl tokens stmt)
    (each : ∀ token ∈ tokens, given token) : (Node.stmt stmt).Every (Node.Genuine given) := by
  cases derived with
  | bare _ isName _ =>
      simp only [List.forall_mem_cons] at each
      rw [Node.every_iff, Node.genuine_iff]
      simp [Node.shown, Node.literal?, Node.children, isName, each.2.1]
  | initialized _ isName _ assigned _ =>
      simp only [List.forall_mem_append, List.forall_mem_cons] at each
      have genuine := assigned.genuine each.2.2.2.1
      rw [Node.every_iff, Node.genuine_iff]
      simp [Node.shown, Node.literal?, Node.children, isName, each.2.1, genuine]

theorem Optional.genuine {tokens : List Token} {value : Option (Expr Unit)}
    (derived : Optional tokens value) (each : ∀ token ∈ tokens, given token) :
    ∀ expr ∈ value, (Node.expr expr).Every (Node.Genuine given) := by
  cases derived with
  | absent => simp
  | present stated => simpa using stated.genuine each

theorem Initializer.genuine {tokens : List Token} {initializer : Option (Stmt Unit)}
    (derived : Initializer tokens initializer) (each : ∀ token ∈ tokens, given token) :
    ∀ stmt ∈ initializer, (Node.stmt stmt).Every (Node.Genuine given) := by
  cases derived with
  | absent => simp
  | declare declared => simpa using declared.genuine each
  | expression evaluated => simpa using evaluated.genuine each

theorem Parameters.genuine {tokens parameters : List Token}
    (derived : Parameters tokens parameters) (each : ∀ token ∈ tokens, given token) :
    ∀ parameter ∈ parameters, parameter.kind = .identifier ∧ given parameter := by
  induction derived with
  | none => simp
  | last isName =>
      simp only [List.forall_mem_cons] at each
      simpa using ⟨isName, each.1⟩
  | next isName _ _ ih =>
      simp only [List.forall_mem_cons] at each
      exact List.forall_mem_cons.mpr ⟨⟨isName, each.1⟩, ih each.2.2⟩

theorem Desugars.genuine {keyword : Token} {body stmt : Stmt Unit}
    {initializer : Option (Stmt Unit)} {test increment : Option (Expr Unit)}
    (desugars : Desugars keyword body initializer test increment stmt)
    (genuine : (Node.stmt body).Every (Node.Genuine given))
    (first : ∀ stmt ∈ initializer, (Node.stmt stmt).Every (Node.Genuine given))
    (tested : ∀ expr ∈ test, (Node.expr expr).Every (Node.Genuine given))
    (stepped : ∀ expr ∈ increment, (Node.expr expr).Every (Node.Genuine given)) :
    (Node.stmt stmt).Every (Node.Genuine given) := by
  induction desugars with
  | endless _ ih =>
      refine ih first ?_ stepped
      intro expr same
      cases same
      rw [Node.every_iff, Node.genuine_iff]
      simpa [Node.shown, Node.literal?, Node.children] using .bool true
  | loop | stepped | started | startedStepped =>
      simp only [Option.mem_some_iff, forall_eq'] at first tested stepped
      simp [genuine, first, tested, stepped]

theorem Program.genuine {tokens : List Token} {stmts : List (Stmt Unit)}
    (derived : Program tokens stmts) :
    (∀ token ∈ tokens, given token) → ∀ stmt ∈ stmts, (Node.stmt stmt).Every (Node.Genuine given) := by
  refine @Program.rec
    (fun tokens stmt _ =>
      (∀ token ∈ tokens, given token) → (Node.stmt stmt).Every (Node.Genuine given))
    (fun _ tokens stmt _ =>
      (∀ token ∈ tokens, given token) → (Node.stmt stmt).Every (Node.Genuine given))
    (fun tokens stmts _ =>
      (∀ token ∈ tokens, given token) → ∀ stmt ∈ stmts, (Node.stmt stmt).Every (Node.Genuine given))
    ?funDecl ?varDecl ?statement ?forStmt ?ifThen ?ifElse ?printStmt ?returnStmt ?whileStmt ?block
    ?exprStmt ?nil ?cons tokens stmts derived
  case funDecl =>
    intro keyword name opening closing brace last tokens body parameters stmts _ isName _ named
      _ _ _ _ _ ih each
    simp only [List.forall_mem_append, List.forall_mem_cons] at each
    obtain ⟨_, givenName, _, givenParameters, _, _, givenBody, _⟩ := each
    rw [Node.every_iff, Node.genuine_iff]
    simpa [Node.shown, Node.literal?, Node.children, isName, givenName] using
      ⟨named.genuine givenParameters, ih givenBody⟩
  case varDecl => exact fun declared => declared.genuine
  case statement => exact fun _ ih => ih
  case forStmt =>
    intro dangling keyword opening semicolon closing start condition step branch initializer test
      increment body stmt _ _ initialized tested _ stepped _ _ desugars ih each
    simp only [List.forall_mem_append, List.forall_mem_cons] at each
    obtain ⟨_, _, givenStart, givenTest, _, givenStep, _, givenBody⟩ := each
    exact desugars.genuine (ih givenBody) (initialized.genuine givenStart)
      (tested.genuine givenTest) (stepped.genuine givenStep)
  case ifThen =>
    intro dangling keyword opening closing condition branch test consequent _ _ tested _ _ ih each
    simp only [List.forall_mem_append, List.forall_mem_cons] at each
    obtain ⟨_, _, givenTest, _, givenBranch⟩ := each
    rw [Node.every_iff, Node.genuine_iff]
    simp [Node.shown, Node.literal?, Node.children, tested.genuine givenTest, ih givenBranch]
  case ifElse =>
    intro dangling keyword opening closing other condition first second test consequent alternative
      _ _ tested _ _ _ _ ihFirst ihSecond each
    simp only [List.forall_mem_append, List.forall_mem_cons] at each
    obtain ⟨_, _, givenTest, _, givenFirst, _, givenSecond⟩ := each
    rw [Node.every_iff, Node.genuine_iff]
    simp [Node.shown, Node.literal?, Node.children, tested.genuine givenTest, ihFirst givenFirst,
      ihSecond givenSecond]
  case printStmt =>
    intro keyword semicolon tokens value _ printed _ each
    simp only [List.forall_mem_append, List.forall_mem_cons] at each
    rw [Node.every_iff, Node.genuine_iff]
    simp [Node.shown, Node.literal?, Node.children, printed.genuine each.2.1]
  case returnStmt =>
    intro keyword semicolon tokens value _ stated _ each
    simp only [List.forall_mem_append, List.forall_mem_cons] at each
    rw [Node.every_iff, Node.genuine_iff]
    simpa [Node.shown, Node.literal?, Node.children] using stated.genuine each.2.1
  case whileStmt =>
    intro dangling keyword opening closing condition branch test body _ _ tested _ _ ih each
    simp only [List.forall_mem_append, List.forall_mem_cons] at each
    obtain ⟨_, _, givenTest, _, givenBody⟩ := each
    simp [tested.genuine givenTest, ih givenBody]
  case block =>
    intro brace last tokens body _ _ _ ih each
    simp only [List.forall_mem_append, List.forall_mem_cons] at each
    simpa using ih each.2.1
  case exprStmt => exact fun evaluated => evaluated.genuine
  case nil => simp
  case cons =>
    intro first rest stmt stmts _ _ ihFirst ihRest each
    simp only [List.forall_mem_append] at each
    exact List.forall_mem_cons.mpr ⟨ihFirst each.1, ihRest each.2⟩

end Production

/-- A node of a tree that the parser makes of a source without diagnostics. -/
inductive Source.Produces (source : Text) : Node → Prop
  | program {program : List (Stmt Unit)} {stmt : Stmt Unit} {node : Node}
      (parsed : Source.program source = { diagnostics := [], result := .ok program })
      (member : stmt ∈ program) (inside : node.Within (.stmt stmt)) : Produces source node
  | expression {expr : Expr Unit} {node : Node}
      (parsed : Source.expression source = { diagnostics := [], result := .ok (some expr) })
      (inside : node.Within (.expr expr)) : Produces source node

theorem Source.Produces.readable {source : Text} {node : Node}
    (produced : Source.Produces source node) : node.Every Node.Readable := by
  cases produced with
  | program parsed member inside =>
      obtain ⟨words, isSource, derived⟩ := (Source.program_eq_iff _ _).mp parsed
      have all := (Production.program_iff.mpr derived).genuine isSource.lexed _ member
      exact (all.within inside).imp fun _ => Node.Genuine.readable
  | expression parsed inside =>
      obtain ⟨words, isSource, derived⟩ := (Source.expression_eq_iff _ _).mp parsed
      have all := (Production.expression_iff.mpr derived).genuine isSource.lexed
      exact (all.within inside).imp fun _ => Node.Genuine.readable

/--
The text of the outline of a node reads as that outline, if no string literal of the node has a zero
byte, and otherwise it does not read at all. Unless the node is a literal, the outline lists its label
and then the outlines of its children, in order.
-/
theorem Source.Produces.outline_reads_back {source : Text} {node : Node}
    (produced : Source.Produces source node) :
    (∀ datum, Datum.read node.outline.render = .ok datum ↔
      (∀ text, node.HasString text → 0 ∉ text) ∧ datum = node.outline) ∧
    ((∀ token value, node ≠ .expr (.literal token value)) →
      node.outline = .list (node.label ++ node.children.map Node.outline)) := by
  refine ⟨fun datum => ?_, Node.outline_eq_list⟩
  rw [(Node.legible_outline produced.readable).read_render_iff,
    Node.zeroFree_outline_iff produced.readable]

def SourceParse.passes {α : Type} (test : α → Bool) (parse : SourceParse α) : Bool :=
  parse.diagnostics.isEmpty && parse.result.toOption.any test

theorem SourceParse.passes_iff {α : Type} {test : α → Bool} {parse : SourceParse α} :
    parse.passes test = true ↔
      ∃ value, parse = { diagnostics := [], result := .ok value } ∧ test value = true := by
  obtain ⟨diagnostics, result⟩ := parse
  cases result <;> simp [SourceParse.passes, Except.toOption]

/-- A function with a string of a backslash and a newline. -/
def looping : Text := "fun f(a) \x7b while (!(a >= 1.5)) print \"\\\n\" + f(nil); \x7d"

def loopingOutline : Text :=
  ("(fun \"f\" (\"a\")" : Text) ++
    (" (while (unary \"!\" (group (binary \">=\" (ident \"a\") (number 1.5))))" : Text) ++
    (" (print (binary \"+\" (string \"\\\\\\n\") (call (ident \"f\") nil)))))" : Text)

theorem looping_outline_reads_back :
    ∃ program, Source.program looping = { diagnostics := [], result := .ok program } ∧
      ∃ stmt ∈ program, stmt.outline.render = loopingOutline ∧
        Datum.read loopingOutline = .ok stmt.outline ∧
        ∀ text, (Node.stmt stmt).HasString text → 0 ∉ text := by
  have parses : (Source.program looping).passes (fun program =>
      program.any fun stmt => stmt.outline.render == loopingOutline) = true := by
    decide +kernel
  have reads : (Datum.read loopingOutline).isOk = true := by decide +kernel
  obtain ⟨program, parsed, shown⟩ := SourceParse.passes_iff.mp parses
  obtain ⟨stmt, member, shown⟩ := List.any_eq_true.mp shown
  have shown := eq_of_beq shown
  have produced : Source.Produces looping (.stmt stmt) := .program parsed member .here
  cases read : Datum.read loopingOutline with
  | error problem =>
      rw [read] at reads
      cases reads
  | ok datum =>
      have readShown : Datum.read (Node.stmt stmt).outline.render = .ok datum := by
        rw [← read, ← shown]
        rfl
      obtain ⟨noZero, rfl⟩ := (produced.outline_reads_back.1 datum).mp readShown
      exact ⟨program, parsed, stmt, member, shown, rfl, noZero⟩

end Loxley
