import Loxley.Proofs.Scope

/-!
# Accepted code

Code of the form that the parser builds, in which scope analysis found no fault: every operator is
the one its token denotes, and a branch of a conditional or the body of a loop is never a bare
declaration. The parts of accepted code are accepted, each under the scopes in which the analysis
reaches it.
-/

set_option autoImplicit false

namespace Loxley

section Forms

variable {Reference : Type}

mutual

/-- Every operator of an expression is the one that its token denotes. -/
def Expr.WellFormed : Expr Reference → Prop
  | .literal _ _ => True
  | .group _ inner => inner.WellFormed
  | .unary op token operand => UnaryOp.ofKind? token.kind = some op ∧ operand.WellFormed
  | .binary op token left right =>
    Connective.ofKind? token.kind = some (.binary op) ∧ left.WellFormed ∧ right.WellFormed
  | .logical op token left right =>
    Connective.ofKind? token.kind = some (.logical op) ∧ left.WellFormed ∧ right.WellFormed
  | .ident _ _ => True
  | .assign _ _ value => value.WellFormed
  | .call _ callee arguments => callee.WellFormed ∧ Expr.WellFormedAll arguments

/-- All of some expressions are well-formed. -/
def Expr.WellFormedAll : List (Expr Reference) → Prop
  | [] => True
  | first :: rest => first.WellFormed ∧ Expr.WellFormedAll rest

end

/-- An expression that may be missing is well-formed if it is there. -/
def Expr.WellFormedOption : Option (Expr Reference) → Prop
  | none => True
  | some expr => expr.WellFormed

/-- A statement that declares a variable or a function in the scope around it. -/
def Stmt.isDeclaration : Stmt Reference → Bool
  | .declare _ _ | .function _ _ _ => true
  | _ => false

mutual

/-- Branches and loop bodies declare nothing themselves, and all expressions are well-formed. -/
def Stmt.WellFormed : Stmt Reference → Prop
  | .expression _ value | .print _ value => value.WellFormed
  | .declare _ initializer => Expr.WellFormedOption initializer
  | .block _ body => Stmt.WellFormedAll body
  | .ifThen _ test consequent =>
    test.WellFormed ∧ consequent.isDeclaration = false ∧ consequent.WellFormed
  | .ifElse _ test consequent alternative =>
    test.WellFormed ∧ (consequent.isDeclaration = false ∧ consequent.WellFormed) ∧
      alternative.isDeclaration = false ∧ alternative.WellFormed
  | .loop _ test body => test.WellFormed ∧ body.isDeclaration = false ∧ body.WellFormed
  | .function _ _ body => Stmt.WellFormedAll body
  | .giveBack _ value => Expr.WellFormedOption value

/-- All of some statements are well-formed. -/
def Stmt.WellFormedAll : List (Stmt Reference) → Prop
  | [] => True
  | first :: rest => first.WellFormed ∧ Stmt.WellFormedAll rest

end

/-- A well-formed statement that is no declaration. -/
def Stmt.Plain (stmt : Stmt Reference) : Prop :=
  stmt.isDeclaration = false ∧ stmt.WellFormed

end Forms

/-- A well-formed expression without faults under some scopes. -/
structure Expr.Accepted (scopes : Scopes) (expr : Expr Unit) : Prop where
  formed : expr.WellFormed
  faultless : expr.faults scopes = []

/-- Some well-formed expressions without faults under the same scopes. -/
structure Expr.AcceptedAll (scopes : Scopes) (exprs : List (Expr Unit)) : Prop where
  formed : Expr.WellFormedAll exprs
  faultless : Expr.faultsAll scopes exprs = []

/-- A well-formed statement without faults under some scopes. -/
structure Stmt.Accepted (inFunction : Bool) (scopes : Scopes) (stmt : Stmt Unit) : Prop where
  formed : stmt.WellFormed
  faultless : stmt.faults inFunction scopes = []

/-- Well-formed statements without faults, each under the scopes that those before it leave. -/
structure Stmt.AcceptedAll (inFunction : Bool) (scopes : Scopes) (stmts : List (Stmt Unit)) :
    Prop where
  formed : Stmt.WellFormedAll stmts
  faultless : Stmt.faultsAll inFunction scopes stmts = []

section Expressions

variable {scopes : Scopes}

theorem Expr.Accepted.of_group {paren : Token} {inner : Expr Unit}
    (accepted : (Expr.group paren inner).Accepted scopes) : inner.Accepted scopes :=
  ⟨accepted.formed, accepted.faultless⟩

theorem Expr.Accepted.of_unary {op : UnaryOp} {token : Token} {operand : Expr Unit}
    (accepted : (Expr.unary op token operand).Accepted scopes) : operand.Accepted scopes :=
  ⟨accepted.formed.2, accepted.faultless⟩

theorem Expr.Accepted.of_binary {op : BinaryOp} {token : Token} {left right : Expr Unit}
    (accepted : (Expr.binary op token left right).Accepted scopes) :
    left.Accepted scopes ∧ right.Accepted scopes := by
  obtain ⟨leftFaultless, rightFaultless⟩ := List.append_eq_nil_iff.mp accepted.faultless
  exact ⟨⟨accepted.formed.2.1, leftFaultless⟩, ⟨accepted.formed.2.2, rightFaultless⟩⟩

theorem Expr.Accepted.of_logical {op : LogicalOp} {token : Token} {left right : Expr Unit}
    (accepted : (Expr.logical op token left right).Accepted scopes) :
    left.Accepted scopes ∧ right.Accepted scopes := by
  obtain ⟨leftFaultless, rightFaultless⟩ := List.append_eq_nil_iff.mp accepted.faultless
  exact ⟨⟨accepted.formed.2.1, leftFaultless⟩, ⟨accepted.formed.2.2, rightFaultless⟩⟩

theorem Expr.Accepted.of_assign {name : Token} {value : Expr Unit}
    (accepted : (Expr.assign name () value).Accepted scopes) : value.Accepted scopes :=
  ⟨accepted.formed, accepted.faultless⟩

theorem Expr.Accepted.of_call {paren : Token} {callee : Expr Unit} {arguments : List (Expr Unit)}
    (accepted : (Expr.call paren callee arguments).Accepted scopes) :
    callee.Accepted scopes ∧ Expr.AcceptedAll scopes arguments := by
  obtain ⟨calleeFaultless, argumentsFaultless⟩ := List.append_eq_nil_iff.mp accepted.faultless
  exact ⟨⟨accepted.formed.1, calleeFaultless⟩, ⟨accepted.formed.2, argumentsFaultless⟩⟩

theorem Expr.AcceptedAll.of_cons {first : Expr Unit} {rest : List (Expr Unit)}
    (accepted : Expr.AcceptedAll scopes (first :: rest)) :
    first.Accepted scopes ∧ Expr.AcceptedAll scopes rest := by
  obtain ⟨firstFaultless, restFaultless⟩ := List.append_eq_nil_iff.mp accepted.faultless
  exact ⟨⟨accepted.formed.1, firstFaultless⟩, ⟨accepted.formed.2, restFaultless⟩⟩

mutual

/-- Outside of all scopes, there is nothing to say about the names in an expression. -/
theorem Expr.faults_nil (expr : Expr Unit) : expr.faults [] = [] := by
  cases expr with
  | literal token value => rfl
  | ident name reference => rfl
  | group paren inner => exact inner.faults_nil
  | unary op token operand => exact operand.faults_nil
  | binary op token left right => rw [Expr.faults, left.faults_nil, right.faults_nil]; rfl
  | logical op token left right => rw [Expr.faults, left.faults_nil, right.faults_nil]; rfl
  | assign name reference value => exact value.faults_nil
  | call paren callee arguments =>
      rw [Expr.faults, callee.faults_nil, Expr.faultsAll_nil arguments]
      rfl

theorem Expr.faultsAll_nil (exprs : List (Expr Unit)) : Expr.faultsAll [] exprs = [] := by
  cases exprs with
  | nil => rfl
  | cons first rest =>
      rw [Expr.faultsAll, first.faults_nil, Expr.faultsAll_nil rest]
      rfl

end

mutual

/-- Outside of all scopes, no name has a distance. -/
theorem Expr.uses_resolve_nil (expr : Expr Unit) :
    (expr.resolve []).uses.all (·.reference.isNone) = true := by
  cases expr with
  | literal token value => rfl
  | ident name reference => rfl
  | group paren inner => exact inner.uses_resolve_nil
  | unary op token operand => exact operand.uses_resolve_nil
  | binary op token left right | logical op token left right =>
      rw [Expr.resolve, Expr.uses, List.all_append, left.uses_resolve_nil, right.uses_resolve_nil]
      rfl
  | assign name reference value => exact value.uses_resolve_nil
  | call paren callee arguments =>
      rw [Expr.resolve, Expr.uses, List.all_append, callee.uses_resolve_nil,
        Expr.usesAll_resolveAll_nil arguments]
      rfl

theorem Expr.usesAll_resolveAll_nil (exprs : List (Expr Unit)) :
    (Expr.usesAll (Expr.resolveAll [] exprs)).all (·.reference.isNone) = true := by
  cases exprs with
  | nil => rfl
  | cons first rest =>
      rw [Expr.resolveAll, Expr.usesAll, List.all_append, first.uses_resolve_nil,
        Expr.usesAll_resolveAll_nil rest]
      rfl

end

/-- A statement that only uses names in an expression outside of all scopes has no local uses. -/
theorem Stmt.locals_singleton_of_global {stmt : Stmt (Option Nat)} {expr : Expr Unit}
    (uses : stmt.uses = (expr.resolve []).uses) : Stmt.locals [stmt] = [] := by
  have global := List.all_eq_true.mp expr.uses_resolve_nil
  refine List.filterMap_eq_nil_iff.mpr fun use used => ?_
  simp only [Stmt.usesAll, uses, List.append_nil] at used
  rw [Option.isNone_iff_eq_none.mp (global use used), Option.map_none]

end Expressions

section Statements

variable {inFunction : Bool} {scopes : Scopes}

theorem Stmt.extend_of_plain {stmt : Stmt Unit} (plain : stmt.Plain) :
    stmt.extend scopes = scopes := by
  fun_induction Stmt.extend scopes stmt with
  | case1 | case2 => cases plain.1
  | case3 scopes keyword test consequent ih => exact ih plain.2.2
  | case4 scopes keyword test consequent alternative ihConsequent ihAlternative =>
      rw [ihConsequent plain.2.2.1] at ihAlternative ⊢
      exact ihAlternative plain.2.2.2
  | case5 | case6 | case7 | case8 | case9 => rfl

/-- Statements neither open nor close the scope that they stand in. -/
theorem Stmt.isEmpty_extend (stmt : Stmt Unit) (scopes : Scopes) :
    (stmt.extend scopes).isEmpty = scopes.isEmpty := by
  fun_induction Stmt.extend scopes stmt with
  | case1 | case2 => exact Scopes.isEmpty_declare ..
  | case3 scopes keyword test consequent ih => exact ih
  | case4 scopes keyword test consequent alternative ihConsequent ihAlternative =>
      exact ihAlternative.trans ihConsequent
  | case5 | case6 | case7 | case8 | case9 => rfl

/-- Globals are not tracked. -/
theorem Stmt.extend_nil (stmt : Stmt Unit) : stmt.extend [] = [] :=
  List.isEmpty_iff.mp (stmt.isEmpty_extend [])

namespace Stmt.Accepted

theorem of_expression {token : Token} {value : Expr Unit}
    (accepted : (Stmt.expression token value).Accepted inFunction scopes) :
    value.Accepted scopes :=
  ⟨accepted.formed, accepted.faultless⟩

theorem of_print {keyword : Token} {value : Expr Unit}
    (accepted : (Stmt.print keyword value).Accepted inFunction scopes) : value.Accepted scopes :=
  ⟨accepted.formed, accepted.faultless⟩

/-- A variable is new in its scope, and its initializer is accepted while it is not yet ready. -/
theorem of_declare {name : Token} {initializer : Option (Expr Unit)}
    (accepted : (Stmt.declare name initializer).Accepted inFunction scopes) :
    scopes.duplicate name = [] ∧
      ∀ value, initializer = some value → value.Accepted (scopes.declare name.lexeme false) := by
  obtain ⟨fresh, faultless⟩ := List.append_eq_nil_iff.mp accepted.faultless
  refine ⟨fresh, ?_⟩
  rintro value rfl
  exact ⟨accepted.formed, by simpa using faultless⟩

theorem of_block {brace : Token} {body : List (Stmt Unit)}
    (accepted : (Stmt.block brace body).Accepted inFunction scopes) :
    Stmt.AcceptedAll inFunction ([] :: scopes) body :=
  ⟨accepted.formed, accepted.faultless⟩

theorem of_ifThen {keyword : Token} {test : Expr Unit} {consequent : Stmt Unit}
    (accepted : (Stmt.ifThen keyword test consequent).Accepted inFunction scopes) :
    test.Accepted scopes ∧ consequent.Plain ∧ consequent.Accepted inFunction scopes := by
  obtain ⟨testFaultless, faultless⟩ := List.append_eq_nil_iff.mp accepted.faultless
  exact ⟨⟨accepted.formed.1, testFaultless⟩, accepted.formed.2, ⟨accepted.formed.2.2, faultless⟩⟩

theorem of_ifElse {keyword : Token} {test : Expr Unit} {consequent alternative : Stmt Unit}
    (accepted : (Stmt.ifElse keyword test consequent alternative).Accepted inFunction scopes) :
    test.Accepted scopes ∧ (consequent.Plain ∧ consequent.Accepted inFunction scopes) ∧
      alternative.Plain ∧ alternative.Accepted inFunction scopes := by
  obtain ⟨before, alternativeFaultless⟩ := List.append_eq_nil_iff.mp accepted.faultless
  obtain ⟨testFaultless, consequentFaultless⟩ := List.append_eq_nil_iff.mp before
  rw [Stmt.extend_of_plain accepted.formed.2.1] at alternativeFaultless
  exact ⟨⟨accepted.formed.1, testFaultless⟩,
    ⟨accepted.formed.2.1, ⟨accepted.formed.2.1.2, consequentFaultless⟩⟩,
    accepted.formed.2.2, ⟨accepted.formed.2.2.2, alternativeFaultless⟩⟩

theorem of_loop {keyword : Token} {test : Expr Unit} {body : Stmt Unit}
    (accepted : (Stmt.loop keyword test body).Accepted inFunction scopes) :
    test.Accepted scopes ∧ body.Plain ∧ body.Accepted inFunction ([] :: scopes) := by
  obtain ⟨testFaultless, faultless⟩ := List.append_eq_nil_iff.mp accepted.faultless
  exact ⟨⟨accepted.formed.1, testFaultless⟩, accepted.formed.2, ⟨accepted.formed.2.2, faultless⟩⟩

theorem of_function {name : Token} {parameters : List Token} {body : List (Stmt Unit)}
    (accepted : (Stmt.function name parameters body).Accepted inFunction scopes) :
    scopes.duplicate name = [] ∧
      Scopes.parameterFaults parameters ([] :: scopes.declare name.lexeme true) = [] ∧
      Stmt.AcceptedAll true ((scopes.declare name.lexeme true).enterFunction parameters) body := by
  obtain ⟨before, bodyFaultless⟩ := List.append_eq_nil_iff.mp accepted.faultless
  obtain ⟨fresh, distinct⟩ := List.append_eq_nil_iff.mp before
  exact ⟨fresh, distinct, ⟨accepted.formed, bodyFaultless⟩⟩

theorem of_giveBack {keyword : Token} {value : Option (Expr Unit)}
    (accepted : (Stmt.giveBack keyword value).Accepted inFunction scopes) :
    ∀ given, value = some given → given.Accepted scopes := by
  obtain ⟨_, faultless⟩ := List.append_eq_nil_iff.mp accepted.faultless
  rintro given rfl
  exact ⟨accepted.formed, by simpa using faultless⟩

end Stmt.Accepted

theorem Stmt.AcceptedAll.of_cons {first : Stmt Unit} {rest : List (Stmt Unit)}
    (accepted : Stmt.AcceptedAll inFunction scopes (first :: rest)) :
    first.Accepted inFunction scopes ∧ Stmt.AcceptedAll inFunction (first.extend scopes) rest := by
  obtain ⟨firstFaultless, restFaultless⟩ := List.append_eq_nil_iff.mp accepted.faultless
  exact ⟨⟨accepted.formed.1, firstFaultless⟩, ⟨accepted.formed.2, restFaultless⟩⟩

theorem Stmt.Accepted.singleton {stmt : Stmt Unit} (accepted : stmt.Accepted inFunction scopes) :
    Stmt.AcceptedAll inFunction scopes [stmt] :=
  ⟨⟨accepted.formed, trivial⟩, by simpa [Stmt.faultsAll] using accepted.faultless⟩

end Statements

end Loxley
