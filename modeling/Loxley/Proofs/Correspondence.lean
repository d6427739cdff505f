import Mathlib.Data.List.Forall2
import Loxley.Proofs.Adaptation
import Loxley.Proofs.Soundness

/-!
# Running the same code in two ways

Two machines may hold the same in different ways: code can stand on other lines, environments can lie
further apart, limits can differ. A correspondence says what is the same about two machines and about
two results, with one clause for each operation of the machine. The evaluator is built from these
operations, so corresponding code on corresponding machines has corresponding results.
-/

set_option autoImplicit false

namespace Loxley

/-! ## What operators see of values -/

/-- Values that no operator tells apart. -/
inductive Value.Similar : Value → Value → Prop
  | plain {value : Value} (isPlain : ∀ closure, value ≠ .function closure) : Similar value value
  | function {closure other : Closure} (identity : other.identity = closure.identity)
      (lexeme : other.name.lexeme = closure.name.lexeme)
      (arity : other.parameters.length = closure.parameters.length) :
      Similar (.function closure) (.function other)

theorem Value.similar_self (value : Value) : value.Similar value := by
  cases value with
  | function closure => exact .function rfl rfl rfl
  | nil | bool | number | string | native | foreign => exact .plain (by simp)

namespace Value.Similar

variable {value content : Value}

theorem isTruthy (similar : Similar value content) : content.isTruthy = value.isTruthy := by
  cases similar <;> rfl

theorem text? (similar : Similar value content) : content.text? = value.text? := by
  cases similar with
  | plain => rfl
  | function _ lexeme _ => simp only [Value.text?, lexeme]

theorem arity? (similar : Similar value content) : content.arity? = value.arity? := by
  cases similar with
  | plain => rfl
  | function _ _ arity => simp only [Value.arity?, arity]

theorem isDecidedBy (similar : Similar value content) (op : LogicalOp) :
    op.isDecidedBy content = op.isDecidedBy value := by
  cases op <;> simp only [LogicalOp.isDecidedBy, similar.isTruthy]

theorem applyUnary (similar : Similar value content) (op : UnaryOp) :
    op.apply content = op.apply value := by
  cases op with
  | not => simp only [UnaryOp.apply, similar.isTruthy]
  | negate => cases similar <;> rfl

variable {right other : Value}

theorem same (similar : Similar value content) (beside : Similar right other) :
    content.same other = value.same right := by
  cases similar with
  | plain isPlain =>
      cases beside with
      | plain => rfl
      | function => cases value <;> first | rfl | exact absurd rfl (isPlain _)
  | function identity =>
      cases beside with
      | plain isPlain => cases right <;> first | rfl | exact absurd rfl (isPlain _)
      | function alsoIdentity => simp only [Value.same, identity, alsoIdentity]

theorem applyBinary (similar : Similar value content) (beside : Similar right other)
    (op : BinaryOp) : op.apply content other = op.apply value right := by
  cases op with
  | equal | notEqual => simp only [BinaryOp.apply, similar.same beside]
  | add | subtract | multiply | divide | greater | greaterEqual | less | lessEqual =>
      cases similar with
      | plain isPlain =>
          cases beside with
          | plain => rfl
          | function => cases value <;> rfl
      | function => rfl

theorem clash? (similar : Similar value content) (beside : Similar right other) (op : BinaryOp) :
    op.clash? content other = op.clash? value right := by
  cases similar with
  | plain isPlain =>
      cases beside with
      | plain => rfl
      | function => cases op <;> cases value <;> rfl
  | function => cases op <;> rfl

end Value.Similar

/-! ## What holds values -/

/-- What is alike as soon as the values that it holds are alike. -/
class Holder (α : Type) where
  Alike : (Value → Value → Prop) → α → α → Prop
  alike_eq : Alike Eq = Eq

/-- Completions whose values are alike. -/
inductive Completion.Alike (alike : Value → Value → Prop) : Completion → Completion → Prop
  | normal : Alike alike .normal .normal
  | returned {value content : Value} (related : alike value content) :
      Alike alike (.returned value) (.returned content)

theorem Completion.alike_eq : Completion.Alike Eq = Eq := by
  funext completion other
  refine propext ⟨fun alike => ?_, fun same => ?_⟩
  · cases alike with
    | normal => rfl
    | returned same => exact congrArg Completion.returned same
  · subst same
    cases completion with
    | normal => exact .normal
    | returned value => exact .returned rfl

instance : Holder Unit := ⟨fun _ => Eq, rfl⟩

instance : Holder Value := ⟨fun alike => alike, rfl⟩

instance : Holder (List Value) := ⟨List.Forall₂, List.forall₂_eq_eq_eq⟩

instance : Holder Completion := ⟨Completion.Alike, Completion.alike_eq⟩

/-- A closure whose code is adapted to the place of its environment on another machine. -/
def Closure.adapt {Place : Type} (adaptation : Adaptation Place) (place : Place)
    (scope : EnvironmentId) (closure : Closure) : Closure :=
  { closure with
    name := adaptation.token place closure.name
    parameters := closure.parameters.map (adaptation.token place)
    body := Stmt.adaptAll adaptation (adaptation.inner place) closure.body
    scope }

theorem Closure.adapt_of_fixes {Place : Type} {adaptation : Adaptation Place}
    {fixed : Place → Prop} (fixes : adaptation.Fixes fixed) {place : Place} (holds : fixed place)
    (closure : Closure) : closure.adapt adaptation place closure.scope = closure := by
  simp only [Closure.adapt, fixes.token place holds, id, List.map_id,
    Stmt.adaptAll_of_fixes fixes (fixes.inner place holds)]

/-! ## Correspondences -/

/--
A relation between machines that the operations on environments and output respect. It may depend on
the world, which grows as the machines go on, and on the place of the code that runs on the other
machine.
-/
structure Matching where
  World : Type
  Place : Type
  Later : World → World → Prop
  code : Adaptation Place
  /-- The tokens that code may carry at a place. -/
  admits : Place → Token → Prop
  values : World → Value → Value → Prop
  scopes : World → Place → EnvironmentId → EnvironmentId → Prop
  machines : World → Place → Machine → Machine → Prop
  admits_inner : ∀ {place token}, admits place token → admits (code.inner place) token
  grow : ∀ {world later value content}, Later world later → values world value content →
    values later value content
  similar : ∀ {world value content}, values world value content → value.Similar content
  literal : ∀ world literal, values world (.ofLiteral literal) (.ofLiteral literal)
  closure : ∀ {world closure content}, values world (.function closure) content →
    ∃ place scope, content = .function (closure.adapt code place scope) ∧
      scopes world place closure.scope scope ∧
      ∀ token ∈ Stmt.tokensAll closure.body, admits (code.inner place) token
  writeLine : ∀ {world place machine other} (text : Text), machines world place machine other →
    machines world place (machine.writeLine text) (other.writeLine text)
  declare : ∀ {world place machine other} {name renamed : Token} {value content},
    machines world place machine other → renamed.lexeme = name.lexeme →
    values world value content →
    machines world place (machine.declare name value) (other.declare renamed content)
  declareFunction : ∀ {world place machine other name parameters} {body : List ResolvedStmt},
    machines world place machine other →
    (∀ token ∈ (Stmt.function name parameters body).tokens, admits place token) →
    machines world place (machine.declareFunction name parameters body)
      (other.declareFunction (code.token place name) (parameters.map (code.token place))
        (Stmt.adaptAll code (code.inner place) body))
  current : ∀ {world place machine other}, machines world place machine other →
    scopes world place machine.current other.current
  enter : ∀ {world place machine other around environment counterpart},
    machines world place machine other → scopes world around environment counterpart →
    ∃ later, Later world later ∧
      machines later (code.inner around) (machine.enter environment) (other.enter counterpart)

/-- A relation between machines together with relations between results, for all of the evaluator. -/
structure Correspondence extends Matching where
  results : {α : Type} → [Holder α] → World → Place → Result α → Result α → Prop
  /-- How applications correspond, after which the host may go on. -/
  replies : World → Place → Result HostReply → Result HostReply → Prop
  ok : ∀ {α} [Holder α] {world place machine other} {value content : α},
    machines world place machine other → Holder.Alike (values world) value content →
    results world place (.ok value machine) (.ok content other)
  error : ∀ {α} [Holder α] {world place machine other token} (mishap : Mishap),
    machines world place machine other → admits place token →
    results world place (.error { token, mishap } machine : Result α)
      (.error { token := code.token place token, mishap } other)
  fault : ∀ {α} [Holder α] {world place machine other} (reason : Fault),
    machines world place machine other →
    results world place (.fault reason machine : Result α) (.fault reason other)
  exhausted : ∀ {α} [Holder α] {world place},
    results world place (.exhausted : Result α) .exhausted
  andThen : ∀ {α β} [Holder α] [Holder β] {world place} {result full : Result α}
    {next follow : α → Machine → Result β}, results world place result full →
    (∀ later value content machine other, Later world later →
      Holder.Alike (values later) value content → machines later place machine other →
      results later place (next value machine) (follow content other)) →
    results world place (result.andThen next) (full.andThen follow)
  leave : ∀ {α} [Holder α] {world later place inside environment counterpart}
    {result full : Result α}, Later world later → results later inside result full →
    scopes world place environment counterpart →
    results world place (result.ensuring (Machine.leaveTo environment))
      (full.ensuring (Machine.leaveTo counterpart))
  read : ∀ {world place machine other name} (reference : Option Nat),
    machines world place machine other → admits place name →
    results world place (machine.read name reference)
      (other.read (code.token place name) (code.reference place reference))
  assign : ∀ {world place machine other name value content} (reference : Option Nat),
    machines world place machine other → admits place name → values world value content →
    results world place (machine.assign name value reference)
      (other.assign (code.token place name) content (code.reference place reference))
  room : ∀ {world place machine other}, machines world place machine other →
    machine.depth < machine.callLimit → other.depth < other.callLimit
  deeper : ∀ {world place machine other}, machines world place machine other →
    machines world place { machine with depth := machine.depth + 1 }
      { other with depth := other.depth + 1 }
  tooDeep : ∀ {world place machine other paren content contents} (fuel : Nat),
    machines world place machine other → admits place paren →
    content.arity? = some (contents.length : Int) → machine.callLimit ≤ machine.depth →
    results world place (.error { token := paren, mishap := .callsTooDeep } machine)
      (Machine.call (fuel + 1) (code.token place paren) content contents other)
  conclude : ∀ {world place machine other paren callee content result full},
    machines world place machine other → admits place paren → values world callee content →
    replies world place result full →
    results world place
      ((result.andThen fun reply after => after.conclude paren callee reply).ensuring
        fun after => { after with depth := machine.depth })
      ((full.andThen fun reply after =>
          after.conclude (code.token place paren) content reply).ensuring
        fun after => { after with depth := other.depth })
  noReply : ∀ {world place}, replies world place .exhausted .exhausted
  badApplication : ∀ {world place machine other}, machines world place machine other →
    replies world place (.fault .badApplication machine) (.fault .badApplication other)
  reply : ∀ {world later place inside environment counterpart} {result full : Result Value},
    Later world later → results later inside result full →
    scopes world place environment counterpart →
    replies world place (result.reply.ensuring (Machine.leaveTo environment))
      (full.reply.ensuring (Machine.leaveTo counterpart))
  native : ∀ {world place machine other reference arguments contents fuel},
    machines world place machine other → List.Forall₂ (values world) arguments contents →
    (∀ later machine other callee content arguments contents, Later world later →
      machines later place machine other → values later callee content →
      List.Forall₂ (values later) arguments contents →
      replies later place (Machine.apply fuel callee arguments machine)
        (Machine.apply fuel content contents other)) →
    replies world place (Machine.apply (fuel + 1) (.native reference) arguments machine)
      (Machine.apply (fuel + 1) (.native reference) contents other)

namespace Correspondence

variable (C : Correspondence)

/-- All tokens in a list may stand at a place. -/
def Admits (place : C.Place) (tokens : List Token) : Prop :=
  ∀ token ∈ tokens, C.admits place token

/-- Corresponding code on corresponding machines, with some fuel. -/
structure Runs (fuel : Nat) : Prop where
  evaluate : ∀ {world place expr machine other}, C.Admits place (Expr.tokens expr) →
    C.machines world place machine other →
    C.results world place (Machine.evaluate fuel expr machine)
      (Machine.evaluate fuel (expr.adapt C.code place) other)
  evaluateAll : ∀ {world place exprs machine other}, C.Admits place (Expr.tokensAll exprs) →
    C.machines world place machine other →
    C.results world place (Machine.evaluateAll fuel exprs machine)
      (Machine.evaluateAll fuel (Expr.adaptAll C.code place exprs) other)
  call : ∀ {world place paren callee content arguments contents machine other},
    C.admits place paren → C.values world callee content →
    List.Forall₂ (C.values world) arguments contents → C.machines world place machine other →
    C.results world place (Machine.call fuel paren callee arguments machine)
      (Machine.call fuel (C.code.token place paren) content contents other)
  apply : ∀ {world place callee content arguments contents machine other},
    C.values world callee content → List.Forall₂ (C.values world) arguments contents →
    C.machines world place machine other →
    C.replies world place (Machine.apply fuel callee arguments machine)
      (Machine.apply fuel content contents other)
  execute : ∀ {world place stmt machine other}, C.Admits place (Stmt.tokens stmt) →
    C.machines world place machine other →
    C.results world place (Machine.execute fuel stmt machine)
      (Machine.execute fuel (stmt.adapt C.code place) other)
  executeAll : ∀ {world place stmts machine other}, C.Admits place (Stmt.tokensAll stmts) →
    C.machines world place machine other →
    C.results world place (Machine.executeAll fuel stmts machine)
      (Machine.executeAll fuel (Stmt.adaptAll C.code place stmts) other)

variable {C} {world : C.World} {place : C.Place} {machine other : Machine} {fuel : Nat}

theorem Admits.inner {tokens : List Token} (admitted : C.Admits place tokens) :
    C.Admits (C.code.inner place) tokens :=
  fun token held => C.admits_inner (admitted token held)

theorem finish (related : C.machines world place machine other) {token : Token}
    (admitted : C.admits place token) {value : Except Mishap Value}
    (plain : ∀ given, value = .ok given → ∃ literal, given = .ofLiteral literal) :
    C.results world place (machine.finish token value)
      (other.finish (C.code.token place token) value) := by
  cases value with
  | ok given =>
      obtain ⟨literal, rfl⟩ := plain given rfl
      exact C.ok related (C.literal world literal)
  | error mishap => exact C.error mishap related admitted

theorem operate (related : C.machines world place machine other) {token : Token}
    (admitted : C.admits place token) (op : BinaryOp) {left right leftContent rightContent : Value}
    (relatedLeft : C.values world left leftContent)
    (relatedRight : C.values world right rightContent) :
    C.results world place (machine.operate op token left right)
      (other.operate op (C.code.token place token) leftContent rightContent) := by
  have similar := C.similar relatedLeft
  have beside := C.similar relatedRight
  simp only [Machine.operate, similar.clash? beside, similar.applyBinary beside]
  cases op.clash? left right with
  | some typeName => exact C.fault _ related
  | none => exact finish related admitted fun _ => BinaryOp.apply_eq_ok

theorem print (related : C.machines world place machine other) {value content : Value}
    (relatedValue : C.values world value content) :
    C.results world place (machine.print value) (other.print content) := by
  simp only [Machine.print, (C.similar relatedValue).text?]
  cases value.text? with
  | some text => exact C.ok (C.writeLine text related) rfl
  | none => exact C.fault _ related

theorem bindParameters (related : C.machines world place machine other) (around : C.Place)
    (parameters : List Token) {arguments contents : List Value}
    (relatedAll : List.Forall₂ (C.values world) arguments contents) :
    C.machines world place (Machine.bindParameters parameters arguments machine)
      (Machine.bindParameters (parameters.map (C.code.token around)) contents other) := by
  induction parameters generalizing arguments contents machine other with
  | nil => exact related
  | cons parameter parameters ih =>
      cases relatedAll with
      | nil => exact related
      | cons first rest =>
          exact ih (C.declare related (C.code.lexeme_token around parameter) first) rest

namespace Runs

private theorem evaluate_succ (ih : C.Runs fuel) {expr : ResolvedExpr}
    (admitted : C.Admits place expr.tokens) (related : C.machines world place machine other) :
    C.results world place (Machine.evaluate (fuel + 1) expr machine)
      (Machine.evaluate (fuel + 1) (expr.adapt C.code place) other) := by
  cases expr with
  | literal token value => exact C.ok related (C.literal world value)
  | group paren inner => exact ih.evaluate (List.forall_mem_cons.mp admitted).2 related
  | unary op token operand =>
      obtain ⟨here, inside⟩ := List.forall_mem_cons.mp admitted
      refine C.andThen (ih.evaluate inside related) fun later value content after next _ alike
        relatedAfter => ?_
      rw [(C.similar alike).applyUnary]
      exact finish relatedAfter here fun _ => UnaryOp.apply_eq_ok
  | binary op token left right =>
      obtain ⟨here, inside⟩ := List.forall_mem_cons.mp admitted
      obtain ⟨inLeft, inRight⟩ := List.forall_mem_append.mp inside
      refine C.andThen (ih.evaluate inLeft related) fun middle _ _ _ _ _ alikeLeft
        relatedMiddle => ?_
      refine C.andThen (ih.evaluate inRight relatedMiddle) fun later _ _ _ _ grown alikeRight
        relatedAfter => ?_
      exact operate relatedAfter here op (C.grow grown alikeLeft) alikeRight
  | logical op token left right =>
      obtain ⟨_, inside⟩ := List.forall_mem_cons.mp admitted
      obtain ⟨inLeft, inRight⟩ := List.forall_mem_append.mp inside
      refine C.andThen (ih.evaluate inLeft related) fun later value content _ _ _ alike
        relatedAfter => ?_
      rw [(C.similar alike).isDecidedBy]
      split
      · exact C.ok relatedAfter alike
      · exact ih.evaluate inRight relatedAfter
  | ident name reference => exact C.read reference related (List.forall_mem_singleton.mp admitted)
  | assign name reference value =>
      obtain ⟨here, inside⟩ := List.forall_mem_cons.mp admitted
      exact C.andThen (ih.evaluate inside related) fun _ _ _ _ _ _ alike relatedAfter =>
        C.assign reference relatedAfter here alike
  | call paren callee arguments =>
      obtain ⟨here, inside⟩ := List.forall_mem_cons.mp admitted
      obtain ⟨inCallee, inArguments⟩ := List.forall_mem_append.mp inside
      refine C.andThen (ih.evaluate inCallee related) fun _ _ _ _ _ _ alikeCallee
        relatedMiddle => ?_
      refine C.andThen (ih.evaluateAll inArguments relatedMiddle) fun _ _ _ _ _ grown alikeAll
        relatedAfter => ?_
      exact ih.call here (C.grow grown alikeCallee) alikeAll relatedAfter

private theorem evaluateAll_succ (ih : C.Runs fuel) {exprs : List ResolvedExpr}
    (admitted : C.Admits place (Expr.tokensAll exprs))
    (related : C.machines world place machine other) :
    C.results world place (Machine.evaluateAll (fuel + 1) exprs machine)
      (Machine.evaluateAll (fuel + 1) (Expr.adaptAll C.code place exprs) other) := by
  cases exprs with
  | nil => exact C.ok related List.Forall₂.nil
  | cons first rest =>
      obtain ⟨inFirst, inRest⟩ := List.forall_mem_append.mp admitted
      refine C.andThen (ih.evaluate inFirst related) fun _ _ _ _ _ _ alike relatedMiddle => ?_
      exact C.andThen (ih.evaluateAll inRest relatedMiddle) fun _ _ _ _ _ grown alikeRest
        relatedAfter => C.ok relatedAfter (.cons (C.grow grown alike) alikeRest)

private theorem call_succ (ih : C.Runs fuel) {paren : Token} {callee content : Value}
    {arguments contents : List Value} (admitted : C.admits place paren)
    (alike : C.values world callee content)
    (alikeAll : List.Forall₂ (C.values world) arguments contents)
    (related : C.machines world place machine other) :
    C.results world place (Machine.call (fuel + 1) paren callee arguments machine)
      (Machine.call (fuel + 1) (C.code.token place paren) content contents other) := by
  have sameArity := (C.similar alike).arity?
  have sameLength := alikeAll.length_eq
  cases arity : callee.arity? with
  | none =>
      simp only [Machine.call, sameArity, arity]
      exact C.error _ related admitted
  | some expected =>
      by_cases wrong : (arguments.length : Int) ≠ expected
      · simp only [Machine.call, sameArity, arity, ← sameLength, if_pos wrong]
        exact C.error _ related admitted
      · have right : content.arity? = some (contents.length : Int) := by
          rw [sameArity, arity, ← sameLength, not_not.mp wrong]
        by_cases full : machine.callLimit ≤ machine.depth
        · have rejected : Machine.call (fuel + 1) paren callee arguments machine =
              .error { token := paren, mishap := .callsTooDeep } machine := by
            simp only [Machine.call, arity, if_neg wrong, if_pos full]
          rw [rejected]
          exact C.tooDeep fuel related admitted right full
        · have alsoRoom := Nat.not_le.mpr (C.room related (Nat.lt_of_not_le full))
          simp only [Machine.call, sameArity, arity, ← sameLength, if_neg wrong, if_neg full,
            if_neg alsoRoom]
          exact C.conclude related admitted alike (ih.apply alike alikeAll (C.deeper related))

private theorem apply_function (ih : C.Runs fuel) {closure : Closure} {content : Value}
    {arguments contents : List Value} (alike : C.values world (.function closure) content)
    (alikeAll : List.Forall₂ (C.values world) arguments contents)
    (related : C.machines world place machine other) :
    C.replies world place (Machine.apply (fuel + 1) (.function closure) arguments machine)
      (Machine.apply (fuel + 1) content contents other) := by
  obtain ⟨around, scope, rfl, relatedScopes, inBody⟩ := C.closure alike
  simp only [Machine.apply, Closure.adapt, List.length_map, ← alikeAll.length_eq]
  split
  · exact C.badApplication related
  · obtain ⟨inside, grown, entered⟩ := C.enter related relatedScopes
    have bound := bindParameters entered around closure.parameters
      (alikeAll.imp fun _ _ alike => C.grow grown alike)
    refine C.reply grown (C.andThen (ih.executeAll inBody bound) ?_) (C.current related)
    intro later completion counterpart after next _ completed relatedAfter
    cases completed with
    | normal => exact C.ok relatedAfter (C.literal later .nil)
    | returned alike => exact C.ok relatedAfter alike

private theorem apply_succ (ih : C.Runs fuel) {callee content : Value}
    {arguments contents : List Value} (alike : C.values world callee content)
    (alikeAll : List.Forall₂ (C.values world) arguments contents)
    (related : C.machines world place machine other) :
    C.replies world place (Machine.apply (fuel + 1) callee arguments machine)
      (Machine.apply (fuel + 1) content contents other) := by
  cases C.similar alike with
  | function => exact ih.apply_function alike alikeAll related
  | plain isPlain =>
      cases callee with
      | function closure => exact absurd rfl (isPlain closure)
      | native reference =>
          exact C.native related alikeAll fun _ _ _ _ _ _ _ _ related alike alikeAll =>
            ih.apply alike alikeAll related
      | nil | bool | number | string | foreign => exact C.badApplication related

private theorem nested (ih : C.Runs fuel) {body : List ResolvedStmt}
    (admitted : C.Admits place (Stmt.tokensAll body))
    (related : C.machines world place machine other) :
    C.results world place
      ((Machine.executeAll fuel body (machine.enter machine.current)).ensuring
        (Machine.leaveTo machine.current))
      ((Machine.executeAll fuel (Stmt.adaptAll C.code (C.code.inner place) body)
        (other.enter other.current)).ensuring (Machine.leaveTo other.current)) := by
  obtain ⟨inside, grown, entered⟩ := C.enter related (C.current related)
  exact C.leave grown (ih.executeAll admitted.inner entered) (C.current related)

private theorem execute_succ (ih : C.Runs fuel) {stmt : ResolvedStmt}
    (admitted : C.Admits place stmt.tokens) (related : C.machines world place machine other) :
    C.results world place (Machine.execute (fuel + 1) stmt machine)
      (Machine.execute (fuel + 1) (stmt.adapt C.code place) other) := by
  have inside := fun {expr : ResolvedExpr} {token : Token}
      (admitted : C.Admits place (token :: expr.tokens)) =>
    ih.evaluate (List.forall_mem_cons.mp admitted).2 related
  cases stmt with
  | expression token value =>
      exact C.andThen (inside admitted) fun _ _ _ _ _ _ _ relatedAfter =>
        C.ok relatedAfter Completion.Alike.normal
  | print keyword value =>
      refine C.andThen (inside admitted) fun _ _ _ _ _ _ alike relatedAfter => ?_
      exact C.andThen (print relatedAfter alike) fun _ _ _ _ _ _ _ relatedLast =>
        C.ok relatedLast Completion.Alike.normal
  | declare name initializer =>
      cases initializer with
      | none =>
          exact C.ok (C.declare related (C.code.lexeme_token place name) (C.literal world .nil))
            Completion.Alike.normal
      | some initializer =>
          refine C.andThen (inside (by simpa [Stmt.tokens] using admitted))
            fun _ _ _ _ _ _ alike relatedAfter => ?_
          exact C.ok (C.declare relatedAfter (C.code.lexeme_token place name) alike)
            Completion.Alike.normal
  | block brace body => exact ih.nested (List.forall_mem_cons.mp admitted).2 related
  | ifThen keyword test consequent =>
      obtain ⟨_, parts⟩ := List.forall_mem_cons.mp admitted
      obtain ⟨inTest, inConsequent⟩ := List.forall_mem_append.mp parts
      refine C.andThen (ih.evaluate inTest related) fun _ _ _ _ _ _ alike relatedAfter => ?_
      rw [(C.similar alike).isTruthy]
      split
      · exact ih.execute inConsequent relatedAfter
      · exact C.ok relatedAfter Completion.Alike.normal
  | ifElse keyword test consequent alternative =>
      obtain ⟨_, parts⟩ := List.forall_mem_cons.mp admitted
      obtain ⟨former, inAlternative⟩ := List.forall_mem_append.mp parts
      obtain ⟨inTest, inConsequent⟩ := List.forall_mem_append.mp former
      refine C.andThen (ih.evaluate inTest related) fun _ _ _ _ _ _ alike relatedAfter => ?_
      rw [(C.similar alike).isTruthy]
      split
      · exact ih.execute inConsequent relatedAfter
      · exact ih.execute inAlternative relatedAfter
  | loop keyword test body =>
      obtain ⟨_, parts⟩ := List.forall_mem_cons.mp admitted
      obtain ⟨inTest, inBody⟩ := List.forall_mem_append.mp parts
      refine C.andThen (ih.evaluate inTest related) fun _ _ _ _ _ _ alike relatedMiddle => ?_
      rw [(C.similar alike).isTruthy]
      split
      · have single : C.Admits place (Stmt.tokensAll [body]) := by
          simpa [Stmt.tokensAll, Admits] using inBody
        refine C.andThen (ih.nested single relatedMiddle) fun _ _ _ _ _ _ completed
          relatedAfter => ?_
        cases completed with
        | normal => exact ih.execute admitted relatedAfter
        | returned alike => exact C.ok relatedAfter (Completion.Alike.returned alike)
      · exact C.ok relatedMiddle Completion.Alike.normal
  | function name parameters body =>
      exact C.ok (C.declareFunction related admitted) Completion.Alike.normal
  | giveBack keyword value =>
      cases value with
      | none => exact C.ok related (Completion.Alike.returned (C.literal world .nil))
      | some value =>
          exact C.andThen (inside (by simpa [Stmt.tokens] using admitted))
            fun _ _ _ _ _ _ alike relatedAfter =>
              C.ok relatedAfter (Completion.Alike.returned alike)

private theorem executeAll_succ (ih : C.Runs fuel) {stmts : List ResolvedStmt}
    (admitted : C.Admits place (Stmt.tokensAll stmts))
    (related : C.machines world place machine other) :
    C.results world place (Machine.executeAll (fuel + 1) stmts machine)
      (Machine.executeAll (fuel + 1) (Stmt.adaptAll C.code place stmts) other) := by
  cases stmts with
  | nil => exact C.ok related Completion.Alike.normal
  | cons first rest =>
      obtain ⟨inFirst, inRest⟩ := List.forall_mem_append.mp admitted
      refine C.andThen (ih.execute inFirst related) fun _ _ _ _ _ _ completed relatedAfter => ?_
      cases completed with
      | normal => exact ih.executeAll inRest relatedAfter
      | returned alike => exact C.ok relatedAfter (Completion.Alike.returned alike)

end Runs

/-- Corresponding code on corresponding machines has corresponding results. -/
theorem runs (C : Correspondence) (fuel : Nat) : C.Runs fuel := by
  -- The functions of the evaluator call each other, so one induction on the fuel serves them all.
  induction fuel with
  | zero => constructor <;> intros <;> first | exact C.exhausted | exact C.noReply
  | succ fuel ih =>
      exact ⟨ih.evaluate_succ, ih.evaluateAll_succ, ih.call_succ, ih.apply_succ, ih.execute_succ,
        ih.executeAll_succ⟩

theorem interpret (fuel : Nat) {program : List ResolvedStmt}
    (admitted : C.Admits place (Stmt.tokensAll program))
    (related : C.machines world place machine other) :
    C.results world place (Machine.interpret fuel program machine)
      (Machine.interpret fuel (Stmt.adaptAll C.code place program) other) := by
  induction program generalizing world machine other with
  | nil => exact C.ok related rfl
  | cons first rest ih =>
      obtain ⟨inFirst, inRest⟩ := List.forall_mem_append.mp admitted
      exact C.andThen ((C.runs fuel).execute inFirst related) fun _ _ _ _ _ _ _ relatedAfter =>
        ih inRest relatedAfter

end Correspondence

end Loxley
