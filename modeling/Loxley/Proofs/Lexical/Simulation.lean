import Loxley.Proofs.Lexical.Agreement

/-!
# The machine implements lexical scoping

Running accepted code on a machine and in the lexical semantics, from corresponding states and with
the same fuel, gives the same values and errors and leads to corresponding states again. The
exception is a local variable that is assigned in its own initializer, which has no cell yet.
-/

set_option autoImplicit false

namespace Loxley

namespace Expr

/-- An initializer that does not assign the variable that it is for. -/
def Spares (initializing : Option Text) (expr : Expr Unit) : Prop :=
  ∀ name, initializing = some name → expr.assigns name = false

/-- The same of some expressions. -/
def SparesAll (initializing : Option Text) (exprs : List (Expr Unit)) : Prop :=
  ∀ expr ∈ exprs, expr.Spares initializing

theorem spares_none (expr : Expr Unit) : expr.Spares none :=
  by rintro _ ⟨⟩

variable {initializing : Option Text}

theorem Spares.of_uses_subset {expr part : Expr Unit} (spares : expr.Spares initializing)
    (included : part.uses ⊆ expr.uses) : part.Spares initializing := by
  intro name pending
  have none := spares name pending
  rw [assigns, List.any_eq_false] at none ⊢
  exact fun use member => none use (included member)

theorem Spares.of_group {paren : Token} {inner : Expr Unit}
    (spares : (Expr.group paren inner).Spares initializing) : inner.Spares initializing :=
  spares.of_uses_subset (by simp [uses])

theorem Spares.of_unary {op : UnaryOp} {token : Token} {operand : Expr Unit}
    (spares : (Expr.unary op token operand).Spares initializing) : operand.Spares initializing :=
  spares.of_uses_subset (by simp [uses])

theorem Spares.of_binary {op : BinaryOp} {token : Token} {left right : Expr Unit}
    (spares : (Expr.binary op token left right).Spares initializing) :
    left.Spares initializing ∧ right.Spares initializing :=
  ⟨spares.of_uses_subset (by simp [uses]), spares.of_uses_subset (by simp [uses])⟩

theorem Spares.of_logical {op : LogicalOp} {token : Token} {left right : Expr Unit}
    (spares : (Expr.logical op token left right).Spares initializing) :
    left.Spares initializing ∧ right.Spares initializing :=
  ⟨spares.of_uses_subset (by simp [uses]), spares.of_uses_subset (by simp [uses])⟩

/-- The variable of an assignment is not the one that is being initialized. -/
theorem Spares.of_assign {name : Token} {value : Expr Unit}
    (spares : (Expr.assign name () value).Spares initializing) :
    initializing ≠ some name.lexeme ∧ value.Spares initializing := by
  refine ⟨fun own => ?_, spares.of_uses_subset (by simp [uses])⟩
  have none := spares name.lexeme own
  simp [assigns, uses] at none

theorem uses_subset_usesAll {exprs : List (Expr Unit)} {expr : Expr Unit}
    (member : expr ∈ exprs) : expr.uses ⊆ Expr.usesAll exprs := by
  induction exprs with
  | nil => cases member
  | cons first rest ih =>
      rcases List.mem_cons.mp member with rfl | member
      · simp [usesAll]
      · exact List.subset_append_of_subset_right _ (ih member)

theorem Spares.of_call {paren : Token} {callee : Expr Unit} {arguments : List (Expr Unit)}
    (spares : (Expr.call paren callee arguments).Spares initializing) :
    callee.Spares initializing ∧ SparesAll initializing arguments := by
  refine ⟨spares.of_uses_subset (by simp [uses]), fun argument member => ?_⟩
  refine spares.of_uses_subset ?_
  rw [uses]
  exact List.subset_append_of_subset_right _ (uses_subset_usesAll member)

end Expr

namespace Lexical

/-- Applying a function gives the end of its body, as the host gets to see it. -/
def Replies (layout : Layout) (result : Loxley.Result HostReply) (other : Result Value) : Prop :=
  ∃ body : Loxley.Result Loxley.Value, result = body.reply ∧ Agrees layout valued body other

theorem conclude_value {layout : Layout} {heap : Heap} {value : Loxley.Value} {content : Value}
    (alike : Alike layout heap value content) (machine : Machine) (token : Token)
    (callee : Loxley.Value) : machine.conclude token callee { value } = .ok value machine := by
  cases callee with
  | native reference =>
      cases value with
      | foreign thing => exact absurd rfl (alike.ours thing)
      | nil | bool | number | string | function | native => rfl
  | nil | bool | number | string | function | foreign => rfl

/-- Statements that end in the same way, by themselves at the same point of the program. -/
inductive Completes (scopes : Scopes) (layout : Layout) :
    Loxley.Completion → Completion → Machine → State → Prop
  | normal {place : Place} {machine : Machine} {state : State}
      (stands : Stands layout machine state scopes place) :
      Completes scopes layout .normal (.normal place) machine state
  | returned {value : Loxley.Value} {content : Value} {machine : Machine} {state : State}
      (alike : Alike layout machine.heap value content) :
      Completes scopes layout (.returned value) (.returned content) machine state

/-- Bodies that end in the same way. -/
inductive Ends (layout : Layout) : Loxley.Completion → Completion → Machine → State → Prop
  | normal {place : Place} {machine : Machine} {state : State} :
      Ends layout .normal (.normal place) machine state
  | returned {value : Loxley.Value} {content : Value} {machine : Machine} {state : State}
      (alike : Alike layout machine.heap value content) :
      Ends layout (.returned value) (.returned content) machine state

/-- Bodies of a scope that end in the same way, seen from the point around them. -/
def Leaves (scopes : Scopes) (place : Place) (layout : Layout) (completion : Loxley.Completion)
    (other : Completion) (machine : Machine) (state : State) : Prop :=
  Ends layout completion other machine state ∧
    (completion = .normal → Stands layout machine state scopes place)

/-- The same function about to be applied to the same arguments on both sides. -/
structure Calls (layout : Layout) (machine : Machine) (state : State) (callee : Loxley.Value)
    (content : Value) (arguments : List Loxley.Value) (contents : List Value) : Prop where
  sound : machine.Sound .valuesOnly
  known : machine.Knows .valuesOnly callee
  argumentsKnown : ∀ argument ∈ arguments, machine.Knows .valuesOnly argument
  related : Related layout machine state
  alike : Alike layout machine.heap callee content
  argumentsAlike : List.Forall₂ (Alike layout machine.heap) arguments contents

/-- All parts of the two evaluators agree on accepted code, for an amount of fuel. -/
structure Simulates (fuel : Nat) : Prop where
  evaluate : ∀ (layout : Layout) (machine : Machine) (state : State) (scopes : Scopes)
    (place : Place) (initializing : Option Text) (expr : Expr Unit),
    Stands layout machine state scopes place → scopes.Initializes initializing →
    expr.Accepted (scopes.during initializing) → expr.Spares initializing →
    Agrees layout valued
      (Machine.evaluate fuel (expr.resolve (scopes.during initializing)) machine)
      (Lexical.evaluate fuel place.names expr state)
  evaluateAll : ∀ (layout : Layout) (machine : Machine) (state : State) (scopes : Scopes)
    (place : Place) (initializing : Option Text) (exprs : List (Expr Unit)),
    Stands layout machine state scopes place → scopes.Initializes initializing →
    Expr.AcceptedAll (scopes.during initializing) exprs → Expr.SparesAll initializing exprs →
    Agrees layout valuedAll
      (Machine.evaluateAll fuel (Expr.resolveAll (scopes.during initializing) exprs) machine)
      (Lexical.evaluateAll fuel place.names exprs state)
  call : ∀ (layout : Layout) (machine : Machine) (state : State) (paren : Token)
    (callee : Loxley.Value) (content : Value) (arguments : List Loxley.Value)
    (contents : List Value), Calls layout machine state callee content arguments contents →
    Agrees layout valued (Machine.call fuel paren callee arguments machine)
      (Lexical.call fuel paren content contents state)
  apply : ∀ (layout : Layout) (machine : Machine) (state : State)
    (callee : Loxley.Value) (content : Value) (arguments : List Loxley.Value)
    (contents : List Value), Calls layout machine state callee content arguments contents →
    callee.arity? = some (arguments.length : Int) →
    Replies layout (Machine.apply fuel callee arguments machine)
      (Lexical.apply fuel content contents state)
  execute : ∀ (layout : Layout) (machine : Machine) (state : State) (inFunction : Bool)
    (scopes : Scopes) (place : Place) (stmt : Stmt Unit),
    Stands layout machine state scopes place → stmt.Accepted inFunction scopes →
    stmt.assignsOwn (!scopes.isEmpty) = false →
    Agrees layout (Completes (stmt.extend scopes))
      (Machine.execute fuel (stmt.resolve scopes) machine) (Lexical.execute fuel place stmt state)
  executeAll : ∀ (layout : Layout) (machine : Machine) (state : State) (inFunction : Bool)
    (scopes : Scopes) (place : Place) (stmts : List (Stmt Unit)),
    Stands layout machine state scopes place → Stmt.AcceptedAll inFunction scopes stmts →
    Stmt.assignsOwnAll (!scopes.isEmpty) stmts = false →
    Agrees layout Ends (Machine.executeAll fuel (Stmt.resolveAll scopes stmts) machine)
      (Lexical.executeAll fuel place stmts state)

namespace Simulates

variable {fuel : Nat} {layout : Layout} {machine : Machine} {state : State} {scopes : Scopes}
  {place : Place}

private theorem evaluate_succ (ih : Simulates fuel) {initializing : Option Text}
    {expr : Expr Unit} (stands : Stands layout machine state scopes place)
    (fresh : scopes.Initializes initializing)
    (accepted : expr.Accepted (scopes.during initializing)) (spares : expr.Spares initializing) :
    Agrees layout valued
      (Machine.evaluate (fuel + 1) (expr.resolve (scopes.during initializing)) machine)
      (Lexical.evaluate (fuel + 1) place.names expr state) := by
  have evaluated := fun layout machine state =>
    ih.evaluate layout machine state scopes place initializing
  cases expr with
  | literal token value => exact .ok (.refl layout) stands.related (.ofLiteral _ _ value)
  | group paren inner => exact evaluated _ _ _ inner stands fresh accepted.of_group spares.of_group
  | unary op token operand =>
      refine (evaluated _ _ _ operand stands fresh accepted.of_unary spares.of_unary).andThen
        fun later value content after next ran grown related alike => ?_
      rw [alike.similar.applyUnary]
      exact related.finish token fun given applied => UnaryOp.apply_eq_ok applied
  | binary op token left right =>
      obtain ⟨leftAccepted, rightAccepted⟩ := accepted.of_binary
      obtain ⟨leftSpares, rightSpares⟩ := spares.of_binary
      refine (evaluated _ _ _ left stands fresh leftAccepted leftSpares).andThen
        fun later leftValue leftContent middle next ran grown related leftAlike => ?_
      obtain ⟨middleStands, _⟩ := stands.after_evaluate fresh leftAccepted ran grown related
      refine (evaluated _ _ _ right middleStands fresh rightAccepted rightSpares).andThen
        fun last rightValue rightContent after final _ _ related rightAlike => ?_
      exact related.operate op token leftAlike rightAlike
  | logical op token left right =>
      obtain ⟨leftAccepted, rightAccepted⟩ := accepted.of_logical
      obtain ⟨leftSpares, rightSpares⟩ := spares.of_logical
      refine (evaluated _ _ _ left stands fresh leftAccepted leftSpares).andThen
        fun later value content middle next ran grown related alike => ?_
      obtain ⟨middleStands, _⟩ := stands.after_evaluate fresh leftAccepted ran grown related
      rw [alike.similar.isDecidedBy]
      split
      · exact .ok (.refl later) related alike
      · exact evaluated _ _ _ right middleStands fresh rightAccepted rightSpares
  | ident name reference =>
      have same := Scopes.distance?_during_of_pendingRead_eq_nil accepted.faultless
      simp only [Expr.resolve, same]
      exact stands.read name
  | assign name reference value =>
      obtain ⟨other, valueSpares⟩ := spares.of_assign
      refine (evaluated _ _ _ value stands fresh accepted.of_assign valueSpares).andThen
        fun later given content after next ran grown related alike => ?_
      obtain ⟨afterStands, _⟩ :=
        stands.after_evaluate fresh accepted.of_assign ran grown related
      rw [Scopes.distance?_during_of_ne other]
      exact afterStands.assign name alike
  | call paren callee arguments =>
      obtain ⟨calleeAccepted, argumentsAccepted⟩ := accepted.of_call
      obtain ⟨calleeSpares, argumentsSpare⟩ := spares.of_call
      refine (evaluated _ _ _ callee stands fresh calleeAccepted calleeSpares).andThen
        fun later function content middle next ran grown related alike => ?_
      obtain ⟨middleStands, known⟩ :=
        stands.after_evaluate fresh calleeAccepted ran grown related
      refine (ih.evaluateAll _ _ _ scopes place initializing arguments middleStands fresh
          argumentsAccepted argumentsSpare).andThen
        fun last values contents after final argued grownLast relatedLast valuesAlike => ?_
      have met := middleStands.ready.evaluateAll fresh argumentsAccepted fuel
      rw [argued] at met
      obtain ⟨⟨afterSound, valuesKnown⟩, follows⟩ := met
      exact ih.call _ _ _ paren function content values contents
        ⟨afterSound, known.follow follows, valuesKnown, relatedLast,
          alike.grow grownLast follows.heap, valuesAlike⟩

private theorem evaluateAll_succ (ih : Simulates fuel) {initializing : Option Text}
    {exprs : List (Expr Unit)} (stands : Stands layout machine state scopes place)
    (fresh : scopes.Initializes initializing)
    (accepted : Expr.AcceptedAll (scopes.during initializing) exprs)
    (spares : Expr.SparesAll initializing exprs) :
    Agrees layout valuedAll
      (Machine.evaluateAll (fuel + 1) (Expr.resolveAll (scopes.during initializing) exprs) machine)
      (Lexical.evaluateAll (fuel + 1) place.names exprs state) := by
  cases exprs with
  | nil => exact .ok (.refl layout) stands.related .nil
  | cons first rest =>
      obtain ⟨firstAccepted, restAccepted⟩ := accepted.of_cons
      refine (ih.evaluate _ _ _ scopes place initializing first stands fresh firstAccepted
          (spares first (.head _))).andThen
        fun later value content middle next ran grown related alike => ?_
      obtain ⟨middleStands, _⟩ := stands.after_evaluate fresh firstAccepted ran grown related
      refine (ih.evaluateAll _ _ _ scopes place initializing rest middleStands fresh restAccepted
          fun expr member => spares expr (.tail _ member)).andThen
        fun last values contents after final argued grownLast relatedLast valuesAlike => ?_
      have follows := Machine.evaluateAll_steady fuel middle
        (Expr.resolveAll (scopes.during initializing) rest)
      rw [argued] at follows
      exact .ok (.refl last) relatedLast (.cons (alike.grow grownLast follows.heap) valuesAlike)

private theorem call_succ (ih : Simulates fuel) {paren : Token} {callee : Loxley.Value}
    {content : Value} {arguments : List Loxley.Value} {contents : List Value}
    (calls : Calls layout machine state callee content arguments contents) :
    Agrees layout valued (Machine.call (fuel + 1) paren callee arguments machine)
      (Lexical.call (fuel + 1) paren content contents state) := by
  have related := calls.related
  simp only [Machine.call, Lexical.call, calls.alike.similar.arity?,
    ← calls.argumentsAlike.length_eq]
  cases hasArity : callee.arity? with
  | none => exact .error (.refl layout) related
  | some arity =>
      simp only
      by_cases wrong : (arguments.length : Int) ≠ arity
      · simp only [if_pos wrong]
        exact .error (.refl layout) related
      by_cases full : machine.callLimit ≤ machine.depth
      · have alsoFull : state.callLimit ≤ state.depth := by
          rwa [← related.callLimit, ← related.depth]
        simp only [if_neg wrong, if_pos full, if_pos alsoFull]
        exact .error (.refl layout) related
      have alsoRoom : ¬ state.callLimit ≤ state.depth := by
        rwa [← related.callLimit, ← related.depth]
      simp only [if_neg wrong, if_neg full, if_neg alsoRoom]
      have deeper := related.atDepth (congrArg (· + 1) related.depth)
      have applied := ih.apply layout _ _ callee content arguments contents
        { calls with sound := calls.sound.atDepth (machine.depth + 1), related := deeper }
        (hasArity.trans (congrArg some (Decidable.not_not.mp wrong).symm))
      obtain ⟨body, replied, agreed⟩ := applied
      rw [replied]
      generalize Lexical.apply fuel content contents _ = other at agreed ⊢
      cases agreed with
      | ok grown later alike =>
          simp only [Loxley.Result.reply, Loxley.Result.andThen, conclude_value alike]
          exact .ok grown (later.atDepth related.depth) alike
      | error grown later => exact .error grown (later.atDepth related.depth)
      | exhausted => exact .exhausted

private theorem apply_function (ih : Simulates fuel) {closure : Loxley.Closure}
    {lexical : Closure} {arguments : List Loxley.Value} {contents : List Value}
    (calls : Calls layout machine state (.function closure) (.function lexical) arguments contents)
    (captured : Captures layout machine.heap scopes closure lexical)
    (enough : closure.parameters.length ≤ arguments.length) :
    Replies layout (Machine.apply (fuel + 1) (.function closure) arguments machine)
      (Lexical.apply (fuel + 1) (.function lexical) contents state) := by
  have analysed := captured.analysed
  have extended := Heap.Extends.create (fun _ => False) machine.heap (some closure.scope)
  have entered : Stands layout (machine.enter closure.scope) state ([] :: scopes)
      (.inner lexical.names) :=
    { ready := .enter calls.sound analysed.covers analysed.known
      related := calls.related.enter closure.scope
      sights := captured.sights.enter analysed.known
      isTop := by simp }
  obtain ⟨later, grown, bound⟩ := entered.bindParameters captured.distinct
    (fun argument member => (calls.argumentsKnown argument member).extend extended)
    (calls.argumentsAlike.imp fun _ _ alike => alike.grow (.refl layout) extended) enough
  have executed := ih.executeAll later _ _ true (scopes.enterFunction closure.parameters) _
    lexical.body bound analysed.accepted (by simpa using captured.spares)
  simp only [Machine.apply, if_neg (Nat.not_lt.mpr enough), Lexical.apply, analysed.resolved,
    ← captured.parameters]
  generalize Machine.executeAll fuel _ _ = result at executed ⊢
  generalize Lexical.executeAll fuel _ _ _ = other at executed ⊢
  refine ⟨(result.andThen fun completion after => .ok completion.value after).ensuring
    (Machine.leaveTo machine.current), by cases result <;> rfl, ?_⟩
  cases executed with
  | ok grownLater related held =>
      refine .ok (grown.trans grownLater) (related.leaveTo machine.current) ?_
      cases held with
      | normal => exact .ofLiteral _ _ .nil
      | returned alike => exact alike
  | error grownLater related =>
      exact .error (grown.trans grownLater) (related.leaveTo machine.current)
  | exhausted => exact .exhausted

private theorem apply_native {reference : NativeRef} {arguments : List Loxley.Value}
    {contents : List Value}
    (calls : Calls layout machine state (.native reference) (.plain (.native reference)) arguments
      contents) :
    Replies layout (Machine.apply (fuel + 1) (.native reference) arguments machine)
      (Lexical.apply (fuel + 1) (.plain (.native reference)) contents state) := by
  have natives := calls.related.natives
  have first : reference.identity = 0 := by
    have inside := calls.known
    simp only [Machine.Knows, Loxley.Value.Sound, Machine.hostCode, natives] at inside
    simpa using inside
  refine ⟨.ok (.number (state.readings state.clockCalls)) (machine.countCall 0 arguments), ?_, ?_⟩
  · simp only [Machine.apply, first, natives]
    rfl
  · exact .ok (.refl layout) (calls.related.countCall arguments)
      (.ofLiteral _ _ (.number _))

private theorem apply_succ (ih : Simulates fuel) {callee : Loxley.Value} {content : Value}
    {arguments : List Loxley.Value} {contents : List Value}
    (calls : Calls layout machine state callee content arguments contents)
    (arity : callee.arity? = some (arguments.length : Int)) :
    Replies layout (Machine.apply (fuel + 1) callee arguments machine)
      (Lexical.apply (fuel + 1) content contents state) := by
  cases calls.alike with
  | function captured =>
      refine ih.apply_function calls captured ?_
      exact Nat.le_of_eq (Int.ofNat.inj (Option.some.inj arity))
  | plain isPlain =>
      cases callee with
      | nil | bool _ | number _ | string _ | foreign _ => cases arity
      | function closure => exact absurd rfl (isPlain closure)
      | native reference => exact apply_native calls

/-- A body in a new environment, after which the environment around it is current again. -/
private theorem nested_body (ih : Simulates fuel) {inFunction : Bool} {body : List (Stmt Unit)}
    (stands : Stands layout machine state scopes place)
    (accepted : Stmt.AcceptedAll inFunction ([] :: scopes) body)
    (spares : Stmt.assignsOwnAll true body = false) :
    Agrees layout (Leaves scopes place)
      ((Machine.executeAll fuel (Stmt.resolveAll ([] :: scopes) body)
        (machine.enter machine.current)).ensuring (Machine.leaveTo machine.current))
      (Lexical.executeAll fuel (.inner place.names) body state) := by
  have executed := ih.executeAll layout _ state inFunction ([] :: scopes) (.inner place.names) body
    stands.enter accepted spares
  have met := stands.ready.nested accepted fuel
  generalize Machine.executeAll fuel _ _ = result at executed met ⊢
  generalize Lexical.executeAll fuel _ _ _ = other at executed ⊢
  cases executed with
  | ok grown related held =>
      have left := related.leaveTo machine.current
      refine .ok grown left ⟨?_, fun normal => stands.follow (met.1.2.2 normal) met.2 grown left⟩
      cases held with
      | normal => exact .normal
      | returned alike => exact .returned alike
  | error grown related => exact .error grown (related.leaveTo machine.current)
  | exhausted => exact .exhausted

private theorem execute_declare (ih : Simulates fuel) {inFunction : Bool} {name : Token}
    {initializer : Option (Expr Unit)} (stands : Stands layout machine state scopes place)
    (accepted : (Stmt.declare name initializer).Accepted inFunction scopes)
    (spares : (Stmt.declare name initializer).assignsOwn (!scopes.isEmpty) = false) :
    Agrees layout (Completes (scopes.declare name.lexeme true))
      (Machine.execute (fuel + 1) ((Stmt.declare name initializer).resolve scopes) machine)
      (Lexical.execute (fuel + 1) place (.declare name initializer) state) := by
  obtain ⟨fresh, initializerAccepted⟩ := accepted.of_declare
  cases initializer with
  | none =>
      have nilKnown : machine.Knows .valuesOnly .nil := trivial
      have declared := stands.declare fresh nilKnown (.ofLiteral _ _ .nil)
      exact .ok (stands.grows_declare fresh) declared.related (.normal declared)
  | some initializer =>
      have pending := initializerAccepted initializer rfl
      have initializerSpares : initializer.Spares (scopes.initialized name.lexeme) := by
        intro sought same
        cases scopes with
        | nil => cases same
        | cons innermost outer =>
            cases same
            simpa [Stmt.assignsOwn] using spares
      simp only [Stmt.resolve, Option.map_some]
      rw [← Scopes.during_initialized] at pending ⊢
      have initializes := Scopes.initializes_initialized fresh
      refine (ih.evaluate _ _ _ scopes place _ initializer stands initializes pending
          initializerSpares).andThen
        fun later value content after next ran grown related alike => ?_
      obtain ⟨afterStands, known⟩ := stands.after_evaluate initializes pending ran grown related
      have declared := afterStands.declare fresh known alike
      exact .ok (afterStands.grows_declare fresh) declared.related (.normal declared)

private theorem execute_succ (ih : Simulates fuel) {inFunction : Bool} {stmt : Stmt Unit}
    (stands : Stands layout machine state scopes place) (accepted : stmt.Accepted inFunction scopes)
    (spares : stmt.assignsOwn (!scopes.isEmpty) = false) :
    Agrees layout (Completes (stmt.extend scopes))
      (Machine.execute (fuel + 1) (stmt.resolve scopes) machine)
      (Lexical.execute (fuel + 1) place stmt state) := by
  have initializes := Scopes.initializes_none scopes
  have evaluated : ∀ {expr : Expr Unit}, expr.Accepted scopes → Agrees layout valued
      (Machine.evaluate fuel (expr.resolve scopes) machine)
      (Lexical.evaluate fuel place.names expr state) := fun {expr} accepted =>
    ih.evaluate layout machine state scopes place none expr stands initializes accepted
      expr.spares_none
  cases stmt with
  | expression token value =>
      refine (evaluated accepted.of_expression).andThen
        fun later given content after next ran grown related alike => ?_
      obtain ⟨afterStands, _⟩ :=
        stands.after_evaluate initializes accepted.of_expression ran grown related
      exact .ok (.refl later) related (.normal afterStands)
  | print keyword value =>
      refine (evaluated accepted.of_print).andThen
        fun later given content after next ran grown related alike => ?_
      obtain ⟨afterStands, _⟩ := stands.after_evaluate initializes accepted.of_print ran grown related
      simp only [Machine.print, alike.text?]
      generalize content.outline.text?.getD [] = text
      have written := Machine.Follows.writeLine (fun _ => False) after text
      have ready := afterStands.ready.follow (afterStands.ready.sound.writeLine text) written
      have same := related.writeLine text
      exact .ok (.refl later) same (.normal (afterStands.follow ready written (.refl later) same))
  | declare name initializer => exact ih.execute_declare stands accepted spares
  | block brace body =>
      have nested := ih.nested_body stands accepted.of_block spares
      simp only [Stmt.resolve, Machine.execute, Lexical.execute, Stmt.extend]
      generalize Loxley.Result.ensuring _ _ = result at nested ⊢
      generalize Lexical.executeAll fuel _ _ _ = other at nested ⊢
      cases nested with
      | ok grown related held =>
          obtain ⟨ends, around⟩ := held
          cases ends with
          | normal => exact .ok grown related (.normal (around rfl))
          | returned alike => exact .ok grown related (.returned alike)
      | error grown related => exact .error grown related
      | exhausted => exact .exhausted
  | ifThen keyword test consequent =>
      obtain ⟨testAccepted, plain, consequentAccepted⟩ := accepted.of_ifThen
      refine (evaluated testAccepted).andThen
        fun later given content after next ran grown related alike => ?_
      obtain ⟨afterStands, _⟩ := stands.after_evaluate initializes testAccepted ran grown related
      rw [alike.similar.isTruthy]
      split
      · exact ih.execute _ _ _ inFunction scopes place consequent afterStands consequentAccepted
          spares
      · rw [Stmt.extend, Stmt.extend_of_plain plain]
        exact .ok (.refl later) related (.normal afterStands)
  | ifElse keyword test consequent alternative =>
      obtain ⟨testAccepted, ⟨consequentPlain, consequentAccepted⟩, alternativePlain,
        alternativeAccepted⟩ := accepted.of_ifElse
      obtain ⟨consequentSpares, alternativeSpares⟩ := Bool.or_eq_false_iff.mp spares
      have consequentKept : consequent.extend scopes = scopes := Stmt.extend_of_plain consequentPlain
      have alternativeKept : alternative.extend scopes = scopes :=
        Stmt.extend_of_plain alternativePlain
      simp only [Stmt.extend, Stmt.resolve, consequentKept, alternativeKept]
      refine (evaluated testAccepted).andThen
        fun later given content after next ran grown related alike => ?_
      obtain ⟨afterStands, _⟩ := stands.after_evaluate initializes testAccepted ran grown related
      rw [alike.similar.isTruthy]
      split
      · have executed := ih.execute _ _ _ inFunction scopes place consequent afterStands
          consequentAccepted consequentSpares
        rwa [consequentKept] at executed
      · have executed := ih.execute _ _ _ inFunction scopes place alternative afterStands
          alternativeAccepted alternativeSpares
        rwa [alternativeKept] at executed
  | loop keyword test body =>
      obtain ⟨testAccepted, _, bodyAccepted⟩ := accepted.of_loop
      refine (evaluated testAccepted).andThen
        fun later given content middle next ran grown related alike => ?_
      obtain ⟨middleStands, _⟩ := stands.after_evaluate initializes testAccepted ran grown related
      rw [alike.similar.isTruthy]
      split
      · have bodySpares : Stmt.assignsOwnAll true [body] = false :=
          Bool.or_eq_false_iff.mpr ⟨spares, rfl⟩
        refine (ih.nested_body middleStands bodyAccepted.singleton bodySpares).andThen
          fun last completion other after final _ _ relatedLast left => ?_
        obtain ⟨ends, around⟩ := left
        cases ends with
        | normal =>
            exact ih.execute _ _ _ inFunction scopes place (.loop keyword test body) (around rfl)
              accepted spares
        | returned alike => exact .ok (.refl last) relatedLast (.returned alike)
      · exact .ok (.refl later) related (.normal middleStands)
  | function name parameters body =>
      obtain ⟨fresh, distinct, bodyAccepted⟩ := accepted.of_function
      have declared := stands.declareFunction fresh distinct bodyAccepted spares
      exact .ok (stands.grows_declare fresh) declared.related (.normal declared)
  | giveBack keyword value =>
      cases value with
      | none =>
          exact .ok (.refl layout) stands.related (.returned (.ofLiteral _ _ .nil))
      | some value =>
          refine (evaluated (accepted.of_giveBack value rfl)).andThen
            fun later given content after next _ _ related alike => ?_
          exact .ok (.refl later) related (.returned alike)

private theorem executeAll_succ (ih : Simulates fuel) {inFunction : Bool}
    {stmts : List (Stmt Unit)} (stands : Stands layout machine state scopes place)
    (accepted : Stmt.AcceptedAll inFunction scopes stmts)
    (spares : Stmt.assignsOwnAll (!scopes.isEmpty) stmts = false) :
    Agrees layout Ends (Machine.executeAll (fuel + 1) (Stmt.resolveAll scopes stmts) machine)
      (Lexical.executeAll (fuel + 1) place stmts state) := by
  cases stmts with
  | nil => exact .ok (.refl layout) stands.related .normal
  | cons first rest =>
      obtain ⟨firstAccepted, restAccepted⟩ := accepted.of_cons
      obtain ⟨firstSpares, restSpares⟩ := Bool.or_eq_false_iff.mp spares
      rw [← Stmt.isEmpty_extend first scopes] at restSpares
      refine (ih.execute _ _ _ inFunction scopes place first stands firstAccepted
          firstSpares).andThen
        fun later completion other after next _ _ related held => ?_
      cases held with
      | normal afterStands =>
          exact ih.executeAll _ _ _ inFunction _ _ rest afterStands restAccepted restSpares
      | returned alike => exact .ok (.refl later) related (.returned alike)

end Simulates

theorem simulates (fuel : Nat) : Simulates fuel := by
  induction fuel with
  | zero =>
      constructor <;> intros
      case apply => exact ⟨.exhausted, rfl, .exhausted⟩
      all_goals exact .exhausted
  | succ fuel ih =>
      constructor
      · intros; exact ih.evaluate_succ ‹_› ‹_› ‹_› ‹_›
      · intros; exact ih.evaluateAll_succ ‹_› ‹_› ‹_› ‹_›
      · intros; exact ih.call_succ ‹_›
      · intros; exact ih.apply_succ ‹_› ‹_›
      · intros; exact ih.execute_succ ‹_› ‹_› ‹_›
      · intros; exact ih.executeAll_succ ‹_› ‹_› ‹_›

end Lexical

end Loxley
