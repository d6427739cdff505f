import Loxley.Proofs.Soundness

/-!
# Accepted code does not go wrong

Running accepted code on a sound machine leaves a sound machine behind, however much fuel there is
and however the run ends. All work that is visited on the way is again work on accepted code, or on
values that belong to the machine.
-/

set_option autoImplicit false

namespace Loxley

theorem Value.callable_of_arity? {callee : Value} (arity : ∃ arity, callee.arity? = some arity) :
    (∃ closure, callee = .function closure) ∨ ∃ reference, callee = .native reference := by
  obtain ⟨arity, isSome⟩ := arity
  cases callee with
  | function closure => exact .inl ⟨closure, rfl⟩
  | native reference => exact .inr ⟨reference, rfl⟩
  | nil | bool _ | number _ | string _ | foreign _ => cases isSome

namespace Machine

section Specification

variable {α : Type} (policy : HostPolicy)

/--
Ends on a sound machine, and if there is a value, something holds of it. A fault is one at a thing of
the host.
-/
def soundly (holds : α → Machine → Prop) : Post α where
  ok value machine := machine.Sound policy ∧ holds value machine
  error _ machine := machine.Sound policy
  fault reason machine := machine.Sound policy ∧ reason.Foreign policy

/-- The same, together with the frame of the computation. -/
abbrev safely (growing : EnvironmentId → Prop) (before : Machine) (holds : α → Machine → Prop) :
    Post α :=
  (soundly policy holds).and (.always (Follows growing before))

/-- What a function gave back. Only host functions may give back things of the host. -/
def KnowsReply (machine : Machine) (callee : Value) (reply : HostReply) : Prop :=
  reply.Within policy.answers (machine.Knows policy) ∧
    ∀ closure, callee = .function closure → machine.Knows policy reply.value

/-- A statement that ends by itself leaves a machine on which the code after it can run. -/
def Completes (scopes : Scopes) (completion : Completion) (machine : Machine) : Prop :=
  machine.Knows policy completion.value ∧ (completion = .normal → machine.Ready policy scopes)

end Specification

variable {policy : HostPolicy} {scopes : Scopes} {initializing : Option Text}
  {machine : Machine}

theorem completes_returned {value : Value} (known : machine.Knows policy value) :
    Completes policy scopes (.returned value) machine :=
  ⟨known, fun same => Completion.noConfusion same⟩

theorem finish_soundly (isSound : machine.Sound policy) (token : Token)
    {value : Except Mishap Value} (known : ∀ given, value = .ok given → machine.Knows policy given) :
    (machine.finish token value).Meets
      (soundly policy fun given after => after.Knows policy given) := by
  cases value with
  | ok given => exact ⟨isSound, known given rfl⟩
  | error mishap => exact isSound

theorem operate_soundly (isSound : machine.Sound policy) (op : BinaryOp) (token : Token)
    {left right : Value} (known : machine.Knows policy left) :
    (machine.operate op token left right).Meets
      (soundly policy fun given after => after.Knows policy given) := by
  unfold operate
  split
  · next typeName clash =>
      refine ⟨isSound, ?_⟩
      unfold BinaryOp.clash? at clash
      split at clash
      · exact ⟨_, known⟩
      · exact ⟨_, known⟩
      · cases clash
  · refine finish_soundly isSound token fun given applied => ?_
    obtain ⟨literal, rfl⟩ := BinaryOp.apply_eq_ok applied
    exact Value.sound_ofLiteral _ _ _ literal

theorem print_soundly (isSound : machine.Sound policy) {value : Value}
    (known : machine.Knows policy value) :
    (machine.print value).Meets (soundly policy fun _ _ => True) := by
  unfold print
  split
  · exact ⟨isSound.writeLine _, trivial⟩
  · next noText =>
      refine ⟨isSound, ?_⟩
      cases value with
      | foreign thing => exact ⟨thing, known⟩
      | nil | bool _ | number _ | string _ | function _ | native _ => cases noText

theorem conclude_soundly (isSound : machine.Sound policy) (token : Token) {callee : Value}
    {reply : HostReply} (known : machine.KnowsReply policy callee reply)
    (arity : ∃ arity, callee.arity? = some arity) :
    (machine.conclude token callee reply).Meets
      (soundly policy fun given after => after.Knows policy given) := by
  unfold conclude
  split
  · exact isSound
  · refine finish_soundly isSound token fun given converted => ?_
    rcases known.1 with belongs | ⟨thing, _, isThing⟩
    · generalize reply.value = value at belongs converted
      cases value with
      | foreign thing => cases thing <;> cases converted <;> trivial
      | nil | bool _ | number _ | string _ | function _ | native _ =>
          cases converted
          exact belongs
    · rw [isThing] at converted
      cases thing <;> cases converted <;> trivial
  · next notNative =>
      refine ⟨isSound, ?_⟩
      obtain ⟨closure, rfl⟩ | ⟨reference, rfl⟩ := Value.callable_of_arity? arity
      · exact known.2 closure rfl
      · exact (notNative reference rfl).elim

theorem read_soundly (ready : machine.Ready policy scopes) {name : Token}
    (readable : (scopes.during initializing).pendingRead name = []) :
    (machine.read name ((scopes.during initializing).distance? name.lexeme)).Meets
      (soundly policy fun value after => after.Knows policy value) := by
  cases found : (scopes.during initializing).distance? name.lexeme with
  | none =>
      simp only [read, Heap.get?]
      cases seen : (machine.heap.chain globals).findSome? (machine.heap.lookup? · name.lexeme) with
      | none => exact ready.sound
      | some value =>
          obtain ⟨owner, _, held⟩ := List.exists_of_findSome?_eq_some seen
          exact ⟨ready.sound, ready.sound.values owner name.lexeme value held⟩
  | some distance =>
      obtain ⟨owner, reached, bound⟩ := ready.hosted.covers.of_pendingRead_eq_nil readable found
      obtain ⟨value, held⟩ := Option.isSome_iff_exists.mp bound
      simp only [read, Heap.getAt, reached, held]
      exact ⟨ready.sound, ready.sound.values owner name.lexeme value held⟩

theorem assign_soundly (ready : machine.Ready policy scopes) {name : Token} {value : Value}
    (known : machine.Knows policy value) :
    (machine.assign name value ((scopes.during initializing).distance? name.lexeme)).Meets
      (soundly policy fun assigned after => after.Knows policy assigned) := by
  have stored : ∀ owner, machine.heap.binds owner name.lexeme = true →
      Machine.Sound policy { machine with heap := machine.heap.define owner name.lexeme value } ∧
        Knows policy { machine with heap := machine.heap.define owner name.lexeme value } value := by
    intro owner bound
    have follows : Follows (fun _ => False) machine
        { machine with heap := machine.heap.define owner name.lexeme value } :=
      .define_of_binds bound value
    exact ⟨ready.sound.define follows known, known.follow follows⟩
  cases found : (scopes.during initializing).distance? name.lexeme with
  | none =>
      simp only [assign]
      cases seen : machine.heap.owner? globals name.lexeme with
      | none => exact ready.sound
      | some owner => exact stored owner (by simpa using List.find?_some seen)
  | some distance =>
      obtain ⟨owner, reached⟩ := ready.hosted.ancestor?_during found
      simp only [assign, Heap.ownerAt, reached]
      by_cases bound : machine.heap.binds owner name.lexeme = true
      · simp only [bound, if_true]
        exact stored owner bound
      · simp only [bound]
        exact ready.sound

theorem Ready.initializing_eq (ready : machine.Ready policy scopes) (name : Token) :
    machine.initializing name = scopes.initialized name.lexeme := by
  cases scopes with
  | nil => exact if_pos (ready.hosted.isTop.mp rfl)
  | cons innermost outer =>
      exact if_neg fun isTop => List.cons_ne_nil innermost outer (ready.hosted.isTop.mpr isTop)

end Machine

namespace Visit

open Machine

/-- Work on accepted code, or on values that belong to the machine, and how it should end. -/
inductive Ready (policy : HostPolicy) : (visit : Visit) → Post visit.task.Answer → Prop
  | evaluate {scopes : Scopes} {pending : Option Text} {source : Expr Unit} {machine : Machine}
      (ready : machine.Ready policy scopes) (fresh : scopes.Initializes pending)
      (accepted : source.Accepted (scopes.during pending)) :
      Ready policy ⟨.evaluate pending (source.resolve (scopes.during pending)), machine⟩
        (safely policy (fun _ => False) machine fun value after => after.Knows policy value)
  | evaluateAll {scopes : Scopes} {pending : Option Text} {sources : List (Expr Unit)}
      {machine : Machine} (ready : machine.Ready policy scopes) (fresh : scopes.Initializes pending)
      (accepted : Expr.AcceptedAll (scopes.during pending) sources) :
      Ready policy ⟨.evaluateAll pending (Expr.resolveAll (scopes.during pending) sources), machine⟩
        (safely policy (fun _ => False) machine
          fun values after => ∀ value ∈ values, after.Knows policy value)
  | assign {scopes : Scopes} {pending : Option Text} {name : Token} {value : Value}
      {machine : Machine} (ready : machine.Ready policy scopes) (fresh : scopes.Initializes pending)
      (known : machine.Knows policy value) :
      Ready policy
        ⟨.assign pending name ((scopes.during pending).distance? name.lexeme) value, machine⟩
        (safely policy (fun _ => False) machine fun value after => after.Knows policy value)
  | call {paren : Token} {callee : Value} {arguments : List Value} {machine : Machine}
      (isSound : machine.Sound policy) (known : machine.Knows policy callee)
      (argumentsKnown : ∀ argument ∈ arguments, machine.Knows policy argument) :
      Ready policy ⟨.call paren callee arguments, machine⟩
        (safely policy (fun _ => False) machine fun value after => after.Knows policy value)
  | apply {callee : Value} {arguments : List Value} {machine : Machine}
      (isSound : machine.Sound policy) (known : machine.Knows policy callee)
      (argumentsKnown : ∀ argument ∈ arguments, machine.Knows policy argument)
      (arity : callee.arity? = some (arguments.length : Int)) :
      Ready policy ⟨.apply callee arguments, machine⟩
        (safely policy (fun _ => False) machine
          fun reply after => after.KnowsReply policy callee reply)
  | execute {inFunction : Bool} {scopes : Scopes} {source : Stmt Unit} {machine : Machine}
      (ready : machine.Ready policy scopes) (accepted : source.Accepted inFunction scopes) :
      Ready policy ⟨.execute (source.resolve scopes), machine⟩
        (safely policy (· = machine.current) machine (Completes policy (source.extend scopes)))
  | executeAll {inFunction : Bool} {scopes : Scopes} {sources : List (Stmt Unit)}
      {machine : Machine} (ready : machine.Ready policy scopes)
      (accepted : Stmt.AcceptedAll inFunction scopes sources) :
      Ready policy ⟨.executeAll (Stmt.resolveAll scopes sources), machine⟩
        (safely policy (· = machine.current) machine
          fun completion after => after.Knows policy completion.value)
  | interpret {sources : List (Stmt Unit)} {machine : Machine} (ready : machine.Ready policy [])
      (accepted : Stmt.AcceptedAll false [] sources) :
      Ready policy ⟨.interpret (Stmt.resolveAll [] sources), machine⟩
        (safely policy (· = machine.current) machine fun _ after => after.Ready policy [])

section Rules

variable {policy : HostPolicy} {scopes : Scopes} {pending : Option Text} {machine : Machine}
  {α β : Type} {growing : EnvironmentId → Prop} {plan : Plan α} {next : α → Machine → Plan β}
  {holds : α → Machine → Prop} {wanted : β → Machine → Prop}

private theorem ready_andThen (first : plan.Meets (Ready policy) (safely policy growing machine holds))
    (second : ∀ value after, after.Sound policy → Follows growing machine after →
      holds value after → (next value after).Meets (Ready policy) (soundly policy wanted)) :
    (plan.andThen next).Meets (Ready policy) (soundly policy wanted) :=
  first.andThen (fun value after met => second value after met.1.1 met.2 met.1.2)
    (fun _ _ met => met.1) (fun _ _ met => met.1)

private theorem ready_tail (met : plan.Meets (Ready policy) (safely policy growing machine holds)) :
    plan.Meets (Ready policy) (soundly policy holds) :=
  met.imp fun result safe => ((result.meets_and_iff _ _).mp safe).1

private theorem ready_evaluate {expr : Expr Unit} (ready : machine.Ready policy scopes)
    (fresh : scopes.Initializes pending) (accepted : expr.Accepted (scopes.during pending)) :
    (Plan.evaluate pending machine (expr.resolve (scopes.during pending))).Meets (Ready policy)
      (safely policy (fun _ => False) machine fun value after => after.Knows policy value) :=
  Plan.meets_start (.evaluate ready fresh accepted) fun _ ends => ends

private theorem ready_test {expr : Expr Unit} (ready : machine.Ready policy scopes)
    (accepted : expr.Accepted scopes) :
    (Plan.evaluate none machine (expr.resolve scopes)).Meets (Ready policy)
      (safely policy (fun _ => False) machine fun value after => after.Knows policy value) :=
  ready_evaluate ready scopes.initializes_none accepted

private theorem ready_evaluateAll {exprs : List (Expr Unit)} (ready : machine.Ready policy scopes)
    (fresh : scopes.Initializes pending)
    (accepted : Expr.AcceptedAll (scopes.during pending) exprs) :
    (Plan.evaluateAll pending machine (Expr.resolveAll (scopes.during pending) exprs)).Meets
      (Ready policy) (safely policy (fun _ => False) machine
        fun values after => ∀ value ∈ values, after.Knows policy value) :=
  Plan.meets_start (.evaluateAll ready fresh accepted) fun _ ends => ends

private theorem ready_execute {inFunction : Bool} {stmt : Stmt Unit}
    (ready : machine.Ready policy scopes) (accepted : stmt.Accepted inFunction scopes) :
    (Plan.execute machine (stmt.resolve scopes)).Meets (Ready policy)
      (safely policy (· = machine.current) machine (Completes policy (stmt.extend scopes))) :=
  Plan.meets_start (.execute ready accepted) fun _ ends => ends

private theorem ready_executeAll {inFunction : Bool} {stmts : List (Stmt Unit)}
    (ready : machine.Ready policy scopes) (accepted : Stmt.AcceptedAll inFunction scopes stmts) :
    (Plan.executeAll machine (Stmt.resolveAll scopes stmts)).Meets (Ready policy)
      (safely policy (· = machine.current) machine
        fun completion after => after.Knows policy completion.value) :=
  Plan.meets_start (.executeAll ready accepted) fun _ ends => ends

private theorem ready_planExpr {source : Expr Unit} (ready : machine.Ready policy scopes)
    (fresh : scopes.Initializes pending) (accepted : source.Accepted (scopes.during pending)) :
    (planExpr pending machine (source.resolve (scopes.during pending))).Meets (Ready policy)
      (soundly policy fun value after => after.Knows policy value) := by
  cases source with
  | literal token value => exact ⟨ready.sound, Value.sound_ofLiteral _ _ _ value⟩
  | group paren inner => exact ready_tail (ready_evaluate ready fresh accepted.of_group)
  | unary op token operand =>
      refine ready_andThen (ready_evaluate ready fresh accepted.of_unary)
        fun value after afterSound follows known => ?_
      refine finish_soundly afterSound token fun given applied => ?_
      obtain ⟨literal, rfl⟩ := UnaryOp.apply_eq_ok applied
      exact Value.sound_ofLiteral _ _ _ literal
  | binary op token left right =>
      obtain ⟨leftAccepted, rightAccepted⟩ := accepted.of_binary
      refine ready_andThen (ready_evaluate ready fresh leftAccepted)
        fun leftValue middle middleSound follows leftKnown => ?_
      refine ready_andThen (ready_evaluate (ready.follow middleSound follows) fresh rightAccepted)
        fun rightValue after afterSound later _ => ?_
      exact operate_soundly afterSound op token (leftKnown.follow later)
  | logical op token left right =>
      obtain ⟨leftAccepted, rightAccepted⟩ := accepted.of_logical
      refine ready_andThen (ready_evaluate ready fresh leftAccepted)
        fun value middle middleSound follows known => ?_
      split
      · exact ⟨middleSound, known⟩
      · exact ready_tail (ready_evaluate (ready.follow middleSound follows) fresh rightAccepted)
  | ident name reference => exact read_soundly ready accepted.faultless
  | assign name reference value =>
      refine ready_andThen (ready_evaluate ready fresh accepted.of_assign)
        fun assigned after afterSound follows known => ?_
      exact ready_tail (Plan.meets_start (.assign (ready.follow afterSound follows) fresh known)
        fun _ ends => ends)
  | call paren callee arguments =>
      obtain ⟨calleeAccepted, argumentsAccepted⟩ := accepted.of_call
      refine ready_andThen (ready_evaluate ready fresh calleeAccepted)
        fun function middle middleSound follows functionKnown => ?_
      refine ready_andThen
        (ready_evaluateAll (ready.follow middleSound follows) fresh argumentsAccepted)
        fun values after afterSound later valuesKnown => ?_
      exact ready_tail (Plan.meets_start
        (.call afterSound (functionKnown.follow later) valuesKnown) fun _ ends => ends)

private theorem ready_planCall {paren : Token} {callee : Value} {arguments : List Value}
    (isSound : machine.Sound policy) (known : machine.Knows policy callee)
    (argumentsKnown : ∀ argument ∈ arguments, machine.Knows policy argument) :
    (planCall paren callee arguments machine).Meets (Ready policy)
      (soundly policy fun value after => after.Knows policy value) := by
  unfold planCall
  split
  · exact isSound
  rename_i arity hasArity
  split
  · exact isSound
  rename_i rightArity
  split
  · exact isSound
  have exactly : callee.arity? = some (arguments.length : Int) :=
    hasArity.trans (congrArg some (Decidable.not_not.mp rightArity).symm)
  have concluded : ((Plan.apply { machine with depth := machine.depth + 1 } callee
      arguments).andThen fun reply after => .done (after.conclude paren callee reply)).Meets
        (Ready policy) (soundly policy fun value after => after.Knows policy value) := by
    refine ready_andThen (Plan.meets_start
      (.apply (isSound.atDepth _) known argumentsKnown exactly) fun _ ends => ends)
      fun reply after afterSound _ replyKnown => ?_
    exact conclude_soundly afterSound paren replyKnown ⟨arity, hasArity⟩
  refine concluded.map fun result ended => ?_
  rw [Result.meets_ensuring_iff]
  exact ended.imp (fun _ _ met => ⟨met.1.atDepth _, met.2⟩)
    (fun _ _ afterSound => afterSound.atDepth _) (fun _ _ met => ⟨met.1.atDepth _, met.2⟩)

private theorem ready_hostAction {action : HostAction} (isSound : machine.Sound policy)
    (honest : action.Honest policy.answers (machine.Knows policy)) :
    (action.plan machine).Meets (Ready policy)
      (soundly policy fun reply after => reply.Within policy.answers (after.Knows policy)) := by
  induction action generalizing machine with
  | answer reply => exact ⟨isSound, honest⟩
  | apply callee arguments next ih =>
      obtain ⟨known, argumentsKnown, arity, goesOn⟩ := honest
      refine ready_andThen (Plan.meets_start (.apply isSound known argumentsKnown arity)
        fun _ ends => ends) fun reply after afterSound follows replyKnown => ?_
      have toldSound := afterSound.tell replyKnown.1
      refine ih _ _ toldSound (goesOn ((after.tell reply).Knows policy) ?_ _ _ toldSound.told
        replyKnown.1)
      exact fun value before => before.follow (follows.trans (.tell _ after reply))

private theorem ready_planApply {callee : Value} {arguments : List Value}
    (isSound : machine.Sound policy) (known : machine.Knows policy callee)
    (argumentsKnown : ∀ argument ∈ arguments, machine.Knows policy argument)
    (arity : callee.arity? = some (arguments.length : Int)) :
    (planApply arguments machine callee).Meets (Ready policy)
      (soundly policy fun reply after => after.KnowsReply policy callee reply) := by
  cases callee with
  | nil | bool _ | number _ | string _ | foreign _ => cases arity
  | function closure =>
      obtain ⟨scopes, body, analysed⟩ := known
      have enough : closure.parameters.length ≤ arguments.length :=
        Nat.le_of_eq (Int.ofNat.inj (Option.some.inj arity))
      have bound := Machine.Ready.of_analysed analysed isSound argumentsKnown enough
      simp only [planApply, if_neg (Nat.not_lt.mpr enough)]
      have ended : ((Plan.executeAll (bindParameters closure.parameters arguments
          (machine.enter closure.scope)) closure.body).andThen fun completion after =>
            .done (.ok completion.value after)).Meets (Ready policy)
              (soundly policy fun value after => after.Knows policy value) := by
        rw [analysed.resolved]
        exact ready_andThen (ready_executeAll bound analysed.accepted)
          fun _ after afterSound _ valueKnown => ⟨afterSound, valueKnown⟩
      refine ended.map fun result met => ?_
      rw [Result.meets_ensuring_iff, Result.meets_reply_iff]
      exact met.imp (fun _ _ met => ⟨met.1.leaveTo _, .inl met.2, fun _ _ => met.2⟩)
        (fun _ _ afterSound => ⟨afterSound.leaveTo _, .inl trivial, fun _ _ => trivial⟩)
        (fun _ _ met => ⟨met.1.leaveTo _, met.2⟩)
  | native reference =>
      have inside : reference.identity < machine.natives.size := by
        simpa [Knows, Value.Sound, hostCode] using known
      obtain ⟨native, found⟩ : ∃ native, machine.natives[reference.identity]? = some native :=
        ⟨_, Array.getElem?_eq_getElem inside⟩
      have follows := Follows.countCall (fun _ => False) machine reference.identity arguments
      have kept : ∀ value, machine.Knows policy value →
          (machine.countCall reference.identity arguments).Knows policy value :=
        fun value before => before.follow follows
      simp only [planApply, found]
      have acted := ready_hostAction (isSound.countCall reference.identity argumentsKnown)
        (isSound.honest found _ kept native.calls machine.told arguments
          (fun event member => (isSound.told event member).imp kept)
          fun argument member => kept _ (argumentsKnown argument member))
      refine acted.imp fun result met => met.imp
        (fun _ _ met => ⟨met.1, met.2, fun _ same => Value.noConfusion same⟩) (fun _ _ met => met)
        (fun _ _ met => met)

/-- A body in a new environment leaves the environment around it ready. -/
private theorem ready_planNested {inFunction : Bool} {body : List (Stmt Unit)}
    (ready : machine.Ready policy scopes)
    (accepted : Stmt.AcceptedAll inFunction ([] :: scopes) body) :
    (planNested (Stmt.resolveAll ([] :: scopes) body) machine).Meets (Ready policy)
      (safely policy (fun _ => False) machine (Completes policy scopes)) := by
  have entered : (machine.enter machine.current).Ready policy ([] :: scopes) :=
    .enter ready.sound ready.hosted.covers ready.hosted.known
  refine (ready_executeAll entered accepted).map fun result met => ?_
  rw [Result.meets_ensuring_iff]
  refine met.imp (fun completion after met => ?_)
    (fun _ _ met => ⟨met.1.leaveTo _, Follows.leave met.2⟩)
    (fun _ _ met => ⟨⟨met.1.1.leaveTo _, met.1.2⟩, Follows.leave met.2⟩)
  obtain ⟨⟨afterSound, known⟩, inside⟩ := met
  have left := Follows.leave inside
  exact ⟨⟨afterSound.leaveTo _, known, fun _ => ready.follow (afterSound.leaveTo _) left⟩, left⟩

private theorem ready_planStmt {inFunction : Bool} {source : Stmt Unit}
    (ready : machine.Ready policy scopes) (accepted : source.Accepted inFunction scopes) :
    (planStmt machine (source.resolve scopes)).Meets (Ready policy)
      (soundly policy (Completes policy (source.extend scopes))) := by
  cases source with
  | expression token value =>
      refine ready_andThen (ready_test ready accepted.of_expression)
        fun _ after afterSound follows known => ?_
      exact ⟨afterSound, trivial, fun _ => ready.follow afterSound follows⟩
  | print keyword value =>
      refine ready_andThen (ready_test ready accepted.of_print)
        fun printed after afterSound follows known => ?_
      have framed := print_steady after printed
      have printedSoundly := print_soundly afterSound known
      generalize after.print printed = result at framed printedSoundly
      cases result with
      | ok _ written =>
          have writtenSound := printedSoundly.1
          exact ⟨writtenSound, trivial, fun _ => ready.follow writtenSound (follows.trans framed)⟩
      | error | fault | exhausted => exact printedSoundly
  | declare name initializer =>
      obtain ⟨fresh, initializerAccepted⟩ := accepted.of_declare
      cases initializer with
      | none =>
          have nilKnown : machine.Knows policy .nil := trivial
          have declared := ready.declare name nilKnown
          exact ⟨declared.sound, trivial, fun _ => declared⟩
      | some initializer =>
          have pending := initializerAccepted initializer rfl
          simp only [Stmt.resolve, Option.map_some, planStmt]
          rw [ready.initializing_eq name]
          rw [← Scopes.during_initialized] at pending ⊢
          refine ready_andThen
            (ready_evaluate ready (Scopes.initializes_initialized fresh) pending)
            fun value after afterSound follows known => ?_
          have declared := (ready.follow afterSound follows).declare name known
          exact ⟨declared.sound, trivial, fun _ => declared⟩
  | block brace body => exact ready_tail (ready_planNested ready accepted.of_block)
  | ifThen keyword test consequent =>
      obtain ⟨testAccepted, plain, consequentAccepted⟩ := accepted.of_ifThen
      refine ready_andThen (ready_test ready testAccepted)
        fun value after afterSound follows _ => ?_
      have afterReady := ready.follow afterSound follows
      split
      · exact ready_tail (ready_execute afterReady consequentAccepted)
      · rw [Stmt.extend, Stmt.extend_of_plain plain]
        exact ⟨afterSound, trivial, fun _ => afterReady⟩
  | ifElse keyword test consequent alternative =>
      obtain ⟨testAccepted, ⟨consequentPlain, consequentAccepted⟩, alternativePlain,
        alternativeAccepted⟩ := accepted.of_ifElse
      refine ready_andThen (ready_test ready testAccepted)
        fun value after afterSound follows _ => ?_
      have afterReady := ready.follow afterSound follows
      have consequentKept : consequent.extend scopes = scopes := Stmt.extend_of_plain consequentPlain
      have alternativeKept : alternative.extend scopes = scopes :=
        Stmt.extend_of_plain alternativePlain
      simp only [Stmt.extend, consequentKept, alternativeKept]
      split
      · have executed := ready_tail (ready_execute afterReady consequentAccepted)
        rwa [consequentKept] at executed
      · have executed := ready_tail (ready_execute afterReady alternativeAccepted)
        rwa [alternativeKept] at executed
  | loop keyword test body =>
      obtain ⟨testAccepted, _, bodyAccepted⟩ := accepted.of_loop
      refine ready_andThen (ready_test ready testAccepted)
        fun value middle middleSound follows _ => ?_
      have middleReady := ready.follow middleSound follows
      split
      · refine ready_andThen (ready_planNested middleReady bodyAccepted.singleton)
          fun completion after afterSound _ completes => ?_
        obtain ⟨known, afterReady⟩ := completes
        cases completion with
        | returned value => exact ⟨afterSound, completes_returned known⟩
        | normal => exact ready_tail (ready_execute (afterReady rfl) accepted)
      · exact ⟨middleSound, trivial, fun _ => middleReady⟩
  | function name parameters body =>
      obtain ⟨_, _, bodyAccepted⟩ := accepted.of_function
      have declared := ready.declareFunction bodyAccepted
      exact ⟨declared.sound, trivial, fun _ => declared⟩
  | giveBack keyword value =>
      cases value with
      | none => exact ⟨ready.sound, completes_returned trivial⟩
      | some value =>
          refine ready_andThen (ready_test ready (accepted.of_giveBack value rfl))
            fun given after afterSound follows known => ?_
          exact ⟨afterSound, completes_returned known⟩

private theorem ready_ofProgram {sources : List (Stmt Unit)} (ready : machine.Ready policy [])
    (accepted : Stmt.AcceptedAll false [] sources) :
    (Plan.ofProgram (Stmt.resolveAll [] sources) machine).Meets (Ready policy)
      (soundly policy fun _ after => after.Ready policy []) := by
  induction sources generalizing machine with
  | nil => exact ⟨ready.sound, ready⟩
  | cons first rest ih =>
      obtain ⟨firstAccepted, restAccepted⟩ := accepted.of_cons
      rw [first.extend_nil] at restAccepted
      rw [Stmt.resolveAll, first.extend_nil]
      refine ready_andThen (ready_execute ready firstAccepted)
        fun completion after afterSound follows _ => ?_
      exact ih (ready.followTop afterSound follows) restAccepted

end Rules

variable {policy : HostPolicy}

theorem Ready.frame {visit : Visit} {post : Post visit.task.Answer} (ready : Ready policy visit post)
    {result : Result visit.task.Answer} (met : result.Meets post) : result.Meets visit.frame := by
  cases ready <;> exact ((Result.meets_and_iff _ _ _).mp met).2

/-- Work that is ready ends as it should, and asks only for work that is ready. -/
theorem ready_kept : Contract.Kept (Ready policy) := by
  intro visit post ready
  have framed : ∀ {holds}, visit.plan.Meets (Ready policy) (soundly policy holds) →
      visit.plan.Meets (Ready policy) ((soundly policy holds).and visit.frame) := fun met =>
    met.and visit.plan_leveled fun _ _ _ ready level _ ends => level.2 ▸ ready.frame ends
  cases ready with
  | evaluate ready fresh accepted => exact framed (ready_planExpr ready fresh accepted)
  | @evaluateAll _ _ sources _ ready fresh accepted =>
      refine framed ?_
      cases sources with
      | nil => exact ⟨ready.sound, fun _ member => absurd member List.not_mem_nil⟩
      | cons first rest =>
          obtain ⟨firstAccepted, restAccepted⟩ := accepted.of_cons
          refine ready_andThen (ready_evaluate ready fresh firstAccepted)
            fun value middle middleSound follows known => ?_
          refine ready_andThen (ready_evaluateAll (ready.follow middleSound follows) fresh restAccepted)
            fun values after afterSound later valuesKnown => ⟨afterSound, ?_⟩
          intro held member
          rcases List.mem_cons.mp member with rfl | member
          · exact known.follow later
          · exact valuesKnown held member
  | assign ready fresh known => exact framed (assign_soundly ready known)
  | call isSound known argumentsKnown => exact framed (ready_planCall isSound known argumentsKnown)
  | apply isSound known argumentsKnown arity =>
      exact framed (ready_planApply isSound known argumentsKnown arity)
  | execute ready accepted => exact framed (ready_planStmt ready accepted)
  | @executeAll _ _ sources _ ready accepted =>
      refine framed ?_
      cases sources with
      | nil => exact ⟨ready.sound, trivial⟩
      | cons first rest =>
          obtain ⟨firstAccepted, restAccepted⟩ := accepted.of_cons
          refine ready_andThen (ready_execute ready firstAccepted)
            fun completion after afterSound _ completes => ?_
          obtain ⟨known, afterReady⟩ := completes
          cases completion with
          | returned value => exact ⟨afterSound, known⟩
          | normal => exact ready_tail (ready_executeAll (afterReady rfl) restAccepted)
  | interpret ready accepted => exact framed (ready_ofProgram ready accepted)

/-- Everything that ready work leads to is ready. -/
theorem Ready.reaches {visit other : Visit} {post : Post visit.task.Answer}
    (ready : Ready policy visit post) (reached : visit.Reaches other) :
    ∃ ends, Ready policy other ends :=
  ready_kept.reaches ⟨post, ready⟩ reached

end Visit

namespace Machine

variable {policy : HostPolicy} {scopes : Scopes} {machine : Machine}

theorem Ready.evaluate {expr : Expr Unit} (ready : machine.Ready policy scopes)
    {initializing : Option Text} (fresh : scopes.Initializes initializing)
    (accepted : expr.Accepted (scopes.during initializing)) (fuel : Nat) :
    (Machine.evaluate fuel (expr.resolve (scopes.during initializing)) machine).Meets
      (safely policy (fun _ => False) machine fun value after => after.Knows policy value) :=
  Visit.ready_kept.run fuel (.evaluate ready fresh accepted)

theorem Ready.evaluateAll {exprs : List (Expr Unit)} (ready : machine.Ready policy scopes)
    {initializing : Option Text} (fresh : scopes.Initializes initializing)
    (accepted : Expr.AcceptedAll (scopes.during initializing) exprs) (fuel : Nat) :
    (Machine.evaluateAll fuel (Expr.resolveAll (scopes.during initializing) exprs) machine).Meets
      (safely policy (fun _ => False) machine fun values after =>
        ∀ value ∈ values, after.Knows policy value) :=
  Visit.ready_kept.run fuel (.evaluateAll ready fresh accepted)

theorem Ready.execute {inFunction : Bool} {stmt : Stmt Unit} (ready : machine.Ready policy scopes)
    (accepted : stmt.Accepted inFunction scopes) (fuel : Nat) :
    (Machine.execute fuel (stmt.resolve scopes) machine).Meets
      (safely policy (· = machine.current) machine (Completes policy (stmt.extend scopes))) :=
  Visit.ready_kept.run fuel (.execute ready accepted)

theorem Ready.nested {inFunction : Bool} {body : List (Stmt Unit)}
    (ready : machine.Ready policy scopes)
    (accepted : Stmt.AcceptedAll inFunction ([] :: scopes) body) (fuel : Nat) :
    ((Machine.executeAll fuel (Stmt.resolveAll ([] :: scopes) body)
      (machine.enter machine.current)).ensuring (leaveTo machine.current)).Meets
        (safely policy (fun _ => False) machine (Completes policy scopes)) := by
  rw [← Visit.follow_planNested]
  exact (Visit.ready_planNested ready accepted).follow fun _ _ _ => Visit.ready_kept.run fuel

theorem Ready.interpret {program : List (Stmt Unit)} (ready : machine.Ready policy [])
    (accepted : Stmt.AcceptedAll false [] program) (fuel : Nat) :
    (Machine.interpret fuel (Stmt.resolveAll [] program) machine).Meets
      (safely policy (· = machine.current) machine fun _ after => after.Ready policy []) :=
  Visit.ready_kept.run (fuel + 1) (.interpret ready accepted)

end Machine

end Loxley
